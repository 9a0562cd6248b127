import StandaloneMm.Hex

/-!
The eight registers of a call into a more privileged world. The first one names the function on
the way in and the kind of answer on the way out.
-/
namespace StandaloneMm

structure Registers where
  x0 : UInt64 := 0
  x1 : UInt64 := 0
  x2 : UInt64 := 0
  x3 : UInt64 := 0
  x4 : UInt64 := 0
  x5 : UInt64 := 0
  x6 : UInt64 := 0
  x7 : UInt64 := 0
  deriving DecidableEq, Repr, Inhabited

namespace Registers

def toList (r : Registers) : List UInt64 := [r.x0, r.x1, r.x2, r.x3, r.x4, r.x5, r.x6, r.x7]

/-- Registers that are not given are zero; values past the eighth have no register. -/
def ofList (values : List UInt64) : Registers :=
  let register i := values.getD i 0
  ⟨register 0, register 1, register 2, register 3,
    register 4, register 5, register 6, register 7⟩

def text (r : Registers) : String :=
  "SmcArgs[" ++ ", ".intercalate (r.toList.map fun x => Hex.upperMarked x.toNat) ++ "]"

end Registers

/-- The instruction that makes the call: to the secure monitor, or to the partition manager. -/
inductive Conduit where
  | smc
  | svc
  deriving DecidableEq, Repr

def Conduit.name : Conduit → String
  | smc => "Smc"
  | svc => "Svc"

end StandaloneMm
