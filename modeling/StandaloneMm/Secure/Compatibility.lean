import StandaloneMm.Abi
import StandaloneMm.Machine

/-!
The interface between the partition and its manager, settled once when the partition starts.
-/
namespace StandaloneMm

inductive PartitionAbi where
  /-- Direct messages; a manager of version 1.1 or later is spoken to in nothing else. -/
  | ffa (only : Bool)
  /-- The older interface of delegated events. -/
  | spm
  deriving DecidableEq, Repr

namespace Compatibility

variable {ω : Type}

/-- The FF-A version that the partition is built for. -/
def ffaVersion : Version := ⟨1, 1⟩

/-- The oldest version of the other interface that will do. -/
def spmVersion : Version := ⟨0, 1⟩

def request (ffaEnabled : Bool) : Registers :=
  if ffaEnabled then { x0 := FunctionId.ffaVersion, x1 := ffaVersion.pack.toUInt64 }
  else { x0 := FunctionId.spmVersion }

/-- FF-A asks for the same major number only; a manager of a smaller minor number is spoken to in
the older way as well. -/
def judge (ffaEnabled : Bool) (answer : UInt64) : Except Error PartitionAbi :=
  match Version.ofRegister answer with
  | none => .error .unsupported
  | some version =>
    if ffaEnabled then
      if version.major = ffaVersion.major then .ok (.ffa (ffaVersion.minor ≤ version.minor))
      else .error .unsupported
    else if version.satisfies spmVersion then .ok .spm
    else .error .unsupported

def verdictRecord : Except Error PartitionAbi → Event
  | .ok _ => .log .info .stmm
  | .error _ => .log .error .stmm

def check (monitor : Monitor ω) (ffaEnabled : Bool) (m : Machine ω) :
    Except Error PartitionAbi × Machine ω :=
  let (answer, m) := m.trap monitor (request ffaEnabled)
  let verdict := judge ffaEnabled answer.x0
  (verdict, m.record (verdictRecord verdict))

end Compatibility
end StandaloneMm
