import StandaloneMm.Journal
import StandaloneMm.Memory

/-!
The one region that carries every request and reply. The secure world is always given its physical
base; the normal world reaches it at its current base, which changes at most once, when the
operating system takes over the address space.
-/
namespace StandaloneMm

inductive AddressMode where
  | physical
  | virtual
  deriving DecidableEq, Repr, Inhabited

def AddressMode.text : AddressMode → String
  | physical => "Physical"
  | virtual => "Virtual"

/-- Answers the address a physical one is mapped at, if it is mapped. -/
abbrev Converter := UInt64 → Except Error (Option UInt64)

structure SharedBuffer where
  physicalBase : UInt64
  currentBase : UInt64
  length : UInt64
  mode : AddressMode
  deriving DecidableEq, Repr, Inhabited

namespace SharedBuffer

/-- A buffer over memory that is known to be good. -/
def identityMapped (base length : UInt64) : SharedBuffer := ⟨base, base, length, .physical⟩

/-- A buffer over a range of the memory map. The length is looked at before the base. -/
def ofRange (base length : UInt64) : Except Error SharedBuffer × List Event :=
  if length = 0 ∨ base = 0 then (.error .invalidParameter, [.log .error .mmComm])
  else (.ok (identityMapped base length), [])

def isEmpty (b : SharedBuffer) : Bool := b.length = 0

/-- Where the normal world reaches the buffer now. -/
def span (b : SharedBuffer) : Span := ⟨b.currentBase.toNat, b.length.toNat⟩

/-- Moves the current base to its mapping. Only a mapping to a nonzero address counts, and only
the first one; the physical base stays as it is. -/
def remap (convert : Converter) (b : SharedBuffer) : SharedBuffer × List Event :=
  match b.mode with
  | .virtual => (b, [.log .warn .mmComm])
  | .physical =>
    let asked := Event.convert b.currentBase
    match convert b.currentBase with
    | .ok (some address) =>
      if address = 0 then (b, [asked, .log .warn .mmComm])
      else ({ b with currentBase := address, mode := .virtual }, [asked, .log .info .mmComm])
    | .ok none => (b, [asked, .log .info .mmComm])
    | .error _ => (b, [asked, .log .error .mmComm])

def dumpLine (offset : Nat) (bytes : Bytes) : String :=
  Hex.upperPadded 8 offset ++ ": " ++
    String.join (bytes.map fun b => Hex.upperPadded 2 b.toNat ++ " ") ++ "\n"

def text (b : SharedBuffer) (m : Memory) : String :=
  let length := b.length.toNat
  let lines := (List.range 8).filter (16 * · < length)
  "CommBuffer(phys: " ++ Hex.upperMarked b.physicalBase.toNat ++
    ", current: " ++ Hex.upperMarked b.currentBase.toNat ++
    ", len: " ++ Hex.upperMarked length ++ ", " ++ b.mode.text ++ ")\n" ++
    String.join (lines.map fun i =>
      dumpLine (16 * i) (m.load (b.currentBase.toNat + 16 * i) (min 16 (length - 16 * i))))

end SharedBuffer
end StandaloneMm
