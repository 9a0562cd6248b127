import StandaloneMm.Abi
import StandaloneMm.Machine

/-!
The convention of a session is settled by one version call. A secure world that speaks FF-A 1.0
lacks what direct messages need, so a session that asked for them falls back to the legacy
convention; every other mismatch leaves no convention at all.
-/
namespace StandaloneMm.Negotiation

variable {ω : Type}

/-- Offered when direct messages are asked for. -/
def directVersion : Version := ⟨1, 1⟩

/-- Required for the legacy convention. -/
def legacyVersion : Version := ⟨1, 0⟩

def request : Convention → Registers
  | .partitionAddressed =>
    { x0 := FunctionId.ffaVersion, x1 := directVersion.pack.toUInt64 }
  | .legacy => { x0 := FunctionId.mmVersion }

def required : Convention → Version
  | .partitionAddressed => directVersion
  | .legacy => legacyVersion

inductive Verdict where
  /-- The version call is not implemented. -/
  | silent
  | agreed
  | fallback
  | incompatible
  deriving DecidableEq, Repr

def judge (asked : Convention) (answer : UInt64) : Verdict :=
  match Version.ofRegister answer with
  | none => .silent
  | some remote =>
    if remote.satisfies (required asked) then .agreed
    else if asked = .partitionAddressed ∧ remote.satisfies legacyVersion then .fallback
    else .incompatible

def Verdict.convention (asked : Convention) : Verdict → Except Error Convention
  | agreed => .ok asked
  | fallback => .ok .legacy
  | silent | incompatible => .error .unsupported

def Verdict.records : Verdict → List Event
  | silent => [.log .error .ffa]
  | agreed => [.log .info .ffa]
  | fallback => [.log .info .ffa, .log .warn .ffa]
  | incompatible => [.log .info .ffa, .log .error .ffa]

/-- Settles the convention with exactly one call. -/
def negotiate (monitor : Monitor ω) (asked : Convention) (m : Machine ω) :
    Except Error Convention × Machine ω :=
  let (answer, m) := m.trap monitor (request asked)
  let verdict := judge asked answer.x0
  (verdict.convention asked, m.append verdict.records)

end StandaloneMm.Negotiation
