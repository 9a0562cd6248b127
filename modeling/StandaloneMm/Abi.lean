import StandaloneMm.Registers

/-!
Function identifiers and status codes of the two call interfaces: FF-A between endpoints, and the
older MM interface of a single buffer. Identifiers of requests and of answers share one numbering.
-/
namespace StandaloneMm

namespace FunctionId

def ffaError : UInt64 := 0x84000060
def ffaSuccess32 : UInt64 := 0x84000061
def ffaSuccess64 : UInt64 := 0xC4000061
/-- The callee was preempted and waits to be resumed. -/
def ffaInterrupt : UInt64 := 0x84000062
def ffaVersion : UInt64 := 0x84000063
def ffaRxRelease : UInt64 := 0x84000065
def ffaRxtxMap : UInt64 := 0xC4000066
def ffaRxtxUnmap : UInt64 := 0x84000067
def ffaPartitionInfoGet : UInt64 := 0x84000068
def ffaIdGet : UInt64 := 0x84000069
def ffaMsgWait : UInt64 := 0x8400006B
def ffaRun : UInt64 := 0x8400006D
def ffaDirectRequest : UInt64 := 0xC400006F
def ffaDirectResponse : UInt64 := 0xC4000070
def ffaConsoleLog : UInt64 := 0xC400008A
def mmVersion : UInt64 := 0x84000040
def mmCommunicate : UInt64 := 0xC4000041
def spmVersion : UInt64 := 0x84000060
def spEventComplete : UInt64 := 0xC4000061

end FunctionId

/-- Characters that one console call carries, packed into registers 2 to 7. -/
def consoleCallBytes : Nat := 48

def pageSize : Nat := 0x1000

/-- Pages lent in each direction. -/
def scratchPageCount : UInt64 := 1

/-- The register word that addresses a message from one endpoint to another. -/
def endpointPair (sender receiver : UInt16) : UInt64 :=
  (sender.toUInt64 <<< 16) ||| receiver.toUInt64

/-- Why an FF-A call was refused; the code stands in the third register. -/
inductive FfaStatus where
  | notSupported
  | invalidParameters
  | noMemory
  | busy
  | interrupted
  | denied
  | retry
  | aborted
  deriving DecidableEq, Repr

namespace FfaStatus

def all : List FfaStatus :=
  [notSupported, invalidParameters, noMemory, busy, interrupted, denied, retry, aborted]

def code : FfaStatus → Int
  | notSupported => -1
  | invalidParameters => -2
  | noMemory => -3
  | busy => -4
  | interrupted => -5
  | denied => -6
  | retry => -7
  | aborted => -8

/-- The code, sign-extended over the whole register. -/
def register (s : FfaStatus) : UInt64 := UInt64.ofInt s.code

/-- The answer of a refused call. Where there is no world to call into, every call is refused as
not supported. -/
def refusal (s : FfaStatus) : Registers := { x0 := FunctionId.ffaError, x2 := s.register }

/-- Only the low 32 bits of the register count. -/
def ofRegister (value : UInt64) : Option FfaStatus :=
  all.find? (·.register.toUInt32 = value.toUInt32)

def name : FfaStatus → String
  | notSupported => "NotSupported"
  | invalidParameters => "InvalidParameters"
  | noMemory => "NoMemory"
  | busy => "Busy"
  | interrupted => "Interrupted"
  | denied => "Denied"
  | retry => "Retry"
  | aborted => "Aborted"

end FfaStatus

/-- Return codes of the MM interface, also used by a partition to complete an event. -/
inductive MmStatus where
  | success
  | notSupported
  | invalidParams
  | denied
  | noMemory
  deriving DecidableEq, Repr

namespace MmStatus

def all : List MmStatus := [success, notSupported, invalidParams, denied, noMemory]

def code : MmStatus → Int
  | success => 0
  | notSupported => -1
  | invalidParams => -2
  | denied => -3
  | noMemory => -5

/-- The code, sign-extended over the whole register. -/
def register (s : MmStatus) : UInt64 := UInt64.ofInt s.code

/-- The whole register counts: a code that is not sign-extended is no status. -/
def ofRegister (value : UInt64) : Option MmStatus := all.find? (·.register = value)

def name : MmStatus → String
  | success => "Success"
  | notSupported => "NotSupported"
  | invalidParams => "InvalidParams"
  | denied => "Denied"
  | noMemory => "NoMemory"

theorem ofRegister_eq_some_iff {value : UInt64} {s : MmStatus} :
    ofRegister value = some s ↔ s.register = value := by
  constructor
  · intro found
    simpa using List.find?_some found
  · rintro rfl
    cases s <;> decide

end MmStatus
end StandaloneMm
