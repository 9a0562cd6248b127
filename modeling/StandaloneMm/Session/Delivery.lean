import StandaloneMm.Abi
import StandaloneMm.SharedBuffer

/-!
The way out and the way back: the registers that name the shared buffer, the verdict on the answer,
and the reply copied into the caller's message. The caller's request is wiped before the reply is
looked at, so nothing of it is taken for a reply.
-/
namespace StandaloneMm.Delivery

/-- The call that hands the buffer over. Both conventions name it by its physical base. -/
def request (route : Route) (physicalBase : UInt64) : Registers :=
  match route with
  | .legacy => { x0 := FunctionId.mmCommunicate, x2 := physicalBase }
  | .direct localId remote =>
    { x0 := FunctionId.ffaDirectRequest, x1 := endpointPair localId remote.id, x3 := physicalBase }

def resumeRequest (remote : PartitionDescriptor) : Registers :=
  { x0 := FunctionId.ffaRun, x1 := endpointPair remote.id 0 }

def preempted (answer : Registers) : Bool := answer.x0 = FunctionId.ffaInterrupt

def succeeded (route : Route) (answer : Registers) : Bool :=
  match route with
  | .legacy => MmStatus.ofRegister answer.x0 = some .success
  | .direct _ _ => answer.x0 = FunctionId.ffaDirectResponse

/-- The register that holds the status of a failed call. -/
def failureStatus (route : Route) (answer : Registers) : UInt64 :=
  match route with
  | .legacy => answer.x0
  | .direct _ _ => answer.x2

/-- Both conventions report failures with the codes of the MM interface. A code that a request past
every local check cannot meet fails an assertion. -/
def faultOfStatus (status : UInt64) : Fault :=
  match MmStatus.ofRegister status with
  | some .invalidParams => .error .invalidParameter
  | some .denied => .error .accessDenied
  | some .notSupported => .error .unsupported
  | some .noMemory => .assertion .outOfMemory
  | some .success | none => .assertion (.unexpectedStatus status)

def classify (route : Route) (answer : Registers) : Except Fault Unit :=
  if succeeded route answer then .ok () else .error (faultOfStatus (failureStatus route answer))

/-- A failed call is reported by its error; a failed assertion stops before the report. -/
def failureRecords : Fault → List Event
  | .error _ => [.log .error .mmComm]
  | .assertion _ => []

/-- The message and result when the partition has answered; `total` bytes had been sent. -/
structure Receipt where
  result : Except Error Unit
  message : Bytes

/-- Takes the reply out of the buffer. A reply longer than the buffer is no reply; one longer than
the message leaves its header, so the caller learns the size it needs. -/
def receive (memory : Memory) (buffer : SharedBuffer) (message : Bytes) (total : Nat) : Receipt :=
  let wiped := overlay message (zeros total)
  let base := buffer.currentBase.toNat
  let capacity := buffer.length.toNat
  match MessageHeader.read (memory.load base (min MessageHeader.size capacity)) with
  | .error e => ⟨.error e, wiped⟩
  | .ok reply =>
    if capacity < reply.total then ⟨.error .aborted, wiped⟩
    else if message.length < reply.total then
      ⟨.error .bufferTooSmall, overlay wiped reply.encode⟩
    else ⟨.ok (), overlay wiped (memory.load base reply.total)⟩

def Receipt.records (r : Receipt) : List Event :=
  match r.result with
  | .ok _ => [.log .debug .mmComm]
  | .error .aborted => [.log .error .mmComm]
  | .error .bufferTooSmall => [.log .warn .mmComm]
  | .error _ => []

end StandaloneMm.Delivery
