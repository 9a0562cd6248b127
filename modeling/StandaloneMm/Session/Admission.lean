import StandaloneMm.Journal

/-!
The checks a message passes before anything leaves the normal world. The first check that fails
decides the error and the only bytes that may change: the capacity word, or the length field.
-/
namespace StandaloneMm.Admission

/-- Why a message is turned away, in the order of the checks. -/
inductive Refusal where
  | headless
  /-- The capacity is zero or larger than the shared buffer. -/
  | capacity
  /-- The capacity is smaller than the message. -/
  | overfull
  /-- The body is empty or does not fit the shared buffer. -/
  | unfit (header : MessageHeader)
  | truncated
  deriving DecidableEq, Repr

/-- The size of the part that is sent, or the first check that fails. -/
def screen (bufferLength : UInt64) (message : Bytes) (capacity : Option UInt64) :
    Except Refusal Nat :=
  match MessageHeader.decode? message with
  | none => .error .headless
  | some header =>
    let total := header.total
    if capacity.any fun c => c = 0 || bufferLength < c then .error .capacity
    else if capacity.any (·.toNat < total) then .error .overfull
    else if header.length = 0 ∨ bufferLength.toNat < total then .error (.unfit header)
    else if message.length < total then .error .truncated
    else .ok total

def Refusal.error : Refusal → Error
  | headless | overfull | truncated => .invalidParameter
  | capacity | unfit _ => .bufferTooSmall

/-- The message after the refusal: an unfit length becomes the longest that fits. -/
def Refusal.message (bufferLength : UInt64) (message : Bytes) : Refusal → Bytes
  | unfit header =>
    let longest := UInt64.ofNat (bufferLength.toNat - MessageHeader.size)
    overlay message { header with length := longest }.encode
  | headless | capacity | overfull | truncated => message

/-- The capacity after the refusal: one out of range becomes the length of the buffer. -/
def Refusal.capacityAfter (bufferLength : UInt64) (given : Option UInt64) :
    Refusal → Option UInt64
  | capacity => some bufferLength
  | headless | overfull | unfit _ | truncated => given

def Refusal.exchange (bufferLength : UInt64) (message : Bytes) (given : Option UInt64)
    (r : Refusal) : Exchange where
  result := .error (.error r.error)
  message := r.message bufferLength message
  capacity := r.capacityAfter bufferLength given

/-- Records of a message with a header, before it is judged. -/
def opening (capacity : Option UInt64) : List Event :=
  if capacity.isSome then [.log .debug .mmComm, .log .trace .mmComm] else [.log .debug .mmComm]

def Refusal.records (capacity : Option UInt64) : Refusal → List Event
  | headless => [.log .warn .mmComm]
  | _ => opening capacity ++ [.log .warn .mmComm]

end StandaloneMm.Admission
