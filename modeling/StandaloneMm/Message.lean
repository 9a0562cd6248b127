import StandaloneMm.Error
import StandaloneMm.Guid

/-!
Messages to handlers in the partition: a header of recipient and body length, then the body. The
same bytes carry the reply back.
-/
namespace StandaloneMm

/-- The largest size a 64-bit word can hold; sizes that would pass it stay there. -/
def maxSize : Nat := 0xFFFFFFFFFFFFFFFF

structure MessageHeader where
  recipient : Guid
  /-- Length of the body alone. -/
  length : UInt64
  deriving DecidableEq, Repr

namespace MessageHeader

def size : Nat := 24

def total (h : MessageHeader) : Nat := min (size + h.length.toNat) maxSize

def encode (h : MessageHeader) : Bytes := h.recipient.encode ++ littleEndian 8 h.length.toNat

/-- Reads a header from the start of a message; what follows it does not matter. -/
def decode? (message : Bytes) : Option MessageHeader :=
  if message.length < size then none
  else some
    { recipient := Guid.decode (message.take 16)
      length := UInt64.ofNat (ofLittleEndian ((message.drop 16).take 8)) }

def read (message : Bytes) : Except Error MessageHeader :=
  match decode? message with
  | some header => .ok header
  | none => .error .invalidParameter

/-- Lays the header over the start of a message; a message too short for it is left alone. -/
def write (h : MessageHeader) (message : Bytes) : Except Error Bytes :=
  if message.length < size then .error .bufferTooSmall else .ok (overlay message h.encode)

@[simp] theorem length_encode (h : MessageHeader) : h.encode.length = size := by
  simp [encode, size]

end MessageHeader

/-- What a call leaves with its caller: its result, the message slice and the capacity word. -/
structure Exchange where
  result : Except Fault Unit
  message : Bytes
  capacity : Option UInt64

end StandaloneMm
