import StandaloneMm.Error
import StandaloneMm.Guid

/-!
The reply that carries error source descriptors: their number and total length as two words, then
the descriptors back to back.
-/
namespace StandaloneMm.ErrorSource

/-- The recipient that collects error sources inside the partition. -/
def aggregatorGuid : Guid := ⟨0x7d602951, 0x678e, 0x4cc4, 0x98d9e37604f6930d⟩

/-- Published by the drivers that provide descriptors. -/
def providerGuid : Guid := ⟨0x560bf236, 0xa4a8, 0x4d69, 0xbcf6c29724109d91⟩

/-- Published by the builder of the error source table. -/
def tableGuid : Guid := ⟨0x705bdcd9, 0x8c47, 0x457e, 0xad0df786f34a0d63⟩

/-- The two words in front of the descriptors. -/
structure Info where
  count : UInt64
  length : UInt64
  deriving DecidableEq, Repr

namespace Info

def size : Nat := 16

def encode (i : Info) : Bytes := littleEndian 8 i.count.toNat ++ littleEndian 8 i.length.toNat

@[simp] theorem length_encode (i : Info) : i.encode.length = size := by simp [encode, size]

def decode? (body : Bytes) : Option Info :=
  if body.length < size then none
  else some
    { count := UInt64.ofNat (ofLittleEndian (body.take 8))
      length := UInt64.ofNat (ofLittleEndian ((body.drop 8).take 8)) }

def read (body : Bytes) : Except Error Info :=
  match decode? body with
  | some info => .ok info
  | none => .error .invalidParameter

/-- Lays the two words over the start of a body; a body too short for them is left alone. -/
def write (i : Info) (body : Bytes) : Except Error Bytes :=
  if body.length < size then .error .bufferTooSmall else .ok (overlay body i.encode)

end Info

structure Collection where
  count : UInt64
  descriptors : Bytes
  deriving DecidableEq, Repr

end StandaloneMm.ErrorSource
