/-!
Interface versions and the 32-bit word that carries one: the major number in bits 30 to 16, the
minor number in bits 15 to 0. A callee without the version call answers the all-ones word.
-/
namespace StandaloneMm

structure Version where
  major : UInt16
  minor : UInt16
  deriving DecidableEq, Repr

namespace Version

/-- Stands in for a version where the version call is not implemented. -/
def notSupported : UInt32 := 0xFFFFFFFF

/-- Bit 15 of the major number has no place in the word and is dropped. -/
def pack (v : Version) : UInt32 :=
  ((v.major.toUInt32 &&& 0x7FFF) <<< 16) ||| v.minor.toUInt32

/-- Only the low 32 bits of the register count, and of these not bit 31, except that all ones
mean no version. -/
def ofRegister (value : UInt64) : Option Version :=
  let word := value.toUInt32
  if word = notSupported then none
  else some ⟨((word >>> 16) &&& 0x7FFF).toUInt16, word.toUInt16⟩

/-- A callee serves a caller of the same major number that asks for no later minor number. -/
def satisfies (offered required : Version) : Bool :=
  offered.major = required.major && required.minor ≤ offered.minor

def order (a b : Version) : Ordering := (compare a.major b.major).then (compare a.minor b.minor)

def text (v : Version) : String := toString v.major.toNat ++ "." ++ toString v.minor.toNat

end Version
end StandaloneMm
