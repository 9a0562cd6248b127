import StandaloneMm.Bytes
import StandaloneMm.Hex

/-!
Identifiers of services and message recipients. In memory the first three fields are written
little-endian and the last eight bytes in order; the text form shows every field most significant
digit first; a partition query takes the four words of the text order.
-/
namespace StandaloneMm

structure Guid where
  data1 : UInt32
  data2 : UInt16
  data3 : UInt16
  /-- The last eight bytes, the first of them most significant. -/
  data4 : UInt64
  deriving DecidableEq, Repr, Inhabited

namespace Guid

def encode (g : Guid) : Bytes :=
  littleEndian 4 g.data1.toNat ++ littleEndian 2 g.data2.toNat ++
    littleEndian 2 g.data3.toNat ++ bigEndian 8 g.data4.toNat

/-- Reads the first sixteen bytes; missing ones count as zero at the end of their field. -/
def decode (bytes : Bytes) : Guid where
  data1 := UInt32.ofNat (ofLittleEndian (bytes.take 4))
  data2 := UInt16.ofNat (ofLittleEndian ((bytes.drop 4).take 2))
  data3 := UInt16.ofNat (ofLittleEndian ((bytes.drop 6).take 2))
  data4 := UInt64.ofNat (ofBigEndian ((bytes.drop 8).take 8))

@[simp] theorem length_encode (g : Guid) : g.encode.length = 16 := by simp [encode]

/-- Groups of 8, 4, 4, 4 and 12 digits. -/
def text (g : Guid) : String :=
  let tail := Hex.lowerPadded 16 g.data4.toNat
  "-".intercalate
    [Hex.lowerPadded 8 g.data1.toNat, Hex.lowerPadded 4 g.data2.toNat,
      Hex.lowerPadded 4 g.data3.toNat,
      String.ofList (tail.toList.take 4), String.ofList (tail.toList.drop 4)]

/-- Exchanges two fields in place by adding and subtracting; the sums wrap. -/
def rotateFields (b c : UInt16) : UInt16 × UInt16 :=
  let sum := b + c
  let c' := sum - c
  (sum - c', c')

structure Words where
  w0 : UInt32
  w1 : UInt32
  w2 : UInt32
  w3 : UInt32
  deriving DecidableEq, Repr

def swapBytes (w : UInt32) : UInt32 := UInt32.ofNat (ofBigEndian (littleEndian 4 w.toNat))

/-- The two interior fields change places, the sixteen bytes are read as four little-endian words,
and the last two words are byte swapped. -/
def words (g : Guid) : Words :=
  let fields := rotateFields g.data2 g.data3
  let bytes := encode { g with data2 := fields.1, data3 := fields.2 }
  let word i := UInt32.ofNat (ofLittleEndian ((bytes.drop (4 * i)).take 4))
  ⟨word 0, word 1, swapBytes (word 2), swapBytes (word 3)⟩

end Guid
end StandaloneMm
