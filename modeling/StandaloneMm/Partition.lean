import StandaloneMm.Bytes

/-!
The descriptor of a partition, as the partition manager leaves it at the start of the receive page.
-/
namespace StandaloneMm

structure PartitionDescriptor where
  id : UInt16
  contexts : UInt16
  properties : UInt32
  deriving DecidableEq, Repr, Inhabited

namespace PartitionDescriptor

def size : Nat := 8

def encode (d : PartitionDescriptor) : Bytes :=
  littleEndian 2 d.id.toNat ++ littleEndian 2 d.contexts.toNat ++ littleEndian 4 d.properties.toNat

/-- Reads the first descriptor; a page too short for one holds none. -/
def decode? (page : Bytes) : Option PartitionDescriptor :=
  if page.length < size then none
  else some
    { id := UInt16.ofNat (ofLittleEndian (page.take 2))
      contexts := UInt16.ofNat (ofLittleEndian ((page.drop 2).take 2))
      properties := UInt32.ofNat (ofLittleEndian ((page.drop 4).take 4)) }

def text (d : PartitionDescriptor) : String :=
  "PartitionInfo \x7b partition_id: " ++ toString d.id.toNat ++
    ", execution_context_count: " ++ toString d.contexts.toNat ++
    ", properties: " ++ toString d.properties.toNat ++ " \x7d"

end PartitionDescriptor
end StandaloneMm
