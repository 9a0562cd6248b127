import StandaloneMm.Partition

/-!
How a session reaches the partition: the convention a platform asks for, and the one in effect with
the endpoints it needs.
-/
namespace StandaloneMm

inductive Convention where
  /-- One call that carries the address of the shared buffer. -/
  | legacy
  /-- Direct messages from the local endpoint to the partition's. -/
  | partitionAddressed
  deriving DecidableEq, Repr

def Convention.text : Convention → String
  | legacy => "Legacy"
  | partitionAddressed => "PartitionAddressed"

inductive Route where
  | legacy
  | direct (localId : UInt16) (remote : PartitionDescriptor)
  deriving DecidableEq, Repr, Inhabited

def Route.text : Route → String
  | legacy => "Legacy"
  | direct localId remote =>
    "PartitionAddressed \x7b local_id: " ++ toString localId.toNat ++
      ", remote: " ++ remote.text ++ " \x7d"

end StandaloneMm
