import StandaloneMm.SharedBuffer

/-!
What a session holds: its route, the shared buffer and whether an exchange is using it, and what
discovery left behind.
-/
namespace StandaloneMm

/-- The two pages lent to the partition manager for queries. -/
structure ScratchPages where
  tx : UInt64
  rx : UInt64
  deriving DecidableEq, Repr

/-- What discovery found, and the pages while they are still lent. -/
structure Directory where
  localId : UInt16
  remote : PartitionDescriptor
  pages : Option ScratchPages
  deriving DecidableEq, Repr

namespace Directory

def mapped (d : Directory) : Bool := d.pages.isSome

def text (d : Directory) : String :=
  "PartitionDirectory \x7b local_id: " ++ toString d.localId.toNat ++
    ", remote: " ++ d.remote.text ++
    ", mapped: " ++ (if d.mapped then "true" else "false") ++ " \x7d"

end Directory

structure Session where
  route : Route
  buffer : SharedBuffer
  /-- An exchange holds the shared buffer; nobody else may touch or move it. -/
  inUse : Bool := false
  directory : Option Directory := none
  deriving DecidableEq, Repr, Inhabited

namespace Session

/-- The longest body that fits the shared buffer behind a header. -/
def maxMessage (s : Session) : Nat := s.buffer.length.toNat - MessageHeader.size

def mapped (s : Session) : Bool := (s.directory.map Directory.mapped).getD false

def snapshot (s : Session) : Snapshot where
  route := s.route
  bufferLength := s.buffer.length
  maxMessage := UInt64.ofNat s.maxMessage
  mapped := s.mapped

def text (s : Session) (m : Memory) : String :=
  let directory := match s.directory with
    | none => "None"
    | some d => "Some(" ++ d.text ++ ")"
  "MM Communicator:\nConvention: " ++ s.route.text ++ "\nDirectory: " ++ directory ++
    "\nComm Buffer: " ++ s.buffer.text m ++ "\n"

end Session

/-- What a platform chooses before a session comes up. -/
structure Configuration where
  convention : Convention := .partitionAddressed
  buffer : Option SharedBuffer := none

def Configuration.text (c : Configuration) : String :=
  let number (n : Option UInt64) := match n with
    | none => "None"
    | some n => "Some(" ++ toString n.toNat ++ ")"
  "MmCommunicationConfiguration \x7b convention: " ++ c.convention.text ++
    ", comm_buffer_base: " ++ number (c.buffer.map (·.physicalBase)) ++
    ", comm_buffer_len: " ++ number (c.buffer.map (·.length)) ++ " \x7d"

end StandaloneMm
