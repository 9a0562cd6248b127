import StandaloneMm.ErrorSource.Info
import StandaloneMm.Message
import StandaloneMm.Registers
import StandaloneMm.Session.Route

/-!
The journal of a run: what the code did to the parties around it, in order. Calls and their answers
are entered one after the other, and what ran inside a call stands between the two.
-/
namespace StandaloneMm

/-- How grave a log record is, gravest first. -/
inductive Level where
  | error
  | warn
  | info
  | debug
  | trace
  deriving DecidableEq, Repr

namespace Level

/-- A filter of some rank lets every level of that rank or a lower one pass. -/
def rank : Level → Nat
  | error => 1
  | warn => 2
  | info => 3
  | debug => 4
  | trace => 5

def name : Level → String
  | error => "ERROR"
  | warn => "WARN"
  | info => "INFO"
  | debug => "DEBUG"
  | trace => "TRACE"

end Level

/-- The part of the firmware that a log record comes from. -/
inductive Target where
  | ffa
  | mmComm
  | stmm
  | hest
  deriving DecidableEq, Repr

def Target.name : Target → String
  | ffa => "ffa"
  | mmComm => "mm_comm"
  | stmm => "stmm"
  | hest => "hest"

structure Snapshot where
  route : Route
  bufferLength : UInt64
  maxMessage : UInt64
  mapped : Bool
  deriving DecidableEq, Repr

inductive Answer where
  | finished (result : Except Fault Unit)
  | exchanged (exchange : Exchange)
  | collected (result : Except Fault ErrorSource.Collection)
  | mapped (still : Bool)
  | bytes (data : Bytes)
  | snapshot (s : Snapshot)
  | text (t : String)

inductive Event where
  | call (registers : Registers)
  | ret (registers : Registers)
  | log (level : Level) (target : Target)
  /-- A converter was asked for the mapping of an address. -/
  | convert (address : UInt64)
  | handler (recipient : Guid) (body : Bytes)
  | probe (provider : Nat)
  | fill (provider : Nat) (capacity : Nat)
  /-- A message was handed to a scripted transport. -/
  | communicate (message : Bytes) (capacity : Option UInt64)
  | table (descriptors : Bytes) (count : UInt64)
  /-- An event was handled inside a handler, with this completion. -/
  | completion (registers : Registers)
  /-- Operations that ran inside a call, each with its own journal. -/
  | nested (operations : List (Answer × List Event))

end StandaloneMm
