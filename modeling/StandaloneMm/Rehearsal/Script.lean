import StandaloneMm.Session.Operation

/-!
A world that answers calls from a script. Before an answer is given its writes are made, then its
operations run, as if from inside the call; when the script is over every call is refused.
-/
namespace StandaloneMm.Rehearsal

/-- Where a write goes: an address, or the start of the receive page that is lent now. -/
inductive Site where
  | address (base : Nat)
  | rxPage
  deriving DecidableEq, Repr

structure Write where
  site : Site
  data : Bytes
  deriving DecidableEq, Repr

structure Reply where
  ret : Registers
  writes : List Write := []
  nested : List Operation := []

/-- The replies still to come, and the receive page if one is lent. -/
structure Script where
  replies : List Reply := []
  rxPage : Option UInt64 := none

def Write.apply (rxPage : Option UInt64) (memory : Memory) (w : Write) : Memory :=
  match w.site with
  | .address base => memory.store base w.data
  | .rxPage =>
    match rxPage with
    | some page => memory.store page.toNat w.data
    | none => memory

/-- How operations inside a call are run, where there is a session to run them on. -/
abbrev Inner := Option (List Operation → Machine Script →
  List (Answer × List Event) × Machine Script)

/-- The page is known from the call that lends it on. -/
def Script.noteCall (call : Registers) (s : Script) : Script :=
  if call.x0 = FunctionId.ffaRxtxMap then { s with rxPage := some call.x2 }
  else if call.x0 = FunctionId.ffaRxtxUnmap then { s with rxPage := none }
  else s

/-- A page whose loan is refused was never lent. -/
def Script.noteAnswer (call ret : Registers) (s : Script) : Script :=
  if call.x0 = FunctionId.ffaRxtxMap ∧ ret.x0 = FunctionId.ffaError then { s with rxPage := none }
  else s

def Script.next (s : Script) : Reply × Script :=
  match s.replies with
  | [] => ({ ret := FfaStatus.notSupported.refusal }, s)
  | reply :: rest => (reply, { s with replies := rest })

def runInner (inner : Inner) (operations : List Operation) (m : Machine Script) :
    Machine Script :=
  match inner, operations with
  | none, _ | _, [] => m
  | some run, operations =>
    let (entries, m) := run operations m
    m.record (.nested entries)

def answer (inner : Inner) (call : Registers) (m : Machine Script) :
    Registers × Machine Script :=
  let (reply, script) := (m.rest.noteCall call).next
  let memory := reply.writes.foldl (Write.apply script.rxPage) m.memory
  let m := runInner inner reply.nested { m with memory := memory, rest := script }
  (reply.ret, { m with rest := m.rest.noteAnswer call reply.ret })

def Script.monitor (inner : Inner) : Monitor Script where
  call := answer inner
  patience := fun m => m.rest.replies.length + 1

/-- A script whose operations may make calls of their own, at most `depth` deep. -/
def Script.nestedMonitor : (depth : Nat) → Monitor Script
  | 0 => Script.monitor none
  | depth + 1 => Script.monitor (some (Operation.performAll (Script.nestedMonitor depth)))

/-- Every call in progress has taken a reply, so no more calls than replies can be in progress. -/
def Script.sessionMonitor (s : Script) : Monitor Script :=
  Script.nestedMonitor (s.replies.length + 1)

end StandaloneMm.Rehearsal
