import StandaloneMm.ErrorSource.Aggregation
import StandaloneMm.Secure.EventLoop
import StandaloneMm.Session.Operation

/-!
Handlers and providers with a fixed behaviour. Some act on their body alone; others reach past it,
enter the event loop again, or run operations of the session that waits for them.
-/
namespace StandaloneMm.Rehearsal

variable {ω : Type}

inductive Act where
  | none
  | reverse
  | invert
  /-- Lays data over the start of the body. -/
  | put (data : Bytes)
  /-- Writes data to an address, inside the body or not. -/
  | raw (base : Nat) (data : Bytes)
  | event (registers : Registers)
  | operations (list : List Operation)
  /-- Aggregates error sources; the result is the aggregator's own. -/
  | aggregate (published : Except Error (List ErrorSource.Provider))

structure HandlerScript where
  recipient : Guid
  act : Act
  result : Except Error Unit := .ok ()

/-- The two ways from a handler back into what is waiting for it. -/
structure Reentry (ω : Type) where
  handleEvent : Registers → Machine ω → Registers × Machine ω
  perform : List Operation → Machine ω → List (Answer × List Event) × Machine ω

def Reentry.none : Reentry ω where
  handleEvent := fun _ m => ({}, m)
  perform := fun _ m => ([], m)

def aggregator (published : Except Error (List ErrorSource.Provider)) : Handler ω := fun span m =>
  let outcome := ErrorSource.aggregate published (m.memory.loadSpan span)
  (outcome.result,
    { m with memory := m.memory.store span.base outcome.body }.append outcome.events)

def HandlerScript.handler (s : HandlerScript) (again : Reentry ω) : Handler ω :=
  match s.act with
  | .none => Handler.onBody fun body => (s.result, body)
  | .reverse => Handler.onBody fun body => (s.result, body.reverse)
  | .invert => Handler.onBody fun body => (s.result, body.map (~~~ ·))
  | .put data => Handler.onBody fun body => (s.result, overlay body data)
  | .raw base data => fun _ m => (s.result, { m with memory := m.memory.store base data })
  | .event registers => fun _ m =>
    let (completion, m) := again.handleEvent registers m
    (s.result, m.record (.completion completion))
  | .operations list => fun _ m =>
    let (entries, m) := again.perform list m
    (s.result, m.record (.nested entries))
  | .aggregate published => aggregator published

/-- Registers handlers in order, with the result of each registration. A refused one changes
nothing. -/
def enroll (again : Reentry ω) : List HandlerScript → Registry (Handler ω) →
    List (Except Error Unit) × Registry (Handler ω)
  | [], registry => ([], registry)
  | script :: rest, registry =>
    match registry.register script.recipient (script.handler again) with
    | .ok more =>
      let (results, final) := enroll again rest more
      (.ok () :: results, final)
    | .error e =>
      let (results, final) := enroll again rest registry
      (.error e :: results, final)

/-- A provider that reports and writes the same things each time. What it writes is cut to the
buffer, and unless told otherwise it reports the length of that. -/
def provider (probe : ErrorSource.Report) (data : Bytes) (length : Option UInt64)
    (count : UInt64) (result : Except Error Unit) : ErrorSource.Provider where
  probe := probe
  fill := fun room =>
    let copied := UInt64.ofNat (min data.length room.length)
    (overlay room data, ⟨⟨length.getD copied, count⟩, result⟩)

/-- The partition's event loop when its handlers can enter it again, at most `depth` deep. Below
that no handler is registered, which is never seen: a handler runs only while the partition is
serving, and then every other event is denied before a handler is looked up. -/
def reentrantLoop (abi : PartitionAbi) (buffer : SharedBuffer) (scripts : List HandlerScript)
    (perform : EventLoop ω → List Operation → Machine ω →
      List (Answer × List Event) × Machine ω) : (depth : Nat) → EventLoop ω
  | 0 => ⟨abi, buffer, {}⟩
  | depth + 1 =>
    let inner := reentrantLoop abi buffer scripts perform depth
    ⟨abi, buffer, (enroll ⟨inner.handleEvent, perform inner⟩ scripts {}).2⟩

end StandaloneMm.Rehearsal
