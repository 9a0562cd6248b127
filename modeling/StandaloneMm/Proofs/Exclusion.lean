import StandaloneMm.Proofs.Delegation
import StandaloneMm.Proofs.Records

/-! Handlers that enter the event loop they are run by. Whatever such a handler does between two of
its events and in answer to them, it is alone: each of its events is denied at once, and what it
leaves behind is what it would leave behind without them. -/
namespace StandaloneMm

open Journal

variable {α σ : Type}

/-- A journal without the events that were handled inside a handler. -/
def Journal.outer (journal : List Event) : List Event :=
  journal.filter fun
    | .completion _ => false
    | _ => true

theorem Journal.Notes.not_completion {events : List Event} (notes : Notes events) (completion : Registers) :
    .completion completion ∉ events := fun member => notes _ member

theorem Journal.Notes.outer {events : List Event} (notes : Notes events) : outer events = events := by
  refine List.filter_eq_self.mpr fun event member => ?_
  have note := notes event member
  cases event <;> simp_all

/-- A stretch of a run without calls, in which at most one handler was entered and each event inside
it denied. -/
structure Alone (denial : Registers) (events : List Event) : Prop where
  denied : ∀ completion, .completion completion ∈ events → completion = denial
  entered : (invocations events).length ≤ 1
  traffic : traffic events = []

namespace Alone

variable {denial : Registers} {events notes : List Event}

theorem of_notes (noted : Notes notes) : Alone denial notes where
  denied completion member := absurd member (noted.not_completion completion)
  entered := by simp [noted.quiet.2]
  traffic := noted.traffic

theorem thenNotes (alone : Alone denial events) (noted : Notes notes) : Alone denial (events ++ notes) where
  denied completion member :=
    alone.denied completion ((List.mem_append.mp member).resolve_right (noted.not_completion completion))
  entered := by simpa [noted.quiet.2] using alone.entered
  traffic := by rw [traffic_append, alone.traffic, noted.traffic, List.append_nil]

end Alone

/-- What a handler can reach: memory, and a state of its own. -/
structure View (σ : Type) where
  memory : Memory
  own : σ

namespace Machine

def view (m : Machine (α × σ)) : View σ := ⟨m.memory, m.rest.2⟩

def withView (m : Machine (α × σ)) (v : View σ) : Machine (α × σ) :=
  { m with memory := v.memory, rest := (m.rest.1, v.own) }

end Machine

/-- A handler's work, step by step. Between the steps it can log, and enter the event loop with any
registers; how it goes on may depend on all that it has seen. -/
inductive Program (σ : Type) where
  | finish (result : Except Error Unit)
  | work (step : View σ → View σ) (next : View σ → Program σ)
  | log (level : Level) (target : Target) (next : Program σ)
  | event (registers : Registers) (next : Registers → Program σ)

namespace Program

/-- Runs a program. Its events go the way they are given, and their completions are on record. -/
def run (way : Registers → Machine (α × σ) → Registers × Machine (α × σ)) :
    Program σ → Machine (α × σ) → Except Error Unit × Machine (α × σ)
  | finish result, m => (result, m)
  | work step next, m => (next (step m.view)).run way (m.withView (step m.view))
  | log level target next, m => next.run way (m.log level target)
  | event registers next, m =>
    let (completion, m) := way registers m
    (next completion).run way (m.record (.completion completion))

/-- What a program comes to if all its events are completed alike, and nothing else comes of them. -/
def outcome (denial : Registers) : Program σ → View σ → Except Error Unit × View σ
  | finish result, v => (result, v)
  | work step next, v => (next (step v)).outcome denial (step v)
  | log _ _ next, v => next.outcome denial v
  | event _ next, v => (next denial).outcome denial v

def records (denial : Registers) : Program σ → View σ → List Event
  | finish _, _ => []
  | work step next, v => (next (step v)).records denial (step v)
  | log level target next, v => .log level target :: next.records denial v
  | event _ next, v => .completion denial :: (next denial).records denial v

/-- The program that goes on where the other one enters the loop, as if it had been denied. -/
def silent (denial : Registers) : Program σ → Program σ
  | finish result => finish result
  | work step next => work step fun v => (next v).silent denial
  | log level target next => log level target (next.silent denial)
  | event _ next => (next denial).silent denial

variable {denial : Registers}

theorem mem_records (p : Program σ) {v : View σ} {event : Event} (member : event ∈ p.records denial v) :
    (∃ level target, event = .log level target) ∨ event = .completion denial := by
  induction p generalizing v with
  | finish result => simp [records] at member
  | work step next ih => exact ih _ member
  | log level target next ih =>
    rcases List.mem_cons.mp member with rfl | later
    · exact .inl ⟨level, target, rfl⟩
    · exact ih later
  | event registers next ih =>
    rcases List.mem_cons.mp member with rfl | later
    · exact .inr rfl
    · exact ih _ later

theorem eq_denial_of_mem_records (p : Program σ) {v : View σ} {completion : Registers}
    (made : .completion completion ∈ p.records denial v) : completion = denial := by
  rcases mem_records p made with ⟨_, _, same⟩ | same
  · contradiction
  · exact Event.completion.inj same

theorem invocations_records (p : Program σ) (v : View σ) : invocations (p.records denial v) = [] := by
  refine List.filterMap_eq_nil_iff.mpr fun event member => ?_
  rcases mem_records p member with ⟨_, _, rfl⟩ | rfl <;> rfl

theorem traffic_records (p : Program σ) (v : View σ) : traffic (p.records denial v) = [] := by
  refine List.filter_eq_nil_iff.mpr fun event member => ?_
  rcases mem_records p member with ⟨_, _, rfl⟩ | rfl <;> simp

/-- A way on which every event is denied at once while another one is being served. -/
def Denies (way : Registers → Machine (α × σ) → Registers × Machine (α × σ)) (denial : Registers) : Prop :=
  ∀ registers m, m.serving = true → way registers m = (denial, m)

/-- Inside an event it makes no difference which events a program tries, and when. -/
theorem run_of_denies {way : Registers → Machine (α × σ) → Registers × Machine (α × σ)}
    (denies : Denies way denial) (p : Program σ) {m : Machine (α × σ)} (serving : m.serving = true) :
    let (result, v) := p.outcome denial m.view
    p.run way m = (result, (m.withView v).append (p.records denial m.view)) := by
  induction p generalizing m with
  | finish result => simp [run, outcome, records, Machine.append, Machine.withView, Machine.view]
  | work step next ih => exact ih _ serving
  | log level target next ih =>
    refine (ih (m := m.log level target) serving).trans ?_
    simp [Machine.log, Machine.record, Machine.append, Machine.withView, Machine.view, records]
  | event registers next ih =>
    simp only [run, denies registers m serving]
    refine (ih denial (m := m.record (.completion denial)) serving).trans ?_
    simp [Machine.record, Machine.append, Machine.withView, Machine.view, outcome, records]

/-- A handler that is run as a program for the body it is given. -/
def handler (way : Registers → Machine (α × σ) → Registers × Machine (α × σ)) (program : Span → Program σ) :
    Handler (α × σ) := fun span m => (program span).run way m

end Program

/-- What an event comes to. -/
structure Reaction (σ : Type) where
  result : Except Error Unit
  view : View σ
  events : List Event

def Reaction.outer (r : Reaction σ) : Reaction σ := { r with events := Journal.outer r.events }

/-- A machine on which that has happened. -/
def Machine.reacted (m : Machine (α × σ)) (r : Reaction σ) : Machine (α × σ) :=
  (m.withView r.view).append r.events

namespace Dispatch

section

variable (denial : Registers) (programs : Registry (Span → Program σ))

/-- What becomes of a body that a program is entered with. -/
def entering (program : Program σ) (recipient : Guid) (body : Span) (v : View σ) : Reaction σ :=
  let (result, left) := program.outcome denial v
  ⟨settled result, left, [.log .debug .stmm, .handler recipient (v.memory.loadSpan body)] ++
    program.records denial v ++ settleRecords result⟩

/-- A dispatch as far as it depends on what handlers can reach, with all their events denied. -/
def reaction (buffer : Span) (v : View σ) : Reaction σ :=
  let content := v.memory.loadSpan buffer
  let recipient := Message.recipient content
  if Message.Whole content then
    match programs.find? recipient with
    | none => ⟨.error .notFound, v, [.log .warn .stmm]⟩
    | some program =>
      let body : Span := ⟨buffer.base + MessageHeader.size, Message.total content - MessageHeader.size⟩
      entering denial (program body) recipient body v
  else ⟨.error .invalidParameter, v, refusal content⟩

theorem reaction_of_whole {buffer : Span} {v : View σ} (whole : Message.Whole (v.memory.loadSpan buffer)) :
    let content := v.memory.loadSpan buffer
    let recipient := Message.recipient content
    let body : Span := ⟨buffer.base + MessageHeader.size, Message.total content - MessageHeader.size⟩
    reaction denial programs buffer v = match programs.find? recipient with
      | none => ⟨.error .notFound, v, [.log .warn .stmm]⟩
      | some program => entering denial (program body) recipient body v :=
  if_pos whole

theorem reaction_of_broken {buffer : Span} {v : View σ} (broken : ¬ Message.Whole (v.memory.loadSpan buffer)) :
    reaction denial programs buffer v =
      ⟨.error .invalidParameter, v, refusal (v.memory.loadSpan buffer)⟩ :=
  if_neg broken

theorem notes_settleRecords (result : Except Error Unit) : Notes (settleRecords result) := by
  unfold settleRecords
  split
  · exact notes_log
  · exact notes_nil

theorem notes_refusal (message : Bytes) : Notes (refusal message) := by
  unfold refusal
  split
  · exact notes_nil
  · exact notes_log

theorem alone_entering (program : Program σ) (recipient : Guid) (body : Span) (v : View σ) :
    Alone denial (entering denial program recipient body v).events := by
  refine Alone.thenNotes ⟨fun completion made => ?_, ?_, ?_⟩ (notes_settleRecords _)
  · rcases List.mem_append.mp made with entry | inside
    · simp at entry
    · exact Program.eq_denial_of_mem_records program inside
  · rw [invocations_append, Program.invocations_records]
    exact Nat.le_refl 1
  · rw [traffic_append, Program.traffic_records]
    rfl

theorem alone_reaction (buffer : Span) (v : View σ) :
    Alone denial (reaction denial programs buffer v).events := by
  by_cases whole : Message.Whole (v.memory.loadSpan buffer)
  case neg =>
    rw [reaction_of_broken _ _ whole]
    exact .of_notes (notes_refusal _)
  case pos =>
    rw [reaction_of_whole _ _ whole]
    cases programs.find? (Message.recipient (v.memory.loadSpan buffer)) with
    | none => exact .of_notes notes_log
    | some program => exact alone_entering ..

end

variable {denial : Registers} {way : Registers → Machine (α × σ) → Registers × Machine (α × σ)}
  {m : Machine (α × σ)}

theorem enter_program (denies : Program.Denies way denial) (program : Span → Program σ) (recipient : Guid)
    (body : Span) (serving : m.serving = true) :
    let r := entering denial (program body) recipient body m.view
    enter (Program.handler way program) recipient body m = (r.result, m.reacted r) := by
  have ran := Program.run_of_denies denies (program body)
    (m := m.append [.log .debug .stmm, .handler recipient (m.memory.loadSpan body)]) serving
  dsimp only [enter, Program.handler]
  rw [ran, settle_records]
  simp [entering, Machine.reacted, Machine.append, Machine.withView, Machine.view]

theorem dispatch_programs (denies : Program.Denies way denial) (buffer : Span)
    (programs : Registry (Span → Program σ)) (serving : m.serving = true) :
    let r := reaction denial programs buffer m.view
    dispatch (programs.map (Program.handler way)) buffer m = (r.result, m.reacted r) := by
  by_cases whole : Message.Whole (m.memory.loadSpan buffer)
  case neg =>
    rw [reaction_of_broken denial programs (v := m.view) whole]
    exact dispatch_broken _ buffer whole
  case pos =>
    have come := dispatch_whole (programs.map (Program.handler way)) buffer whole
    simp only [Registry.find?_map] at come
    rw [come, reaction_of_whole denial programs (v := m.view) whole]
    cases found : programs.find? (Message.recipient (m.memory.loadSpan buffer)) with
    | none => simp only [Machine.view, found]; rfl
    | some program =>
      simp only [Machine.view, found]
      exact enter_program denies program _ _ serving

end Dispatch

namespace EventLoop

/-- The completion of an event that is denied. -/
def denial (abi : PartitionAbi) : Registers := completion abi (UInt64.ofInt (-3))

theorem handleEvent_denies (loop : EventLoop (α × σ)) : Program.Denies loop.handleEvent (denial loop.abi) :=
  fun _ _ serving => handleEvent_of_serve loop (serve_while_serving loop serving)

/-- An event on a waiting partition, as far as it depends on what handlers can reach. -/
def reaction (abi : PartitionAbi) (buffer : SharedBuffer) (programs : Registry (Span → Program σ))
    (event : Registers) (v : View σ) : Reaction σ :=
  if namedAddress abi event = buffer.physicalBase then
    let r := Dispatch.reaction (denial abi) programs buffer.span v
    { r with events := r.events ++ serveRecords r.result }
  else ⟨.error .accessDenied, v, [.log .error .stmm]⟩

/-- The loop runs these programs, and denies their events while it runs them. -/
structure Runs (loop : EventLoop (α × σ)) (programs : Registry (Span → Program σ)) : Prop where
  handlers : ∃ way, loop.handlers = programs.map (Program.handler way) ∧ Program.Denies way (denial loop.abi)

variable {loop : EventLoop (α × σ)} {programs : Registry (Span → Program σ)} {m : Machine (α × σ)}

theorem serve_programs (runs : Runs loop programs) (event : Registers) (waiting : m.serving = false) :
    let r := reaction loop.abi loop.buffer programs event m.view
    loop.serve event m = (r.result, m.reacted r) := by
  obtain ⟨way, hosts, denies⟩ := runs
  by_cases named : namedAddress loop.abi event = loop.buffer.physicalBase
  case neg =>
    have turned : reaction loop.abi loop.buffer programs event m.view =
        ⟨.error .accessDenied, m.view, [.log .error .stmm]⟩ := if_neg named
    rw [turned]
    exact serve_elsewhere loop waiting named
  case pos =>
    let r := Dispatch.reaction (denial loop.abi) programs loop.buffer.span m.view
    have come : reaction loop.abi loop.buffer programs event m.view =
        { r with events := r.events ++ serveRecords r.result } := if_pos named
    have dispatched : Dispatch.dispatch loop.handlers loop.buffer.span { m with serving := true } =
        (r.result, Machine.reacted { m with serving := true } r) := by
      rw [hosts]
      exact Dispatch.dispatch_programs denies loop.buffer.span programs rfl
    rw [come, serve_dispatched loop waiting named dispatched]
    simp [Machine.reacted, Machine.append, Machine.withView, waiting]

theorem handleEvent_programs (runs : Runs loop programs) (event : Registers) (waiting : m.serving = false) :
    let r := reaction loop.abi loop.buffer programs event m.view
    loop.handleEvent event m = (completion loop.abi (statusOf r.result).register, m.reacted r) :=
  handleEvent_of_serve loop (serve_programs runs event waiting)

theorem notes_serveRecords (result : Except Error Unit) : Notes (serveRecords result) := by
  cases result with
  | ok value => exact notes_nil
  | error e => exact notes_log

theorem alone_reaction (abi : PartitionAbi) (buffer : SharedBuffer) (programs : Registry (Span → Program σ))
    (event : Registers) (v : View σ) : Alone (denial abi) (reaction abi buffer programs event v).events := by
  unfold reaction
  split
  · exact (Dispatch.alone_reaction ..).thenNotes (notes_serveRecords _)
  · exact .of_notes notes_log

/-- An event whose handler enters the loop, beside the same event with a handler that does not. -/
structure Undisturbed (denial : Registers) (m : Machine (α × σ))
    (disturbed silent : Registers × Machine (α × σ)) : Prop where
  completion : disturbed.1 = silent.1
  machine : { disturbed.2 with journal := [] } = { silent.2 with journal := [] }
  journal : ∃ events, Alone denial events ∧ disturbed.2.journal = m.journal ++ events ∧
    silent.2.journal = m.journal ++ outer events

theorem handleEvent_of_runs (runs : Runs loop programs) (other : EventLoop (α × σ)) (abi : other.abi = loop.abi)
    (buffer : other.buffer = loop.buffer) (others : Runs other programs) :
    other.handleEvent = loop.handleEvent := by
  funext event m
  cases inside : m.serving with
  | true => rw [handleEvent_denies other event m inside, handleEvent_denies loop event m inside, abi]
  | false => rw [handleEvent_programs others event inside, handleEvent_programs runs event inside, abi, buffer]

section

variable (abi : PartitionAbi) (buffer : SharedBuffer) (programs : Registry (Span → Program σ))

/-- The loop whose handlers enter it again, at most `depth` deep. Below that no handler is registered,
and none is missed: whoever enters the loop from inside a handler is denied. -/
def reentrant : (depth : Nat) → EventLoop (α × σ)
  | 0 => ⟨abi, buffer, {}⟩
  | depth + 1 => ⟨abi, buffer, programs.map (Program.handler (reentrant depth).handleEvent)⟩

theorem abi_reentrant (depth : Nat) : (reentrant abi buffer programs depth : EventLoop (α × σ)).abi = abi := by
  cases depth <;> rfl

theorem buffer_reentrant (depth : Nat) :
    (reentrant abi buffer programs depth : EventLoop (α × σ)).buffer = buffer := by
  cases depth <;> rfl

theorem reentrant_runs (depth : Nat) :
    Runs (reentrant abi buffer programs (depth + 1) : EventLoop (α × σ)) programs := by
  have denies := handleEvent_denies (reentrant abi buffer programs depth : EventLoop (α × σ))
  rw [abi_reentrant] at denies
  exact ⟨_, rfl, denies⟩

theorem handleEvent_reentrant (depth : Nat) :
    (reentrant abi buffer programs (depth + 2) : EventLoop (α × σ)).handleEvent =
      (reentrant abi buffer programs (depth + 1)).handleEvent :=
  handleEvent_of_runs (reentrant_runs abi buffer programs depth) _
    (by rw [abi_reentrant, abi_reentrant]) (by rw [buffer_reentrant, buffer_reentrant])
    (reentrant_runs abi buffer programs (depth + 1))

/-- Two levels are as good as any number: the handlers enter the very loop that runs them. -/
theorem handlers_reentrant (depth : Nat) : (reentrant abi buffer programs (depth + 2) : EventLoop (α × σ)).handlers =
    programs.map (Program.handler (reentrant abi buffer programs (depth + 2)).handleEvent) := by
  rw [handleEvent_reentrant]
  rfl

end

/-- A handler that enters the loop with the event it is serving, marks its body if it is denied, and fails. -/
def insistent : Registry (Span → Program Unit) :=
  ⟨[(⟨1, 2, 3, 4⟩, fun body => .event { x1 := 0x1000 } fun completion =>
    .work (fun v => { v with memory := v.memory.store body.base [UInt8.ofNat completion.x1.toNat] })
      fun _ => .finish (.error .outOfResources))]⟩

end EventLoop

end StandaloneMm
