import StandaloneMm.Proofs.Reentry
import StandaloneMm.Proofs.RoundTrip

/-! Milestones in the middle of a session's work: the boot environment ends, or the address space changes
and the buffer has no new place in it. All that a session can lose by one is its scratch pages, and no
exchange looks at those, so whatever else is done comes to the same as if there had been none. -/
namespace StandaloneMm

open Journal

variable {ω : Type}

/-- A converter that leaves an address where it is: it fails, it knows no mapping, or it gives the null
address. -/
def Converter.Stays (convert : Converter) (address : UInt64) : Prop :=
  ∀ place, convert address = .ok (some place) → place = 0

theorem SharedBuffer.remap_stays {convert : Converter} {b : SharedBuffer}
    (stays : b.mode = .physical → Converter.Stays convert b.currentBase) :
    ∃ events, Quiet events ∧ b.remap convert = (b, events) := by
  rcases remap_cases convert b with ⟨_, still⟩ | ⟨_, _, _, still⟩ | ⟨place, physical, maps, nonzero, _⟩
  · exact ⟨_, quiet_log .., still⟩
  · exact ⟨_, ⟨rfl, rfl⟩, still⟩
  · exact absurd (stays physical place maps) nonzero

theorem Lifecycle.remapBuffer_stays {convert : Converter} {m : Machine ω}
    (stays : m.session.buffer.mode = .physical → Converter.Stays convert m.session.buffer.currentBase) :
    ∃ events, Quiet events ∧ remapBuffer convert m = m.append events := by
  unfold remapBuffer
  split
  · exact ⟨_, quiet_log .., rfl⟩
  · obtain ⟨events, quiet, stayed⟩ := SharedBuffer.remap_stays stays
    rw [stayed]
    exact ⟨events, quiet, rfl⟩

/-- The machine when its directory has no pages any more, with what the manager then has of them and with
these calls on its list. -/
def Machine.relieved (m : Machine ω) (d : Directory) (scratch : Option ScratchPages) (calls : List UInt64) :
    Machine ω :=
  { m with
    session := { m.session with directory := some { d with pages := none } }
    manager := { m.manager with scratch := scratch, calls := calls } }

@[simp] theorem Machine.memory_relieved (m : Machine ω) (d : Directory) (scratch : Option ScratchPages)
    (calls : List UInt64) : (m.relieved d scratch calls).memory = m.memory := rfl

/-- The second machine is the first one but for its scratch pages, which one call has taken back. Before it
the manager had been called so often on both. -/
structure Relieved (d : Directory) (scratch : Option ScratchPages) (before : List UInt64)
    (a b : Machine ω) : Prop where
  same : ∃ later, a.manager.calls = before ++ later ∧
    b = a.relieved d scratch (before ++ FunctionId.ffaRxtxUnmap :: later)

section

variable {d : Directory} {scratch : Option ScratchPages} {before : List UInt64} {a b : Machine ω}

namespace Relieved

theorem change (start : Relieved d scratch before a b) (f : Machine ω → Machine ω)
    (calls : ∀ m, (f m).manager.calls = m.manager.calls)
    (apart : ∀ m calls, f (m.relieved d scratch calls) = (f m).relieved d scratch calls) :
    Relieved d scratch before (f a) (f b) := by
  obtain ⟨later, listed, rfl⟩ := start
  exact ⟨later, (calls a).trans listed, apart a _⟩

theorem append (start : Relieved d scratch before a b) (events : List Event) :
    Relieved d scratch before (a.append events) (b.append events) :=
  start.change (·.append events) (fun _ => rfl) fun _ _ => rfl

theorem serving (start : Relieved d scratch before a b) : b.serving = a.serving := by
  obtain ⟨_, _, rfl⟩ := start
  rfl

theorem journal (start : Relieved d scratch before a b) : b.journal = a.journal := by
  obtain ⟨_, _, rfl⟩ := start
  rfl

theorem session (start : Relieved d scratch before a b) : b.session.route = a.session.route ∧
    b.session.buffer = a.session.buffer ∧ b.session.inUse = a.session.inUse := by
  obtain ⟨_, _, rfl⟩ := start
  exact ⟨rfl, rfl, rfl⟩

end Relieved

theorem Dispatch.dispatch_relieved (handlers : Registry (BodyHandler ω)) (buffer : Span)
    (start : Relieved d scratch before a b) :
    Alongside (Relieved d scratch before) (dispatch (handlers.map BodyHandler.handler) buffer a)
      (dispatch (handlers.map BodyHandler.handler) buffer b) := by
  obtain ⟨later, calls, rfl⟩ := start
  simp only [dispatch, Machine.memory_relieved, Registry.find?_map]
  split
  · exact ⟨rfl, later, calls, rfl⟩
  split
  · exact ⟨rfl, later, calls, rfl⟩
  cases handlers.find? _ with
  | none => exact ⟨rfl, later, calls, rfl⟩
  | some h =>
    simp only [Option.map_some, enter, BodyHandler.handler, settle_records]
    exact ⟨rfl, later, calls, rfl⟩

open EventLoop (ofBodyHandlers)

variable (abi : PartitionAbi) (base length : UInt64) (handlers : Registry (BodyHandler ω))

theorem EventLoop.serve_relieved (event : Registers) (start : Relieved d scratch before a b) :
    Alongside (Relieved d scratch before) ((ofBodyHandlers abi base length handlers).serve event a)
      ((ofBodyHandlers abi base length handlers).serve event b) := by
  have marked {m m' : Machine ω} (start : Relieved d scratch before m m') (serving : Bool) :
      Relieved d scratch before { m with serving := serving } { m' with serving := serving } :=
    start.change (fun m => { m with serving := serving }) (fun _ => rfl) fun _ _ => rfl
  obtain ⟨result, m, m', first, second, dispatched⟩ := (Dispatch.dispatch_relieved handlers
    (ofBodyHandlers abi base length handlers).buffer.span (marked start true)).results
  unfold serve
  rw [start.serving]
  split
  · exact ⟨rfl, start⟩
  split
  · exact ⟨rfl, start.append _⟩
  rw [show (ofBodyHandlers abi base length handlers).handlers = handlers.map BodyHandler.handler from rfl,
    first, second]
  cases result with
  | ok _ => exact ⟨rfl, marked dispatched false⟩
  | error _ => exact ⟨rfl, (marked dispatched false).append _⟩

theorem EventLoop.handleEvent_relieved (event : Registers) (start : Relieved d scratch before a b) :
    Alongside (Relieved d scratch before) ((ofBodyHandlers abi base length handlers).handleEvent event a)
      ((ofBodyHandlers abi base length handlers).handleEvent event b) := by
  obtain ⟨result, m, m', first, second, served⟩ :=
    (serve_relieved abi base length handlers event start).results
  rw [handleEvent_of_serve _ first, handleEvent_of_serve _ second]
  exact ⟨rfl, served⟩

namespace Manager

theorem deliver_relieved (response : Registers) (start : Relieved d scratch before a b) :
    Alongside (Relieved d scratch before) (onManager a (deliver response))
      (onManager b (deliver response)) := by
  obtain ⟨later, calls, rfl⟩ := start
  simp only [onManager, deliver, Machine.relieved]
  split
  · exact ⟨rfl, later, calls, rfl⟩
  · exact ⟨rfl, later, calls, rfl⟩

theorem resume_relieved (call : Registers) (start : Relieved d scratch before a b) :
    Alongside (Relieved d scratch before) (onManager a (resume call)) (onManager b (resume call)) := by
  obtain ⟨later, calls, rfl⟩ := start
  simp only [onManager, resume, Machine.relieved]
  split
  · exact ⟨rfl, later, calls, rfl⟩
  split
  · exact ⟨rfl, later, calls, rfl⟩
  split
  · exact ⟨rfl, later, calls, rfl⟩
  · exact ⟨rfl, later, calls, rfl⟩

/-- The calls of a session about its messages concern no pages. -/
inductive Message : Registers → Prop where
  | request (route : Route) (base : UInt64) : Message (Delivery.request route base)
  | resume (remote : PartitionDescriptor) : Message (Delivery.resumeRequest remote)

theorem directRequest_relieved (call : Registers) (start : Relieved d scratch before a b) :
    Alongside (Relieved d scratch before) (directRequest (ofBodyHandlers abi base length handlers) call a)
      (directRequest (ofBodyHandlers abi base length handlers) call b) := by
  unfold directRequest
  split
  · exact ⟨rfl, start⟩
  · obtain ⟨completion, m, m', first, second, handled⟩ := (EventLoop.handleEvent_relieved abi base length
      handlers { x0 := FunctionId.ffaDirectRequest, x1 := call.x1, x3 := call.x3 } start).results
    dsimp only
    rw [first, second]
    exact deliver_relieved (response completion) handled

theorem communicate_relieved (call : Registers) (start : Relieved d scratch before a b) :
    Alongside (Relieved d scratch before) (communicate (ofBodyHandlers abi base length handlers) call a)
      (communicate (ofBodyHandlers abi base length handlers) call b) := by
  obtain ⟨completion, m, m', first, second, handled⟩ := (EventLoop.handleEvent_relieved abi base length
    handlers { x0 := FunctionId.mmCommunicate, x1 := call.x2 } start).results
  simp only [communicate, first, second]
  exact ⟨rfl, handled⟩

theorem handle_relieved {call : Registers} (message : Message call) (start : Relieved d scratch before a b) :
    Alongside (Relieved d scratch before) (handle (ofBodyHandlers abi base length handlers) call a)
      (handle (ofBodyHandlers abi base length handlers) call b) := by
  let entered (m : Machine ω) : Machine ω := { m with manager := listed m.manager call }
  have listed : Relieved d scratch before (entered a) (entered b) := by
    obtain ⟨later, calls, rfl⟩ := start
    refine ⟨later ++ [call.x0], ?_, ?_⟩
    · simp [entered, Manager.listed, calls]
    · simp [entered, Manager.listed, Machine.relieved]
  cases message with
  | resume remote => exact resume_relieved _ listed
  | request route physicalBase =>
    cases route with
    | legacy => exact communicate_relieved abi base length handlers _ listed
    | direct localId remote => exact directRequest_relieved abi base length handlers _ listed

theorem agrees_relieved : (monitor (ofBodyHandlers abi base length handlers)).Agrees
    (monitor (ofBodyHandlers abi base length handlers)) Message (Relieved d scratch before) where
  noted _ start := start.append _
  trap {a b call} message start := by
    obtain ⟨answers, handled⟩ :=
      handle_relieved abi base length handlers message (start.append [.call call])
    have returned := handled.append [.ret (handle (ofBodyHandlers abi base length handlers) call
      (b.append [.call call])).1]
    simp only [Machine.trap, Machine.record, monitor, answers]
    exact ⟨rfl, returned⟩
  patience start := by
    obtain ⟨_, _, rfl⟩ := start
    rfl

end Manager

namespace Transport

open Admission Delivery

theorem concluded_relieved (route : Route) (message : Bytes) (total : Nat) (answer : Registers)
    (start : Relieved d scratch before a b) :
    Alongside (Relieved d scratch before) (concluded route message total answer a)
      (concluded route message total answer b) := by
  obtain ⟨later, calls, rfl⟩ := start
  unfold concluded
  split
  · exact ⟨rfl, later, calls, rfl⟩
  · exact ⟨rfl, later, calls, rfl⟩

theorem carries_relieved : Channel.Carries
    (communicate (Manager.monitor (ofBodyHandlers abi base length handlers)))
    (Relieved d scratch before) := by
  intro message capacity a b start
  obtain ⟨route, buffer, inUse⟩ := start.session
  cases screened : screen a.session.buffer.length message capacity with
  | error refusal =>
    rw [communicate_refused screened, communicate_refused (buffer ▸ screened), buffer]
    exact ⟨rfl, start.append _⟩
  | ok total =>
    by_cases held : a.session.inUse = true
    · rw [communicate_denied screened held, communicate_denied (buffer ▸ screened) (inUse.trans held)]
      exact ⟨rfl, (start.append _).append _⟩
    · obtain ⟨header, admitted, rfl⟩ := screen_eq_ok_iff.mp screened
      have free := Bool.eq_false_iff.mpr held
      have begun : Relieved d scratch before (offered message capacity header.total a)
          (offered message capacity header.total b) :=
        start.change (offered message capacity header.total) (fun _ => rfl) fun _ _ => rfl
      obtain ⟨answer, m, m', first, second, ended⟩ :=
        ((Manager.agrees_relieved abi base length handlers).callRemote
          (.request a.session.route a.session.buffer.physicalBase) .resume begun).results
      have answered : answered (Manager.monitor (ofBodyHandlers abi base length handlers)) message capacity
          header.total b = (answer, m') := by
        rw [← second, Transport.answered, route, buffer]
      obtain ⟨result, m, m', first', second', concludes⟩ :=
        (concluded_relieved a.session.route message header.total answer ended).results
      rw [communicate_answered admitted free first,
        communicate_answered (buffer ▸ admitted) (inUse.trans free) answered, route, first', second']
      exact ⟨rfl, concludes⟩

end Transport

theorem Lifecycle.remapBuffer_relieved (convert : Converter) (start : Relieved d scratch before a b) :
    Relieved d scratch before (remapBuffer convert a) (remapBuffer convert b) := by
  obtain ⟨_, buffer, inUse⟩ := start.session
  obtain ⟨later, calls, rfl⟩ := start
  unfold remapBuffer
  rw [inUse, buffer]
  split
  · exact ⟨later, calls, rfl⟩
  · exact ⟨later, calls, rfl⟩

theorem Contender.perform_relieved (contender : Contender) (start : Relieved d scratch before a b) :
    Alongside (Relieved d scratch before)
      (contender.operation.perform (Manager.monitor (ofBodyHandlers abi base length handlers)) a)
      (contender.operation.perform (Manager.monitor (ofBodyHandlers abi base length handlers)) b) := by
  have carries : Channel.Carries
      (Transport.communicate (Manager.monitor (ofBodyHandlers abi base length handlers)))
      (Relieved d scratch before) := Transport.carries_relieved abi base length handlers
  cases contender with
  | communicate message capacity =>
    obtain ⟨answer, machines⟩ := carries message capacity start
    exact ⟨congrArg Answer.exchanged answer, machines⟩
  | errand e =>
    have noted : NotedAlike (Relieved (ω := ω) d scratch before) := fun _ start => start.append _
    have ran := e.run_alongside noted carries start
    exact ran
  | remap convert => exact ⟨rfl, Lifecycle.remapBuffer_relieved convert start⟩

theorem Contender.observe_relieved (contender : Contender) (start : Relieved d scratch before a b) :
    Alongside (Relieved d scratch before)
      (a.observe (contender.operation.perform (Manager.monitor (ofBodyHandlers abi base length handlers))))
      (b.observe (contender.operation.perform (Manager.monitor (ofBodyHandlers abi base length handlers)))) := by
  have fresh : Relieved d scratch before { a with journal := [] } { b with journal := [] } :=
    start.change (fun m => { m with journal := [] }) (fun _ => rfl) fun _ _ => rfl
  obtain ⟨answer, m, m', first, second, later, calls, rfl⟩ :=
    (contender.perform_relieved abi base length handlers fresh).results
  simp only [Machine.observe, first, second, start.journal]
  exact ⟨rfl, later, calls, rfl⟩

end

section

variable {m : Machine ω} {d : Directory}

theorem Lifecycle.exitBootServices_spent (monitor : Monitor ω)
    (spent : ∀ d, m.session.directory = some d → d.pages = none) :
    ∃ events, Notes events ∧ exitBootServices monitor m = m.append events := by
  unfold exitBootServices
  split
  · exact ⟨[], notes_nil, by simp [Machine.append]⟩
  next d held =>
    have gone : ({ d with pages := none } : Directory) = d := by rw [← spent d held]
    refine ⟨[.log .info .mmComm], notes_log, ?_⟩
    simp only [Discovery.release, spent d held]
    rw [← spent d held, ← held]
    rfl

theorem Manager.trap_unmap (loop : EventLoop ω) (localId : UInt16) (m : Machine ω) :
    let call := Discovery.unmapRequest localId
    ∃ answer scratch, m.trap (monitor loop) call = (answer,
      { m with manager := { listed m.manager call with scratch := scratch } }.append
        [.call call, .ret answer]) := by
  intro call
  obtain ⟨answer, scratch, unmapped⟩ : ∃ answer scratch, unmapPages call (listed m.manager call) =
      (answer, { listed m.manager call with scratch := scratch }) := by
    unfold unmapPages
    split
    · exact ⟨_, none, rfl⟩
    · exact ⟨_, _, rfl⟩
  have known : Call.ofId? call.x0 = some .unmap := rfl
  have handled (m : Machine ω) :
      handle loop call m = onManager m fun s => unmapPages call (listed s call) := by
    simp only [handle, Manager.answer, known, onManager, listed]
  refine ⟨answer, scratch, ?_⟩
  simp only [Machine.trap, monitor, handled, onManager, Machine.record, Machine.append, unmapped,
    List.append_assoc, List.cons_append, List.nil_append]

theorem Lifecycle.exitBootServices_lent (loop : EventLoop ω) {pages : ScratchPages}
    (held : m.session.directory = some d) (lent : d.pages = some pages) : ∃ scratch events,
      calls events = [Discovery.unmapRequest d.localId] ∧ invocations events = [] ∧
      exitBootServices (Manager.monitor loop) m =
        (m.relieved d scratch (m.manager.calls ++ [FunctionId.ffaRxtxUnmap])).append events := by
  let marked := { m with session := { m.session with directory := some { d with pages := none } } }.log
    .info .mmComm
  obtain ⟨answer, scratch, trapped⟩ := Manager.trap_unmap loop d.localId marked
  refine ⟨scratch, [.log .info .mmComm, .call (Discovery.unmapRequest d.localId), .ret answer,
    .log (if Discovery.refused answer then .error else .debug) .ffa], rfl, rfl, ?_⟩
  simp only [exitBootServices, held, Discovery.release, lent]
  rw [trapped]
  simp [marked, Machine.relieved, Machine.append, Machine.log, Machine.record, Manager.listed,
    Discovery.unmapRequest]

end

/-- What happens to a session while it is in use: something is asked of it, the boot environment ends, or
the address space changes. -/
inductive Step where
  | asked (contender : Contender)
  | exitBootServices
  | addressChange (convert : Converter)

namespace Step

def operation : Step → Operation
  | asked contender => contender.operation
  | exitBootServices => .exitBootServices
  | addressChange convert => .remap convert

def isAsked : Step → Bool
  | asked _ => true
  | exitBootServices | addressChange _ => false

/-- The entries of those steps that something was asked in, or of the others. -/
def entries {η : Type} (asked : Bool) (steps : List Step) (all : List η) : List η :=
  ((steps.zip all).filter (·.1.isAsked = asked)).map Prod.snd

section

variable {η : Type} {asked : Bool} {step : Step} (steps : List Step) (entry : η) (all : List η)

theorem entries_cons_of (kind : step.isAsked = asked) :
    entries asked (step :: steps) (entry :: all) = entry :: entries asked steps all := by
  simp [entries, kind]

theorem entries_cons_of_not (kind : step.isAsked ≠ asked) :
    entries asked (step :: steps) (entry :: all) = entries asked steps all := by
  simp [entries, kind]

end

end Step

/-- Two machines that the same was asked of, where these further calls were made on the second one. -/
inductive Beside : List Registers → Machine ω → Machine ω → Prop where
  | same (m : Machine ω) : Beside [] m m
  | relieved {d : Directory} {scratch : Option ScratchPages} {before : List UInt64} {a b : Machine ω}
      (relieved : Relieved d scratch before a b) : Beside [Discovery.unmapRequest d.localId] a b

namespace Beside

variable {made : List Registers} {a b : Machine ω}

theorem further (beside : Beside made a b) : made.length ≤ 1 ∧ (∀ call ∈ made, ∃ d,
    b.session.directory = some d ∧ call = Discovery.unmapRequest d.localId) ∧
    ∃ before after, a.manager.calls = before ++ after ∧
      b.manager.calls = before ++ made.map (·.x0) ++ after := by
  cases beside with
  | same => exact ⟨Nat.zero_le 1, nofun, [], a.manager.calls, rfl, rfl⟩
  | @relieved d scratch before _ _ relieved =>
    obtain ⟨later, calls, rfl⟩ := relieved
    refine ⟨Nat.le_refl 1, fun call member => ⟨_, rfl, List.mem_singleton.mp member⟩,
      before, later, calls, ?_⟩
    simp [Machine.relieved, Discovery.unmapRequest]

theorem shared (beside : Beside made a b) : b.memory = a.memory ∧ b.rest = a.rest ∧
    b.session = { a.session with directory := b.session.directory } := by
  cases beside with
  | same => exact ⟨rfl, rfl, rfl⟩
  | relieved relieved =>
    obtain ⟨_, _, rfl⟩ := relieved
    exact ⟨rfl, rfl, rfl⟩

end Beside

section

open EventLoop (ofBodyHandlers)
open Transport (inverting)

variable (abi : PartitionAbi) (base length : UInt64) (handlers : Registry (BodyHandler ω))
  {made : List Registers} {a b : Machine ω}

theorem Step.observe_asked {step : Step} (asked : step.isAsked = true) (start : Beside made a b) :
    Alongside (Beside made)
      (a.observe (step.operation.perform (Manager.monitor (ofBodyHandlers abi base length handlers))))
      (b.observe (step.operation.perform (Manager.monitor (ofBodyHandlers abi base length handlers)))) := by
  cases step with
  | exitBootServices | addressChange _ => simp [isAsked] at asked
  | asked contender =>
    cases start with
    | same => exact ⟨rfl, .same _⟩
    | relieved start =>
      obtain ⟨answers, machines⟩ := contender.observe_relieved abi base length handlers start
      exact ⟨answers, .relieved machines⟩

theorem Step.observe_milestone {step : Step} (milestone : step.isAsked = false)
    (stays : ∀ convert, step = .addressChange convert → b.session.buffer.mode = .physical →
      Converter.Stays convert b.session.buffer.currentBase) (start : Beside made a b) :
    ∃ answer events after, b.observe (step.operation.perform
        (Manager.monitor (ofBodyHandlers abi base length handlers))) = ((answer, events), after) ∧
      invocations events = [] ∧ Beside (made ++ calls events) a after := by
  have idle {events : List Event} (quiet : Quiet events) : Beside (made ++ calls events) a b := by
    rw [quiet.1, List.append_nil]
    exact start
  cases step with
  | asked contender => simp [isAsked] at milestone
  | addressChange convert =>
    obtain ⟨events, quiet, stayed⟩ :=
      Lifecycle.remapBuffer_stays (m := { b with journal := [] }) (stays convert rfl)
    refine ⟨_, events, b, Machine.observe_append (congrArg _ stayed), quiet.2, idle quiet⟩
  | exitBootServices =>
    by_cases spent : ∀ d, b.session.directory = some d → d.pages = none
    · obtain ⟨events, notes, noted⟩ := Lifecycle.exitBootServices_spent (m := { b with journal := [] })
        (Manager.monitor (ofBodyHandlers abi base length handlers)) spent
      have ran := congrArg (fun m : Machine ω => (Answer.mapped m.session.mapped, m)) noted
      exact ⟨_, events, b, Machine.observe_append ran, notes.quiet.2, idle notes.quiet⟩
    · obtain ⟨d, held⟩ := Classical.not_forall.mp spent
      obtain ⟨held, lent⟩ := Classical.not_imp.mp held
      obtain ⟨pages, lent⟩ := Option.ne_none_iff_exists'.mp lent
      cases start with
      | relieved start =>
        obtain ⟨_, _, rfl⟩ := start
        cases held
        cases lent
      | same =>
        obtain ⟨scratch, events, unmapped, silent, ended⟩ := Lifecycle.exitBootServices_lent
          (m := { a with journal := [] }) (ofBodyHandlers abi base length handlers) held lent
        refine ⟨.mapped false, events, a.relieved d scratch (a.manager.calls ++ [FunctionId.ffaRxtxUnmap]),
          ?_, silent, ?_⟩
        · simp only [operation, Operation.perform, Machine.observe, ended]
          rfl
        · rw [unmapped]
          exact .relieved ⟨[], (List.append_nil _).symm, rfl⟩

/-- A run of steps beside the run of those alone that something was asked in. -/
structure Interspersed (made : List Registers) (steps : List Step)
    (run plain : List (Answer × List Event) × Machine ω) : Prop where
  asked : Step.entries true steps run.1 = plain.1
  silent : ∀ entry ∈ Step.entries false steps run.1, invocations entry.2 = []
  beside : Beside (made ++ (Step.entries false steps run.1).flatMap (calls ·.2)) plain.2 run.2

theorem Operation.performAll_beside {buffer : SharedBuffer} (steps : List Step)
    (stays : ∀ convert, Step.addressChange convert ∈ steps → Converter.Stays convert buffer.currentBase)
    (linked : Linked buffer b) (start : Beside made a b) :
    let monitor := Manager.monitor (ofBodyHandlers abi base length handlers)
    Interspersed made steps (performAll monitor (steps.map Step.operation) b)
      (performAll monitor ((steps.filter Step.isAsked).map Step.operation) a) := by
  intro monitor
  induction steps generalizing a b made with
  | nil =>
    refine ⟨rfl, nofun, ?_⟩
    rw [show Step.entries false [] _ = [] from rfl, List.flatMap_nil, List.append_nil]
    exact start
  | cons step rest ih =>
    have fresh : Linked buffer { b with journal := [] } := Linked.unjournaled buffer b [] linked
    have next : Linked buffer (b.observe (step.operation.perform monitor)).2 :=
      Linked.unjournaled buffer _ b.journal (fresh.perform step.operation)
    have later convert (member : Step.addressChange convert ∈ rest) := stays convert (.tail _ member)
    by_cases kind : step.isAsked = true
    · obtain ⟨entry, m, m', first, second, ended⟩ :=
        (Step.observe_asked abi base length handlers kind start).results
      rw [second] at next
      obtain ⟨asked, silent, beside⟩ := ih later next ended
      rw [List.filter_cons_of_pos kind, List.map_cons, List.map_cons, performAll_cons second,
        performAll_cons first]
      refine ⟨?_, ?_, ?_⟩
      · rw [Step.entries_cons_of _ _ _ kind, asked]
      · rw [Step.entries_cons_of_not _ _ _ (by simp [kind])]
        exact silent
      · rw [Step.entries_cons_of_not _ _ _ (by simp [kind])]
        exact beside
    · have other : step.isAsked = false := Bool.eq_false_iff.mpr kind
      have stays convert (change : step = .addressChange convert)
          (physical : b.session.buffer.mode = .physical) :
          Converter.Stays convert b.session.buffer.currentBase := by
        rw [linked.buffer physical]
        exact stays convert (change ▸ .head _)
      obtain ⟨answer, events, m, ended, silent, beside⟩ :=
        Step.observe_milestone abi base length handlers other stays start
      rw [ended] at next
      obtain ⟨asked, silents, beside⟩ := ih later next beside
      rw [List.filter_cons_of_neg kind, List.map_cons, performAll_cons ended]
      refine ⟨?_, ?_, ?_⟩
      · rw [Step.entries_cons_of_not _ _ _ kind, asked]
      · rw [Step.entries_cons_of _ _ _ other]
        exact List.forall_mem_cons.mpr ⟨silent, silents⟩
      · rw [Step.entries_cons_of _ _ _ other, List.flatMap_cons, ← List.append_assoc]
        exact beside

/-- Milestones do not disturb a session. Among any operations of a session that came up over the manager,
the boot environment may end any number of times and the address space may change any number of times to one
that has no place for the buffer: each operation comes to the same answer and puts the same on record as
without them, memory and what the handlers keep are the same, and the manager sees one call more at most,
which takes the scratch pages back. -/
theorem Operation.performAll_milestones {buffer : SharedBuffer} {m : Machine ω}
    (reached : Reached (ofBodyHandlers abi base length handlers) buffer m) (steps : List Step)
    (stays : ∀ convert, Step.addressChange convert ∈ steps → Converter.Stays convert buffer.currentBase) :
    let monitor := Manager.monitor (ofBodyHandlers abi base length handlers)
    let run := performAll monitor (steps.map Step.operation) m
    let plain := performAll monitor ((steps.filter Step.isAsked).map Step.operation) m
    let unmaps := (Step.entries false steps run.1).flatMap (calls ·.2)
    Step.entries true steps run.1 = plain.1 ∧
      (∀ entry ∈ Step.entries false steps run.1, invocations entry.2 = []) ∧
      run.2.memory = plain.2.memory ∧ run.2.rest = plain.2.rest ∧
      run.2.session = { plain.2.session with directory := run.2.session.directory } ∧
      unmaps.length ≤ 1 ∧
      (∀ call ∈ unmaps, ∃ d, run.2.session.directory = some d ∧
        call = Discovery.unmapRequest d.localId) ∧
      ∃ before after, plain.2.manager.calls = before ++ after ∧
        run.2.manager.calls = before ++ unmaps.map (·.x0) ++ after := by
  intro monitor run plain unmaps
  obtain ⟨asked, silent, beside⟩ : Interspersed [] steps run plain :=
    performAll_beside abi base length handlers steps stays reached.linked (.same m)
  obtain ⟨memory, rest, session⟩ := beside.shared
  obtain ⟨once, calls, listed⟩ := beside.further
  exact ⟨asked, silent, memory, rest, session, once, calls, listed⟩

/-- Between two messages the boot environment ends and the buffer is to be moved to the null address; after
the second one the boot environment ends once more. -/
def Step.midway : List Step :=
  let message : Step := .asked (.communicate (MessageHeader.encode ⟨EventGroup.endOfDxe, 1⟩ ++ [0x0F]) none)
  [message, .exitBootServices, .addressChange fun _ => .ok (some 0), message, .exitBootServices]

theorem Operation.performAll_milestones_midway :
    let monitor := Manager.monitor (ofBodyHandlers (.ffa true) 0x1000 0x40 inverting)
    let m := (firstSession (.ffa true) .partitionAddressed inverting).2
    let run := performAll monitor (Step.midway.map Step.operation) m
    let plain := performAll monitor ((Step.midway.filter Step.isAsked).map Step.operation) m
    Step.entries true Step.midway run.1 = plain.1 ∧ run.2.memory = plain.2.memory ∧
      (Step.entries false Step.midway run.1).flatMap (calls ·.2) =
        [Discovery.unmapRequest Manager.normalWorldId] := by
  have reached := reached_firstSession (.ffa true) .partitionAddressed inverting rfl
  have stays convert (member : Step.addressChange convert ∈ Step.midway) :
      Converter.Stays convert (SharedBuffer.identityMapped 0x1000 0x40).currentBase := by
    obtain rfl : convert = fun _ => .ok (some 0) := by simpa [Step.midway] using member
    rintro place ⟨⟩
    rfl
  obtain ⟨asked, _, memory, _⟩ :=
    performAll_milestones (.ffa true) 0x1000 0x40 inverting reached Step.midway stays
  exact ⟨asked, memory, by decide +kernel⟩

end

end StandaloneMm
