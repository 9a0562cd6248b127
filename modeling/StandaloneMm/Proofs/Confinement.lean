import StandaloneMm.Proofs.Hold
import StandaloneMm.Proofs.Hosting
import StandaloneMm.Rehearsal.Script
import StandaloneMm.Rehearsal.World

/-! Worlds that reach the session through its operations only: scripted ones, and a manager with any
partition whose handlers are so confined themselves, however deep they get back into their callers. -/
namespace StandaloneMm

variable {ω : Type}

theorem Registry.mem_of_find? {η : Type} {r : Registry η} {recipient : Guid} {handler : η}
    (found : r.find? recipient = some handler) : (recipient, handler) ∈ r.entries := by
  unfold find? at found
  cases first : r.entries.find? (·.1 = recipient) with
  | none => simp [first] at found
  | some e =>
    have here := List.find?_some first
    simp only [first, Option.map_some, Option.some.injEq] at found
    rw [← found, ← of_decide_eq_true here]
    exact List.mem_of_find?_eq_some first

namespace Monitor.Confined

/-- A run of operations that call into such a world is itself no more than a visit. -/
theorem performAll {monitor : Monitor ω} (confined : monitor.Confined) (operations : List Operation)
    (m : Machine ω) : Visit m (Operation.performAll monitor operations m).2 := by
  induction operations generalizing m with
  | nil => exact .outside rfl
  | cons operation rest ih =>
    let after := (operation.perform monitor { m with journal := [] }).2
    have begun : Visit m { m with journal := [] } := .outside rfl
    have performed : Visit m after := begun.trans (.operation monitor confined operation _)
    have kept : Visit m { after with journal := m.journal } := performed.trans (.outside rfl)
    exact kept.trans (ih _)

open Rehearsal in
theorem runInner {monitor : Monitor Script} (confined : monitor.Confined) (operations : List Operation)
    (m : Machine Script) :
    Visit m (runInner (some (Operation.performAll monitor)) operations m) := by
  cases operations with
  | nil => exact .outside rfl
  | cons operation rest =>
    exact (confined.performAll (operation :: rest) m).trans (.outside rfl)

open Rehearsal in
theorem script (depth : Nat) : (Script.nestedMonitor depth).Confined := by
  induction depth with
  | zero =>
    intro call m
    refine .outside ?_
    simp only [Script.nestedMonitor, Script.monitor, answer, Rehearsal.runInner]
  | succ depth ih =>
    intro call m
    let next := (m.rest.noteCall call).next
    let memory := next.1.writes.foldl (Write.apply next.2.rxPage) m.memory
    have answered : Visit m { m with memory := memory, rest := next.2 } := .outside rfl
    exact (answered.trans (runInner ih next.1.nested _)).trans (.outside rfl)

end Monitor.Confined

/-- A handler that reaches the session through its operations only. -/
def Handler.Confined (h : Handler ω) : Prop := ∀ span m, Visit m (h span m).2

theorem Handler.Confined.enter {h : Handler ω} (confined : h.Confined) (recipient : Guid) (body : Span)
    (m : Machine ω) : Visit m (Dispatch.enter h recipient body m).2 := by
  let entered := m.append [.log .debug .stmm, .handler recipient (m.memory.loadSpan body)]
  have begun : Visit m entered := .outside rfl
  have worked : Visit m (h body entered).2 := begun.trans (confined body entered)
  obtain ⟨events, _, settles⟩ := Dispatch.settle_eq (h body entered).1 (h body entered).2
  have ended : (Dispatch.enter h recipient body m).2 = (h body entered).2.append events :=
    congrArg Prod.snd settles
  rw [ended]
  exact worked.trans (.outside rfl)

section

variable {loop : EventLoop ω}
  (confined : ∀ recipient h, loop.handlers.find? recipient = some h → h.Confined)

include confined

theorem EventLoop.dispatch_visits (buffer : Span) (m : Machine ω) :
    Visit m (Dispatch.dispatch loop.handlers buffer m).2 := by
  unfold Dispatch.dispatch
  split
  · exact .outside rfl
  split
  · exact .outside rfl
  split
  · exact .outside rfl
  next h found => exact (confined _ h found).enter ..

theorem EventLoop.handleEvent_visits (event : Registers) (m : Machine ω) :
    Visit m (loop.handleEvent event m).2 := by
  have begun : Visit m { m with serving := true } := .outside rfl
  have dispatched := begun.trans (dispatch_visits confined loop.buffer.span _)
  change Visit m (loop.serve event m).2
  unfold serve
  split
  · exact .outside rfl
  split
  · exact .outside rfl
  split
  next served =>
    rw [served] at dispatched
    exact dispatched.trans (.outside rfl)
  next failed =>
    rw [failed] at dispatched
    exact dispatched.trans (.outside rfl)

theorem Manager.answer_visits (call : Registers) (m : Machine ω) :
    Visit m (answer loop call m).2 := by
  cases found : Call.ofId? call.x0 with
  | none => simpa only [answer, found] using .outside rfl
  | some known =>
    cases known with
    | infoGet => simpa only [answer, found] using .outside (partitionInfo_excursion call m).session
    | directRequest =>
      simp only [answer, found, directRequest]
      split
      · exact .outside rfl
      · exact (EventLoop.handleEvent_visits confined _ m).trans (.outside rfl)
    | communicate =>
      simp only [answer, found, communicate]
      exact EventLoop.handleEvent_visits confined _ m
    | ffaVersion | mmVersion | idGet | map | unmap | run | rxRelease =>
      simpa only [answer, found] using .outside rfl

theorem Monitor.Confined.manager : (Manager.monitor loop).Confined := by
  intro call m
  have noted : Visit m { m with manager := m.manager.listed call } := .outside rfl
  exact noted.trans (Manager.answer_visits confined call _)

end

namespace Rehearsal

theorem HandlerScript.handler_confined (s : HandlerScript) {again : Reentry ω}
    (events : ∀ event m, Visit m (again.handleEvent event m).2)
    (operations : ∀ list m, Visit m (again.perform list m).2) : (s.handler again).Confined := by
  intro span m
  unfold handler
  cases s.act with
  | event registers => exact (events registers m).trans (.outside rfl)
  | operations list => exact (operations list m).trans (.outside rfl)
  | none | reverse | invert | put | raw | aggregate => exact .outside rfl

theorem enroll_confined {again : Reentry ω} (events : ∀ event m, Visit m (again.handleEvent event m).2)
    (operations : ∀ list m, Visit m (again.perform list m).2) (scripts : List HandlerScript)
    {registry : Registry (Handler ω)} (confined : ∀ e ∈ registry.entries, e.2.Confined) :
    ∀ e ∈ (enroll again scripts registry).2.entries, e.2.Confined := by
  induction scripts generalizing registry with
  | nil => exact confined
  | cons script rest ih =>
    unfold enroll Registry.register
    by_cases taken : registry.contains script.recipient = true
    · rw [if_pos taken]
      exact ih confined
    · rw [if_neg taken]
      apply ih
      intro e member
      rcases List.mem_append.mp member with old | new
      · exact confined e old
      · rw [List.mem_singleton.mp new]
        exact script.handler_confined events operations

theorem reentrantLoop_confined (abi : PartitionAbi) (buffer : SharedBuffer) (scripts : List HandlerScript)
    (depth : Nat) : ∀ e ∈ (reentrantLoop abi buffer scripts World.perform depth).handlers.entries,
      e.2.Confined := by
  induction depth with
  | zero => exact nofun
  | succ depth ih =>
    let loop := reentrantLoop abi buffer scripts World.perform depth
    have inner : ∀ recipient h, loop.handlers.find? recipient = some h → h.Confined :=
      fun _ _ found => ih _ (Registry.mem_of_find? found)
    exact enroll_confined (EventLoop.handleEvent_visits inner)
      (Monitor.Confined.performAll (Monitor.Confined.manager inner)) scripts nofun

theorem World.confined (w : World) : w.monitor.Confined :=
  Monitor.Confined.manager fun _ _ found =>
    reentrantLoop_confined w.abi w.secure w.handlers 2 _ (Registry.mem_of_find? found)

end Rehearsal

end StandaloneMm
