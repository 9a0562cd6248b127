import StandaloneMm.Proofs.Hosting
import StandaloneMm.Proofs.Operation
import StandaloneMm.Rehearsal.Script

/-! How long a preempted call is resumed. In a world that loses patience with every preemption the
bound on resumptions is never what ends a call, so the last answer is no preemption. Scripted worlds
are such: every answer uses up a reply, and nothing that runs inside a call puts one back. -/
namespace StandaloneMm

variable {ω : Type}

/-- A property of the other side's own part of the state, kept by every call. -/
def Monitor.KeepsRest (monitor : Monitor ω) (holds : ω → Prop) : Prop :=
  ∀ call m, holds m.rest → holds (monitor.call call m).2.rest

namespace Monitor.KeepsRest

variable {monitor : Monitor ω} {holds : ω → Prop} (keeps : monitor.KeepsRest holds) {m : Machine ω}

include keeps

theorem callRemote (route : Route) (call : Registers) (before : holds m.rest) :
    holds (Transport.callRemote monitor route call m).2.rest := by
  have within : monitor.StaysWithin fun m after => holds m.rest → holds after.rest :=
    ⟨fun _ before => before, fun first second before => second (first before), fun _ _ _ before => before,
      fun _ _ before => keeps _ _ before⟩
  exact within.callRemote route call m before

theorem communicate : Channel.Keeps (Transport.communicate monitor) fun m => holds m.rest := by
  intro message capacity m before
  rcases Transport.communicate_cases monitor message capacity m with
    ⟨_, _, refused⟩ | ⟨_, _, denied⟩ | ⟨header, _, _, exchanged⟩
  · rw [refused]
    exact before
  · rw [denied]
    exact before
  · have called := keeps.callRemote (m := Transport.offered message capacity header.total m)
      m.session.route (Delivery.request m.session.route m.session.buffer.physicalBase) before
    rw [exchanged]
    dsimp only [Transport.concluded]
    split <;> exact called

theorem perform (operation : Operation) (before : holds m.rest) :
    holds (operation.perform monitor m).2.rest := by
  have noted : Noted fun m : Machine ω => holds m.rest := fun _ _ _ before => before
  have remaps (convert : Converter) (m : Machine ω) (before : holds m.rest) :
      holds (Lifecycle.remapBuffer convert m).rest := by
    unfold Lifecycle.remapBuffer
    split <;> exact before
  exact operation.perform_keeps noted keeps.communicate remaps
    (fun _ before => Lifecycle.exitBootServices_keeps noted (fun _ _ before => before)
      (fun _ _ before => keeps _ _ before) before) (fun _ _ before => before) before

theorem performAll (operations : List Operation) (before : holds m.rest) :
    holds (Operation.performAll monitor operations m).2.rest := by
  have unjournaled : Unjournaled fun m : Machine ω => holds m.rest := fun _ _ kept => kept
  exact Operation.performAll_keeps unjournaled (fun operation _ => keeps.perform operation) operations before

end Monitor.KeepsRest

/-- A world whose patience is a matter between it and the other side, shrinks with every preemption
and never runs out. -/
structure Monitor.Patient (monitor : Monitor ω) : Prop where
  remains : ∀ m, 0 < monitor.patience m
  unjournaled : ∀ m journal, monitor.patience { m with journal := journal } = monitor.patience m
  shrinks : ∀ call m, Delivery.preempted (monitor.call call m).1 = true →
    monitor.patience (monitor.call call m).2 < monitor.patience m

namespace Monitor.Patient

variable {monitor : Monitor ω} (patient : monitor.Patient)

include patient

theorem trap (m : Machine ω) (call : Registers)
    (preempts : Delivery.preempted (m.trap monitor call).1 = true) :
    monitor.patience (m.trap monitor call).2 < monitor.patience m := by
  have shrinks := patient.shrinks call (m.record (.call call)) preempts
  have called : monitor.patience (m.record (.call call)) = monitor.patience m := patient.unjournaled m _
  have returned : monitor.patience (m.trap monitor call).2 =
      monitor.patience (monitor.call call (m.record (.call call))).2 := patient.unjournaled _ _
  omega

theorem resume (remote : PartitionDescriptor) (bound : Nat) (answer : Registers) (m : Machine ω)
    (enough : monitor.patience m ≤ bound) :
    Delivery.preempted (Transport.resume monitor remote bound answer m).1 = false := by
  induction bound generalizing answer m with
  | zero => exact absurd enough (Nat.not_le.mpr (patient.remains m))
  | succ bound ih =>
    rw [Transport.resume]
    split
    next =>
      let resumed := (m.log .debug .mmComm).trap monitor (Delivery.resumeRequest remote)
      change Delivery.preempted (Transport.resume monitor remote bound resumed.1 resumed.2).1 = false
      cases again : Delivery.preempted resumed.1 with
      | false =>
        rw [Manager.resume_answered monitor remote bound again]
        exact again
      | true =>
        have shrinks : monitor.patience resumed.2 < monitor.patience (m.log .debug .mmComm) :=
          patient.trap _ _ again
        have noted : monitor.patience (m.log .debug .mmComm) = monitor.patience m := patient.unjournaled m _
        exact ih _ _ (by omega)
    next ended => exact Bool.eq_false_iff.mpr ended

theorem callRemote (localId : UInt16) (remote : PartitionDescriptor) (call : Registers) (m : Machine ω) :
    Delivery.preempted (Transport.callRemote monitor (.direct localId remote) call m).1 = false :=
  patient.resume remote _ _ _ (Nat.le_refl _)

end Monitor.Patient

namespace Rehearsal

theorem Script.length_next (s : Script) : s.next.2.replies.length ≤ s.replies.length := by
  unfold next
  split
  · exact Nat.le_refl _
  next reply rest more => simp [more]

theorem Script.replies_noteCall (s : Script) (call : Registers) : (s.noteCall call).replies = s.replies := by
  unfold noteCall
  split
  · rfl
  · split <;> rfl

theorem Script.replies_noteAnswer (s : Script) (call ret : Registers) :
    (s.noteAnswer call ret).replies = s.replies := by
  unfold noteAnswer
  split <;> rfl

theorem replies_runInner {monitor : Monitor Script} {bound : Nat}
    (keeps : monitor.KeepsRest fun s => s.replies.length ≤ bound) (operations : List Operation)
    {m : Machine Script} (before : m.rest.replies.length ≤ bound) :
    (runInner (some (Operation.performAll monitor)) operations m).rest.replies.length ≤ bound := by
  cases operations with
  | nil => exact before
  | cons operation rest => exact keeps.performAll (operation :: rest) before

theorem replies_answer {inner : Inner} {bound : Nat} (call : Registers) (m : Machine Script)
    (keeps : ∀ operations after, after.rest.replies.length ≤ bound →
      (runInner inner operations after).rest.replies.length ≤ bound)
    (left : (m.rest.noteCall call).next.2.replies.length ≤ bound) :
    (answer inner call m).2.rest.replies.length ≤ bound := by
  unfold answer
  simp only [Script.replies_noteAnswer]
  exact keeps _ _ left

theorem Script.keepsRest (depth bound : Nat) :
    (Script.nestedMonitor depth).KeepsRest fun s => s.replies.length ≤ bound := by
  have answered (call : Registers) (m : Machine Script) (before : m.rest.replies.length ≤ bound) :
      (m.rest.noteCall call).next.2.replies.length ≤ bound := by
    have shorter := (m.rest.noteCall call).length_next
    rw [Script.replies_noteCall] at shorter
    exact Nat.le_trans shorter before
  induction depth with
  | zero => exact fun call m before => replies_answer call m (fun _ _ kept => kept) (answered call m before)
  | succ depth ih =>
    exact fun call m before =>
      replies_answer call m (fun operations _ => replies_runInner ih operations) (answered call m before)

/-- A preemption is an answer from the script, and takes its place in it. -/
theorem Script.shrinks {inner : Inner} (call : Registers) (m : Machine Script)
    (keeps : ∀ bound operations after, after.rest.replies.length ≤ bound →
      (runInner inner operations after).rest.replies.length ≤ bound)
    (preempts : Delivery.preempted (answer inner call m).1 = true) :
    (answer inner call m).2.rest.replies.length < m.rest.replies.length := by
  have noted := m.rest.replies_noteCall call
  cases replies : m.rest.replies with
  | nil =>
    rw [replies] at noted
    have refused : (answer inner call m).1 = FfaStatus.notSupported.refusal := by
      simp only [answer, Script.next, noted]
    rw [refused] at preempts
    exact absurd preempts (by decide)
  | cons reply rest =>
    rw [replies] at noted
    have left : (m.rest.noteCall call).next.2.replies.length ≤ rest.length := by
      simp only [Script.next, noted]
      exact Nat.le_refl _
    exact Nat.lt_succ_of_le (replies_answer call m (keeps _) left)

theorem Script.patient (depth : Nat) : (Script.nestedMonitor depth).Patient := by
  cases depth with
  | zero =>
    refine ⟨fun _ => Nat.succ_pos _, fun _ _ => rfl, fun call m preempts => ?_⟩
    exact Nat.succ_lt_succ (shrinks call m (fun _ _ _ kept => kept) preempts)
  | succ depth =>
    refine ⟨fun _ => Nat.succ_pos _, fun _ _ => rfl, fun call m preempts => ?_⟩
    exact Nat.succ_lt_succ
      (shrinks call m (fun bound operations _ => replies_runInner (keepsRest depth bound) operations) preempts)

end Rehearsal

end StandaloneMm
