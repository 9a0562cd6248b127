import StandaloneMm.Proofs.Operation

/-! The shared buffer while an exchange holds it. Whatever runs behind the call reaches the session
through its operations only, and each of those is refused the buffer or leaves it alone. -/
namespace StandaloneMm

variable {ω : Type}

/-- What may become of a machine behind a call: anything that leaves the session alone, and any
operation of the session, whose own calls end behind it in the same way. -/
inductive Visit : Machine ω → Machine ω → Prop where
  | outside {m after : Machine ω} (session : after.session = m.session) : Visit m after
  | operation (inner : Monitor ω) (visits : ∀ call m, Visit m (inner.call call m).2)
      (operation : Operation) (m : Machine ω) : Visit m (operation.perform inner m).2
  | trans {m middle after : Machine ω} : Visit m middle → Visit middle after → Visit m after

/-- A world that reaches the session through its operations only. -/
def Monitor.Confined (monitor : Monitor ω) : Prop := ∀ call m, Visit m (monitor.call call m).2

/-- An exchange holds the session with this buffer. -/
def Held (buffer : SharedBuffer) (m : Machine ω) : Prop :=
  m.session.inUse = true ∧ m.session.buffer = buffer

namespace Held

variable {buffer : SharedBuffer} {m after : Machine ω}

theorem of_session (held : Held buffer m) (session : after.session = m.session) : Held buffer after := by
  simpa only [Held, session] using held

theorem unjournaled (buffer : SharedBuffer) : Unjournaled (Held (ω := ω) buffer) :=
  fun _ _ held => held

theorem communicate (monitor : Monitor ω) (buffer : SharedBuffer) :
    Channel.Keeps (Transport.communicate monitor) (Held buffer) := by
  intro message capacity m held
  unfold Transport.communicate
  dsimp only
  split
  · exact held
  · have inUse : (m.append (Admission.opening capacity)).session.inUse = true := held.1
    rw [if_pos inUse]
    exact held

theorem remap (convert : Converter) (held : Held buffer m) :
    Held buffer (Lifecycle.remapBuffer convert m) := by
  rw [Lifecycle.remapBuffer, if_pos held.1]
  exact held

section

variable {monitor : Monitor ω} (keeps : ∀ call m, Held buffer m → Held buffer (monitor.call call m).2)

include keeps

theorem trap (call : Registers) (held : Held buffer m) : Held buffer (m.trap monitor call).2 :=
  keeps call (m.record (.call call)) held

theorem exitBootServices (held : Held buffer m) : Held buffer (Lifecycle.exitBootServices monitor m) :=
  Lifecycle.exitBootServices_keeps (unjournaled buffer).noted (fun _ _ held => held)
    (fun _ call held => trap keeps call held) held

theorem perform (operation : Operation) (held : Held buffer m) :
    Held buffer (operation.perform monitor m).2 :=
  operation.perform_keeps (unjournaled buffer).noted (communicate monitor buffer)
    (fun convert _ held => remap convert held) (fun _ held => exitBootServices keeps held)
    (fun _ _ held => held) held

theorem callRemote (route : Route) (call : Registers) (held : Held buffer m) :
    Held buffer (Transport.callRemote monitor route call m).2 := by
  have within : monitor.StaysWithin fun m after => Held buffer m → Held buffer after :=
    ⟨fun _ held => held, fun first second held => second (first held), fun _ _ _ held => held,
      fun _ call held => trap keeps call held⟩
  exact within.callRemote route call m held

end

end Held

/-- Behind a call, nothing takes the buffer from the exchange that holds it. -/
theorem Visit.held {buffer : SharedBuffer} {m after : Machine ω} (visit : Visit m after)
    (held : Held buffer m) : Held buffer after := by
  induction visit with
  | outside session => exact held.of_session session
  | operation inner _ operation m ih =>
    exact Held.perform (fun call m => ih call m) operation held
  | trans _ _ first second => exact second (first held)

theorem Monitor.Confined.callRemote {monitor : Monitor ω} (confined : monitor.Confined) {buffer : SharedBuffer}
    {m : Machine ω} (route : Route) (call : Registers) (held : Held buffer m) :
    Held buffer (Transport.callRemote monitor route call m).2 :=
  Held.callRemote (fun call m held => (confined call m).held held) route call held

end StandaloneMm
