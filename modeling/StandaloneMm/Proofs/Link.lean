import StandaloneMm.Proofs.Discovery
import StandaloneMm.Proofs.Hosting
import StandaloneMm.Proofs.Operation

/-! A session and the partition it came up over. Whatever the session does, and whoever else calls
the manager, the session keeps its route, and its buffer until that is moved; between operations the
buffer is free and the partition waits. -/
namespace StandaloneMm

variable {ω : Type}

/-- The session and the partition are as they were. -/
structure Undisturbed (m after : Machine ω) : Prop where
  session : after.session = m.session
  serving : after.serving = m.serving

namespace Undisturbed

variable {m middle after : Machine ω}

theorem refl (m : Machine ω) : Undisturbed m m := ⟨rfl, rfl⟩

theorem trans (first : Undisturbed m middle) (second : Undisturbed middle after) : Undisturbed m after :=
  ⟨second.session.trans first.session, second.serving.trans first.serving⟩

theorem thenStore (first : Undisturbed m after) (memory : Memory) (journal : List Event) :
    Undisturbed m { after with memory := memory, journal := journal } := ⟨first.session, first.serving⟩

theorem thenAppend (first : Undisturbed m after) (events : List Event) :
    Undisturbed m (after.append events) := first.thenStore after.memory _

theorem of_run {α : Type} {run : α × Machine ω} {answer : α} (whole : Undisturbed m run.2)
    (ran : run = (answer, after)) : Undisturbed m after := by
  rw [ran] at whole
  exact whole

end Undisturbed

/-- A world that no call leads out of. -/
def Monitor.Detached (monitor : Monitor ω) : Prop := ∀ call m, Undisturbed m (monitor.call call m).2

theorem Manager.detached (abi : PartitionAbi) (base length : UInt64)
    (handlers : Registry (BodyHandler ω)) :
    (monitor (EventLoop.ofBodyHandlers abi base length handlers)).Detached := by
  intro call m
  obtain ⟨entered, way⟩ := handle_excursion handlers abi base length call m
  exact ⟨way.session, way.serving⟩

namespace Monitor.Detached

variable {monitor : Monitor ω} (detached : monitor.Detached)

include detached

theorem trap (m : Machine ω) (call : Registers) : Undisturbed m (m.trap monitor call).2 := by
  have called := detached call (m.record (.call call))
  exact ⟨called.session, called.serving⟩

theorem callRemote (route : Route) (call : Registers) (m : Machine ω) :
    Undisturbed m (Transport.callRemote monitor route call m).2 := by
  have within : monitor.StaysWithin Undisturbed :=
    ⟨.refl, fun first second => first.trans second, fun _ _ _ => ⟨rfl, rfl⟩, detached.trap⟩
  exact within.callRemote route call m

theorem converse (message : Bytes) (total : Nat) {m : Machine ω} (free : m.session.inUse = false) :
    Undisturbed m (Transport.converse monitor message total m).2 := by
  let sent := (Transport.marshal (message.take total) (Transport.hold m)).append
    [.log .debug .mmComm, .log .debug .mmComm]
  let left := (Transport.callRemote monitor m.session.route
    (Delivery.request m.session.route m.session.buffer.physicalBase) sent).2
  have called : Undisturbed sent left := detached.callRemote ..
  have back : Undisturbed m (Transport.letGo left) := by
    refine ⟨?_, called.serving⟩
    have held : left.session = { m.session with inUse := true } := called.session
    simp only [Transport.letGo, held, ← free]
  unfold Transport.converse
  dsimp only
  split
  · exact back.thenAppend _
  · exact back.thenAppend _

theorem communicate (message : Bytes) (capacity : Option UInt64) {m : Machine ω}
    (free : m.session.inUse = false) :
    Undisturbed m (Transport.communicate monitor message capacity m).2 := by
  have noted := (Undisturbed.refl m).thenAppend (Admission.opening capacity)
  unfold Transport.communicate
  dsimp only
  split
  · exact (Undisturbed.refl m).thenAppend _
  · split
    · exact noted.thenAppend _
    · exact noted.trans (detached.converse message _ free)

theorem query (pages : ScratchPages) (localId : UInt16) (service : Guid) (m : Machine ω) :
    Undisturbed m (Discovery.query monitor pages localId service m).2 := by
  have asked := detached.trap m (Discovery.infoRequest service)
  unfold Discovery.query
  dsimp only
  split
  · exact asked.thenAppend _
  · split
    · exact asked
    · have handedBack := asked.trans (detached.trap _ (Discovery.rxReleaseRequest localId))
      split
      · exact handedBack.thenAppend _
      · exact handedBack

theorem release (d : Directory) (m : Machine ω) :
    Undisturbed m (Discovery.release monitor d m).2 := by
  unfold Discovery.release
  split
  · exact .refl m
  · exact (detached.trap m _).thenAppend _

theorem discover (pages : ScratchPages) (service : Guid) (m : Machine ω) :
    Undisturbed m (Discovery.discover monitor pages service m).2 := by
  have named := detached.trap m Discovery.idRequest
  unfold Discovery.discover
  dsimp only
  split
  · exact named.thenAppend _
  let localId := (m.trap monitor Discovery.idRequest).1.x2.toUInt16
  let granted := (m.trap monitor Discovery.idRequest).2
  let blank := { granted.log .debug .ffa with memory := Discovery.blanked pages granted.memory }
  let lend := (blank.trap monitor (Discovery.mapRequest pages)).2
  have cleared : Undisturbed m blank := named.thenStore _ _
  have lent : Undisturbed m lend := cleared.trans (detached.trap blank _)
  split
  · exact lent.thenAppend _
  have asked := detached.query pages localId service (lend.log .debug .ffa)
  have queried : Undisturbed m _ := lent.trans ⟨asked.session, asked.serving⟩
  split
  next found => exact (queried.of_run found).thenAppend _
  next missed => exact (queried.of_run missed).trans (detached.release _ _)

theorem negotiate (asked : Convention) (m : Machine ω) :
    Undisturbed m (Negotiation.negotiate monitor asked m).2 :=
  (detached.trap m (Negotiation.request asked)).thenAppend _

theorem establish (pages : ScratchPages) (convention : Convention) (m : Machine ω) :
    Undisturbed m (Lifecycle.establish monitor pages convention m).2 := by
  cases convention with
  | legacy => exact .refl m
  | partitionAddressed =>
    have discovered := detached.discover pages Discovery.serviceGuid m
    unfold Lifecycle.establish
    dsimp only
    split
    next found => exact discovered.of_run found
    next missed => exact discovered.of_run missed

end Monitor.Detached

/-- The route to the hosted partition is the only direct one. -/
theorem Manager.establish_hosted (loop : EventLoop ω) {pages : ScratchPages} {convention : Convention}
    {m after : Machine ω} {route : Route} {directory : Option Directory}
    (established : Lifecycle.establish (monitor loop) pages convention m = (.ok (route, directory), after)) :
    route = .legacy ∨ route = .direct normalWorldId hosted := by
  cases convention with
  | legacy =>
    cases established
    exact .inl rfl
  | partitionAddressed =>
    unfold Lifecycle.establish at established
    dsimp only at established
    split at established
    next d left found =>
      obtain ⟨localId, remote⟩ := discover_hosted loop found
      cases established
      exact .inr (by rw [localId, remote])
    · cases established

/-- A session that came up with this buffer over the manager, between two operations. -/
structure Linked (buffer : SharedBuffer) (m : Machine ω) : Prop where
  waiting : m.serving = false
  free : m.session.inUse = false
  /-- Only a move takes the session to another buffer. -/
  buffer : m.session.buffer.mode = .physical → m.session.buffer = buffer
  route : m.session.route = .legacy ∨ m.session.route = .direct Manager.normalWorldId Manager.hosted

namespace Linked

variable {buffer : SharedBuffer} {m after : Machine ω}

theorem undisturbed (linked : Linked buffer m) (same : Undisturbed m after) : Linked buffer after where
  waiting := same.serving.trans linked.waiting
  free := by rw [same.session]; exact linked.free
  buffer := by rw [same.session]; exact linked.buffer
  route := by rw [same.session]; exact linked.route

theorem unjournaled (buffer : SharedBuffer) : Unjournaled (Linked (ω := ω) buffer) :=
  fun _ _ linked => linked.undisturbed ⟨rfl, rfl⟩

theorem remap (convert : Converter) (linked : Linked buffer m) :
    Linked buffer (Lifecycle.remapBuffer convert m) := by
  -- A buffer that was moved is not in physical mode again, so the invariant asks nothing of it.
  have notInUse : ¬ m.session.inUse = true := by simp [linked.free]
  rw [Lifecycle.remapBuffer, if_neg notInUse]
  refine ⟨linked.waiting, linked.free, ?_, linked.route⟩
  intro physical
  rcases (SharedBuffer.follows_remap convert m.session.buffer).moved with stays | ⟨_, moved⟩
  · exact stays.trans (linked.buffer (stays ▸ physical))
  · exact absurd (moved.symm.trans physical) (by decide)

section

variable {abi : PartitionAbi} {base length : UInt64} {handlers : Registry (BodyHandler ω)}

open EventLoop (ofBodyHandlers)

theorem exitBootServices (linked : Linked buffer m) : Linked buffer
    (Lifecycle.exitBootServices (Manager.monitor (ofBodyHandlers abi base length handlers)) m) :=
  Lifecycle.exitBootServices_keeps (unjournaled buffer).noted
    (fun _ _ linked => ⟨linked.waiting, linked.free, linked.buffer, linked.route⟩)
    (fun m call linked => linked.undisturbed ((Manager.detached abi base length handlers).trap m call)) linked

theorem perform (operation : Operation) (linked : Linked buffer m) :
    Linked buffer (operation.perform (Manager.monitor (ofBodyHandlers abi base length handlers)) m).2 := by
  have detached := Manager.detached abi base length handlers
  have keeps : Channel.Keeps (Transport.communicate (Manager.monitor (ofBodyHandlers abi base length handlers)))
      (Linked buffer) := by
    intro message capacity m linked
    exact linked.undisturbed (detached.communicate message capacity linked.free)
  exact operation.perform_keeps (unjournaled buffer).noted keeps (fun convert _ linked => remap convert linked)
    (fun _ linked => exitBootServices linked) (fun _ _ linked => linked.undisturbed ⟨rfl, rfl⟩) linked

theorem bringUp {asked : Convention} {pages : ScratchPages} (waiting : m.serving = false)
    (came : Lifecycle.bringUp (Manager.monitor (ofBodyHandlers abi base length handlers)) pages
      ⟨asked, some buffer⟩ m = (.ok (), after)) : Linked buffer after := by
  have detached := Manager.detached abi base length handlers
  unfold Lifecycle.bringUp at came
  dsimp only at came
  split at came
  · cases came
  next convention settled negotiated =>
    split at came
    · cases came
    next route directory found established =>
      have asking := detached.negotiate asked (m.append [.log .info .mmComm, .log .trace .mmComm])
      have learning := (asking.of_run negotiated).trans ((detached.establish ..).of_run established)
      cases came
      exact ⟨learning.serving.trans waiting, rfl, fun _ => rfl, Manager.establish_hosted _ established⟩

end

end Linked

/-- The states of a world in which a session came up with this buffer over a manager that hosts this
partition: the session does anything it can do, others call the manager too, and the manager may
report any number of preemptions. -/
inductive Reached (loop : EventLoop ω) (buffer : SharedBuffer) : Machine ω → Prop where
  | up {start m : Machine ω} (asked : Convention) (pages : ScratchPages) (waiting : start.serving = false)
      (came : Lifecycle.bringUp (Manager.monitor loop) pages ⟨asked, some buffer⟩ start = (.ok (), m)) :
      Reached loop buffer m
  | operation {m : Machine ω} (operation : Operation) :
      Reached loop buffer m → Reached loop buffer (operation.perform (Manager.monitor loop) m).2
  | call {m : Machine ω} (registers : Registers) :
      Reached loop buffer m → Reached loop buffer (m.trap (Manager.monitor loop) registers).2
  | preemptions {m : Machine ω} (count : Nat) : Reached loop buffer m →
      Reached loop buffer { m with manager := { m.manager with interruptsPerRequest := count } }
  | journal {m : Machine ω} (journal : List Event) :
      Reached loop buffer m → Reached loop buffer { m with journal := journal }

theorem Reached.linked {abi : PartitionAbi} {base length : UInt64} {handlers : Registry (BodyHandler ω)}
    {buffer : SharedBuffer} {m : Machine ω}
    (reached : Reached (EventLoop.ofBodyHandlers abi base length handlers) buffer m) : Linked buffer m := by
  induction reached with
  | up asked pages waiting came => exact .bringUp waiting came
  | operation operation _ ih => exact ih.perform operation
  | call registers _ ih => exact ih.undisturbed ((Manager.detached abi base length handlers).trap _ registers)
  | preemptions count _ ih => exact ih.undisturbed ⟨rfl, rfl⟩
  | journal journal _ ih => exact ih.undisturbed ⟨rfl, rfl⟩

/-- A session brought up in an empty world, over a manager that offers either convention and preempts
each direct request twice. -/
def firstSession (abi : PartitionAbi) (asked : Convention) (handlers : Registry (BodyHandler Unit)) :
    Except Error Unit × Machine Unit :=
  Lifecycle.bringUp (Manager.monitor (EventLoop.ofBodyHandlers abi 0x1000 0x40 handlers)) ⟨0x2000, 0x3000⟩
    ⟨asked, some (.identityMapped 0x1000 0x40)⟩
    { manager := { Manager.offering ⟨1, 1⟩ ⟨1, 0⟩ with interruptsPerRequest := 2 }, rest := () }

theorem reached_firstSession (abi : PartitionAbi) (asked : Convention) (handlers : Registry (BodyHandler Unit))
    (came : (firstSession abi asked handlers).1 = .ok ()) :
    Reached (EventLoop.ofBodyHandlers abi 0x1000 0x40 handlers) (.identityMapped 0x1000 0x40)
      (firstSession abi asked handlers).2 :=
  .up asked ⟨0x2000, 0x3000⟩ (Eq.refl false) (Prod.ext came rfl)

end StandaloneMm
