import StandaloneMm.Proofs.Screening

/-! What an exchange does on its own account: it lays the request down in front of its calls, and from
then on the machine is for those who answer them. A message that is turned away does not even get that
far. -/
namespace StandaloneMm

open Journal

variable {ω : Type}

/-- Calls that are answered one after the other, each on the machine that the one before it left, as long
as the answer is a preemption. The last answer stands at the end of the journal. -/
inductive SeenThrough (monitor : Monitor ω) : Machine ω → List Registers → Registers → Machine ω → Prop where
  | answered {m called : Machine ω} {notes : List Event} {call final : Registers} (noted : Notes notes)
      (answer : monitor.call call (m.append (notes ++ [.call call])) = (final, called)) :
      SeenThrough monitor m [call] final (called.append [.ret final])
  | preempted {m called ended : Machine ω} {notes : List Event} {call interrupt final : Registers}
      {made : List Registers} (noted : Notes notes)
      (answer : monitor.call call (m.append (notes ++ [.call call])) = (interrupt, called))
      (preempts : interrupt.x0 = FunctionId.ffaInterrupt)
      (onward : SeenThrough monitor (called.append [.ret interrupt]) made final ended) :
      SeenThrough monitor m (call :: made) final ended

namespace SeenThrough

variable {monitor : Monitor ω} {m ended : Machine ω} {made : List Registers} {final : Registers}

theorem byte_eq {address : Nat}
    (leaves : ∀ call (m : Machine ω), (monitor.call call m).2.memory.byte address = m.memory.byte address)
    (seen : SeenThrough monitor m made final ended) :
    ended.memory.byte address = m.memory.byte address := by
  have called {m called : Machine ω} {events : List Event} {call answer : Registers}
      (answers : monitor.call call (m.append events) = (answer, called)) :
      (called.append [.ret answer]).memory.byte address = m.memory.byte address := by
    have left := leaves call (m.append events)
    rwa [answers] at left
  induction seen with
  | answered _ answer => exact called answer
  | preempted _ answer _ _ ih => exact ih.trans (called answer)

theorem journal (seen : SeenThrough monitor m made final ended) :
    ∃ before, ended.journal = before ++ [.ret final] := by
  induction seen with
  | answered => exact ⟨_, rfl⟩
  | preempted _ _ _ _ ih => exact ih

theorem calls_eq (silent : ∀ call (m : Machine ω), calls (monitor.call call m).2.journal = calls m.journal)
    (seen : SeenThrough monitor m made final ended) : calls ended.journal = calls m.journal ++ made := by
  have called {m called : Machine ω} {notes : List Event} {call final : Registers} (noted : Notes notes)
      (answer : monitor.call call (m.append (notes ++ [.call call])) = (final, called)) :
      calls (called.append [.ret final]).journal = calls m.journal ++ [call] := by
    have inside := silent call (m.append (notes ++ [.call call]))
    rw [answer] at inside
    have before : calls (m.append (notes ++ [.call call])).journal = calls m.journal ++ [call] := by
      rw [Machine.append, calls_append, calls_append, noted.calls]
      rfl
    rw [Machine.append, calls_append, inside, before]
    exact List.append_nil _
  induction seen with
  | answered noted answer => exact called noted answer
  | preempted noted answer _ _ ih => rw [ih, called noted answer, List.append_assoc, List.singleton_append]

theorem answer_trap (m : Machine ω) (notes : List Event) (call : Registers) :
    monitor.call call (m.append (notes ++ [.call call])) =
      monitor.call call ((m.append notes).record (.call call)) := by
  rw [Machine.record, Machine.append_append]

theorem ofTrap {notes : List Event} (noted : Notes notes) (call : Registers) :
    SeenThrough monitor m [call] ((m.append notes).trap monitor call).1 ((m.append notes).trap monitor call).2 :=
  .answered noted (answer_trap m notes call)

theorem ofPreempted {notes : List Event} (noted : Notes notes) {call : Registers}
    (preempts : Delivery.preempted ((m.append notes).trap monitor call).1 = true)
    (onward : SeenThrough monitor ((m.append notes).trap monitor call).2 made final ended) :
    SeenThrough monitor m (call :: made) final ended :=
  .preempted noted (answer_trap m notes call) (of_decide_eq_true preempts) onward

end SeenThrough

/-- The calls that a request takes besides its own when it is preempted so many times. -/
def Route.resumptions (route : Route) (times : Nat) : List Registers :=
  match route with
  | .legacy => []
  | .direct _ remote => List.replicate times { x0 := FunctionId.ffaRun, x1 := remote.id.toUInt64 <<< 16 }

namespace Transport

open Admission Delivery

theorem resume_seen (monitor : Monitor ω) (remote : PartitionDescriptor) (patience : Nat) (call : Registers)
    (m : Machine ω) {notes : List Event} (noted : Notes notes) :
    let resumption : Registers := { x0 := FunctionId.ffaRun, x1 := remote.id.toUInt64 <<< 16 }
    let trapped := (m.append notes).trap monitor call
    let ended := resume monitor remote patience trapped.1 trapped.2
    ∃ times, SeenThrough monitor m (call :: List.replicate times resumption) ended.1 ended.2 := by
  intro resumption
  have resumes : resumeRequest remote = resumption := by simp [resumeRequest, endpointPair, resumption]
  induction patience generalizing call m notes with
  | zero => exact ⟨0, .ofTrap noted call⟩
  | succ patience ih =>
    dsimp only
    rw [resume, resumes]
    split
    next preempts =>
      have note : Notes [.log .debug .mmComm] := notes_log
      obtain ⟨times, onward⟩ := ih resumption ((m.append notes).trap monitor call).2 note
      exact ⟨times + 1, .ofPreempted noted preempts onward⟩
    next => exact ⟨0, .ofTrap noted call⟩

theorem callRemote_seen (monitor : Monitor ω) (route : Route) (call : Registers) (m : Machine ω)
    {notes : List Event} (noted : Notes notes) :
    let ended := callRemote monitor route call (m.append notes)
    ∃ times, SeenThrough monitor m (call :: route.resumptions times) ended.1 ended.2 := by
  cases route with
  | legacy => exact ⟨0, .ofTrap noted call⟩
  | direct localId remote => exact resume_seen monitor remote _ call m noted

/-- The memory with the first bytes of a message laid down where the session reaches the buffer. -/
def laid (message : Bytes) (size : Nat) (m : Machine ω) : Memory :=
  m.memory.store m.session.buffer.currentBase.toNat (message.take size)

theorem byte_laid_outside {message : Bytes} {size address : Nat} {m : Machine ω} (whole : size ≤ message.length)
    (outside : address < m.session.buffer.currentBase.toNat ∨
      m.session.buffer.currentBase.toNat + size ≤ address) :
    (laid message size m).byte address = m.memory.byte address := by
  apply Memory.byte_store_outside
  rwa [List.length_take, Nat.min_eq_left whole]

/-- The exchange of so many bytes of the message, which holds the buffer while its calls are seen through. -/
def Delivers (monitor : Monitor ω) (message : Bytes) (capacity : Option UInt64) (size : Nat) (m : Machine ω)
    (made : List Registers) (final : Registers) : Prop :=
  ∃ ended notes, Notes notes ∧
    SeenThrough monitor
      { m with memory := laid message size m, session := { m.session with inUse := true } } made final ended ∧
    (communicate monitor message capacity m).2 =
      { ended with session := { ended.session with inUse := false } }.append notes

/-- A message of this size that passes the checks. Unless an exchange holds the buffer, the next call is
the request that names the buffer by its physical base, and the bytes of the message up to the size are
all that changes in the memory without a call. -/
structure Sends (monitor : Monitor ω) (message : Bytes) (capacity : Option UInt64) (size : Nat)
    (m : Machine ω) : Prop where
  passes : screen m.session.buffer.length message capacity = .ok size
  whole : size ≤ message.length
  requests : m.session.inUse = false → ∃ more, calls (communicate monitor message capacity m).2.journal =
    calls m.journal ++ m.session.route.handover m.session.buffer.physicalBase :: more
  hands : m.session.inUse = false → ∃ times final, Delivers monitor message capacity size m
    (m.session.route.handover m.session.buffer.physicalBase :: m.session.route.resumptions times) final

/-- A message that is answered with this error on the spot, so that only notes of it are left. -/
structure TurnedAway (monitor : Monitor ω) (message : Bytes) (capacity : Option UInt64) (e : Error)
    (m : Machine ω) : Prop where
  result : (communicate monitor message capacity m).1.result = .error (.error e)
  unsent : ∃ events, Notes events ∧ (communicate monitor message capacity m).2 = m.append events

variable {monitor : Monitor ω} {m : Machine ω} {message : Bytes} {capacity : Option UInt64}
  {header : MessageHeader}

section

variable {size size' : Nat} {made made' : List Registers} {final final' : Registers}

theorem Delivers.journal (delivers : Delivers monitor message capacity size m made final) :
    ∃ before notes, Notes notes ∧
      (communicate monitor message capacity m).2.journal = before ++ .ret final :: notes := by
  obtain ⟨ended, notes, noted, seen, after⟩ := delivers
  obtain ⟨before, journal⟩ := seen.journal
  refine ⟨before, notes, noted, ?_⟩
  rw [after, Machine.append, journal, List.append_assoc]
  rfl

theorem Delivers.byte_eq {address : Nat}
    (leaves : ∀ call (m : Machine ω), (monitor.call call m).2.memory.byte address = m.memory.byte address)
    (delivers : Delivers monitor message capacity size m made final) :
    (communicate monitor message capacity m).2.memory.byte address = (laid message size m).byte address := by
  obtain ⟨ended, notes, _, seen, after⟩ := delivers
  rw [after]
  exact seen.byte_eq leaves

theorem Delivers.calls_eq
    (silent : ∀ call (m : Machine ω), calls (monitor.call call m).2.journal = calls m.journal)
    (delivers : Delivers monitor message capacity size m made final) :
    calls (communicate monitor message capacity m).2.journal = calls m.journal ++ made := by
  obtain ⟨ended, notes, noted, seen, after⟩ := delivers
  have made := seen.calls_eq silent
  rw [after, Machine.append, calls_append, noted.calls, List.append_nil]
  exact made

theorem Delivers.final_eq (delivers : Delivers monitor message capacity size m made final)
    (other : Delivers monitor message capacity size' m made' final') : final = final' := by
  obtain ⟨before, notes, noted, journal⟩ := delivers.journal
  obtain ⟨before', notes', noted', journal'⟩ := other.journal
  have last (before : List Event) (answer : Registers) {notes : List Event} (noted : Notes notes) :
      (traffic (before ++ .ret answer :: notes)).getLast? = some (.ret answer) := by
    have shown : traffic (.ret answer :: notes) = .ret answer :: traffic notes := rfl
    rw [traffic_append, shown, noted.traffic, List.getLast?_concat]
  have same := last before final noted
  rw [← journal, journal', last before' final' noted', Option.some.injEq, Event.ret.injEq] at same
  exact same.symm

end

theorem offered_append (message : Bytes) (capacity : Option UInt64) (total : Nat) (m : Machine ω) :
    ∃ notes, Notes notes ∧ offered message capacity total m =
      { m with memory := laid message total m, session := { m.session with inUse := true } }.append notes := by
  have sending : Notes [.log .debug .mmComm, .log .debug .mmComm] := notes_log.append notes_log
  refine ⟨_, (notes_opening capacity).append sending, ?_⟩
  rw [← Machine.append_append]
  rfl

theorem communicate_delivers (admitted : Admitted m.session.buffer.length message capacity header)
    (free : m.session.inUse = false) :
    ∃ times, Delivers monitor message capacity header.total m
      (m.session.route.handover m.session.buffer.physicalBase :: m.session.route.resumptions times)
      (answered monitor message capacity header.total m).1 := by
  let ended := answered monitor message capacity header.total m
  obtain ⟨records, notes, concludes⟩ := concluded_append m.session.route message header.total ended.1 ended.2
  have after : (communicate monitor message capacity m).2 = (letGo ended.2).append records := by
    rw [communicate_answered admitted free (Prod.eta ended).symm]
    exact concludes
  obtain ⟨notes', noted, offers⟩ := offered_append message capacity header.total m
  obtain ⟨times, seen⟩ := callRemote_seen monitor m.session.route
    (m.session.route.handover m.session.buffer.physicalBase) _ noted
  rw [← offers, ← request_eq_handover] at seen
  rw [← request_eq_handover]
  exact ⟨times, ended.2, records, notes, seen, after⟩

theorem sends_iff (recording : monitor.Recording) {size : Nat} : Sends monitor message capacity size m ↔
    screen m.session.buffer.length message capacity = .ok size := by
  constructor
  · exact Sends.passes
  · intro passes
    obtain ⟨header, admitted, rfl⟩ := screen_eq_ok_iff.mp passes
    refine ⟨passes, admitted.inMessage, communicate_requests recording admitted, fun free => ?_⟩
    obtain ⟨times, delivers⟩ := communicate_delivers admitted free
    exact ⟨times, _, delivers⟩

theorem turnedAway_iff (recording : monitor.Recording) {e : Error} (other : e ≠ .accessDenied) :
    TurnedAway monitor message capacity e m ↔
      ∃ refusal, screen m.session.buffer.length message capacity = .error refusal ∧ refusal.error = e := by
  constructor
  · rintro ⟨result, events, notes, after⟩
    rcases communicate_cases monitor message capacity m with
      ⟨refusal, turned, refused⟩ | ⟨_, _, denied⟩ | ⟨header, free, admitted, _⟩
    · rw [refused] at result
      simp only [Refusal.exchange, Except.error.injEq, Fault.error.injEq] at result
      exact ⟨refusal, turned, result⟩
    · rw [denied] at result
      simp only [Except.error.injEq, Fault.error.injEq] at result
      exact absurd result.symm other
    · obtain ⟨more, made⟩ := communicate_requests recording admitted free
      rw [after, Machine.append, calls_append, notes.calls] at made
      simp at made
  · rintro ⟨refusal, turned, rfl⟩
    have refused : communicate monitor message capacity m = _ := communicate_refused turned
    exact ⟨by rw [refused]; rfl, _, refusal.notes_records capacity, congrArg Prod.snd refused⟩

end Transport

end StandaloneMm
