import StandaloneMm.Proofs.Bounds
import StandaloneMm.Proofs.Conduct
import StandaloneMm.Proofs.Handover
import StandaloneMm.Proofs.Patience

/-! How an exchange can go wrong once its request is made. The answer that ends the call decides it
alone: three statuses name errors of the caller's, a success leads on to the reply, and anything else
fails an assertion. -/
namespace StandaloneMm

variable {ω : Type}

namespace Delivery

theorem succeeded_iff {route : Route} {answer : Registers} : succeeded route answer = true ↔
    match route with
    | .legacy => answer.x0 = 0
    | .direct _ _ => answer.x0 = FunctionId.ffaDirectResponse := by
  cases route with
  | legacy =>
    have zero : MmStatus.success.register = 0 := rfl
    simp only [succeeded, decide_eq_true_eq, MmStatus.ofRegister_eq_some_iff, zero]
    exact eq_comm
  | direct localId remote => simp only [succeeded, decide_eq_true_eq]

/-- The statuses that name an error, with the sign of the code in every upper bit. -/
def named : List UInt64 := [UInt64.ofInt (-1), UInt64.ofInt (-2), UInt64.ofInt (-3)]

theorem faultOfStatus_named :
    faultOfStatus (UInt64.ofInt (-1)) = .error .unsupported ∧
      faultOfStatus (UInt64.ofInt (-2)) = .error .invalidParameter ∧
      faultOfStatus (UInt64.ofInt (-3)) = .error .accessDenied := by decide

/-- The whole register counts, so only the named statuses themselves are spared the assertion. -/
theorem faultOfStatus_unnamed {status : UInt64} (unnamed : status ∉ named) : faultOfStatus status =
    .assertion (if status = UInt64.ofInt (-5) then .outOfMemory else .unexpectedStatus status) := by
  have recognised (s : MmStatus) : MmStatus.ofRegister s.register = some s :=
    MmStatus.ofRegister_eq_some_iff.mpr rfl
  cases found : MmStatus.ofRegister status with
  | some s =>
    obtain rfl := MmStatus.ofRegister_eq_some_iff.mp found
    cases s with
    | success | noMemory => decide
    | notSupported | invalidParams | denied => exact absurd (by decide) unnamed
  | none =>
    have other : status ≠ UInt64.ofInt (-5) := by
      rintro rfl
      exact absurd (found.symm.trans (recognised .noMemory)) nofun
    simp only [faultOfStatus, found, if_neg other]

theorem faultOfStatus_assertion_iff {status : UInt64} :
    (∃ a, faultOfStatus status = .assertion a) ↔ status ∉ named := by
  constructor
  · rintro ⟨a, fault⟩ member
    obtain ⟨unsupported, invalid, denied⟩ := faultOfStatus_named
    simp only [named, List.mem_cons, List.not_mem_nil, or_false] at member
    rcases member with rfl | rfl | rfl
    · cases unsupported.symm.trans fault
    · cases invalid.symm.trans fault
    · cases denied.symm.trans fault
  · intro unnamed
    exact ⟨_, faultOfStatus_unnamed unnamed⟩

theorem ffaStatus_unnamed {s : FfaStatus} (beyond : s.code < -3) : s.register ∉ named := by
  cases s <;> revert beyond <;> decide

theorem short_unnamed {status : UInt64} (short : status.toNat < 0x100000000) : status ∉ named := by
  intro member
  have long : 0x100000000 ≤ status.toNat := by
    simp only [named, List.mem_cons, List.not_mem_nil, or_false] at member
    rcases member with rfl | rfl | rfl <;> decide
  exact absurd short (Nat.not_lt.mpr long)

end Delivery

namespace Transport

open Admission Delivery Journal

variable {monitor : Monitor ω} {message : Bytes} {capacity : Option UInt64} {m : Machine ω}
  {header : MessageHeader} {final : Registers}

/-- A request is made for this message, and the answer that its calls end with is this one. -/
def Ends (monitor : Monitor ω) (message : Bytes) (capacity : Option UInt64) (m : Machine ω)
    (final : Registers) : Prop :=
  m.session.inUse = false ∧ ∃ total times, screen m.session.buffer.length message capacity = .ok total ∧
    Delivers monitor message capacity total m
      (m.session.route.handover m.session.buffer.physicalBase :: m.session.route.resumptions times) final

theorem ends_answered (admitted : Admitted m.session.buffer.length message capacity header)
    (free : m.session.inUse = false) :
    Ends monitor message capacity m (answered monitor message capacity header.total m).1 := by
  obtain ⟨times, delivers⟩ := communicate_delivers admitted free
  exact ⟨free, header.total, times, admitted.screen, delivers⟩

theorem unsent_or_ends (monitor : Monitor ω) (message : Bytes) (capacity : Option UInt64) (m : Machine ω) :
    (∃ notes, Notes notes ∧ (communicate monitor message capacity m).2 = m.append notes) ∨
      ∃ final, Ends monitor message capacity m final := by
  cases screened : screen m.session.buffer.length message capacity with
  | error refusal => exact .inl (communicate_unsent (.inr ⟨refusal, screened⟩))
  | ok total =>
    by_cases held : m.session.inUse = true
    · exact .inl (communicate_unsent (.inl held))
    · obtain ⟨header, admitted, rfl⟩ := screen_eq_ok_iff.mp screened
      exact .inr ⟨_, ends_answered admitted (Bool.eq_false_iff.mpr held)⟩

theorem Ends.admitted (ends : Ends monitor message capacity m final) :
    ∃ header, Admitted m.session.buffer.length message capacity header ∧
      final = (answered monitor message capacity header.total m).1 := by
  obtain ⟨free, total, times, screened, delivers⟩ := ends
  obtain ⟨header, admitted, rfl⟩ := screen_eq_ok_iff.mp screened
  obtain ⟨_, other⟩ := communicate_delivers admitted free
  exact ⟨header, admitted, delivers.final_eq other⟩

theorem communicate_ends (ends : Ends monitor message capacity m final)
    (fails : succeeded m.session.route final = false) :
    (communicate monitor message capacity m).1 =
      ⟨.error (faultOfStatus (failureStatus m.session.route final)), message, capacity⟩ := by
  obtain ⟨header, admitted, rfl⟩ := ends.admitted
  have verdict : classify m.session.route (answered monitor message capacity header.total m).1 =
      .error (faultOfStatus (failureStatus m.session.route
        (answered monitor message capacity header.total m).1)) := by
    rw [classify, if_neg (by simp [fails])]
  rw [communicate_answered admitted ends.1 (Prod.eta _).symm]
  simp only [concluded, verdict]

theorem Ends.unpreempted (patient : monitor.Patient) (ends : Ends monitor message capacity m final)
    {localId : UInt16} {remote : PartitionDescriptor} (route : m.session.route = .direct localId remote) :
    final.x0 ≠ FunctionId.ffaInterrupt := by
  obtain ⟨header, _, rfl⟩ := ends.admitted
  rw [answered, route]
  exact of_decide_eq_false (patient.callRemote localId remote _ _)

theorem exists_ends_iff (recording : monitor.Recording) :
    (∃ final, Ends monitor message capacity m final) ↔
      ∃ more, calls (communicate monitor message capacity m).2.journal =
        calls m.journal ++ m.session.route.handover m.session.buffer.physicalBase :: more := by
  constructor
  · rintro ⟨final, ends⟩
    obtain ⟨header, admitted, _⟩ := ends.admitted
    exact communicate_requests recording admitted ends.1
  · rintro ⟨more, made⟩
    rcases unsent_or_ends monitor message capacity m with ⟨notes, noted, unsent⟩ | ends
    · rw [unsent, Machine.append, calls_append, noted.calls] at made
      simp at made
    · exact ends

/-- Nothing but a failed call fails an assertion. -/
theorem ends_of_assertion {a : Assertion}
    (asserts : (communicate monitor message capacity m).1.result = .error (.assertion a)) :
    ∃ final, Ends monitor message capacity m final ∧ succeeded m.session.route final = false ∧
      faultOfStatus (failureStatus m.session.route final) = .assertion a := by
  rcases communicate_cases monitor message capacity m with
    ⟨refusal, _, refused⟩ | ⟨_, _, denied⟩ | ⟨header, free, admitted, exchanged⟩
  · rw [refused] at asserts
    cases asserts
  · rw [denied] at asserts
    cases asserts
  · let final := (answered monitor message capacity header.total m).1
    have ends : Ends monitor message capacity m final := ends_answered admitted free
    cases success : succeeded m.session.route final with
    | false =>
      rw [communicate_ends ends success] at asserts
      simp only [Except.error.injEq] at asserts
      exact ⟨final, ends, success, asserts⟩
    | true =>
      have verdict : classify m.session.route final = .ok () := by rw [classify, if_pos success]
      rw [exchanged] at asserts
      simp only [concluded, final, verdict] at asserts
      unfold Except.mapError at asserts
      split at asserts <;> cases asserts

/-- Nothing that a caller declares and nothing that the partition answers makes an exchange reach
outside a slice, and an assertion is all that can fail in it. It does so just if a request is made and the
last answer on record is neither a success nor one of the three statuses that name an error of the
caller's. -/
theorem communicate_classifies (monitor : Monitor ω) (message : Bytes) (capacity : Option UInt64)
    (m : Machine ω) :
    let route := m.session.route
    let request := route.handover m.session.buffer.physicalBase
    let run := communicate monitor message capacity m
    let exchange := run.1
    let success (final : Registers) := match route with
      | .legacy => final.x0 = 0
      | .direct _ _ => final.x0 = FunctionId.ffaDirectResponse
    let status (final : Registers) := match route with
      | .legacy => final.x0
      | .direct _ _ => final.x2
    let fails (final : Registers) := Ends monitor message capacity m final ∧ ¬ success final
    let asserts := ∃ a, exchange.result = .error (.assertion a)
    communicate? monitor message capacity m = some run ∧
      ((∃ notes, Notes notes ∧ run.2 = m.append notes) ∨ ∃ final, Ends monitor message capacity m final) ∧
      (∀ final, Ends monitor message capacity m final →
        ∃ before notes, Notes notes ∧ run.2.journal = before ++ .ret final :: notes) ∧
      (monitor.Recording → ((∃ final, Ends monitor message capacity m final) ↔
        ∃ more, calls run.2.journal = calls m.journal ++ request :: more)) ∧
      (monitor.Passive → ∀ final, Ends monitor message capacity m final →
        ∃ times, calls run.2.journal = calls m.journal ++ request :: route.resumptions times) ∧
      (asserts ↔ ∃ final, fails final ∧
        status final ∉ [UInt64.ofInt (-1), UInt64.ofInt (-2), UInt64.ofInt (-3)]) ∧
      (∀ final, fails final → status final = UInt64.ofInt (-1) →
        exchange = ⟨.error (.error .unsupported), message, capacity⟩) ∧
      (∀ final, fails final → status final = UInt64.ofInt (-2) →
        exchange = ⟨.error (.error .invalidParameter), message, capacity⟩) ∧
      (∀ final, fails final → status final = UInt64.ofInt (-3) →
        exchange = ⟨.error (.error .accessDenied), message, capacity⟩) ∧
      (∀ final, fails final → ((∃ s : FfaStatus, s.code < -3 ∧ status final = s.register) ∨
        (status final).toNat < 0x100000000 ∨ status final = UInt64.ofInt (-5)) → asserts) ∧
      (∀ final a, fails final → exchange.result = .error (.assertion a) →
        a = if status final = UInt64.ofInt (-5) then .outOfMemory else .unexpectedStatus (status final)) ∧
      (monitor.Patient → ∀ final localId remote, Ends monitor message capacity m final →
        route = .direct localId remote → final.x0 ≠ FunctionId.ffaInterrupt) := by
  intro route request run exchange success status fails asserts
  have failed {final : Registers} (fail : fails final) :
      exchange = ⟨.error (faultOfStatus (status final)), message, capacity⟩ :=
    communicate_ends fail.1 (Bool.eq_false_iff.mpr (mt succeeded_iff.mp fail.2))
  have classifies : asserts ↔ ∃ final, fails final ∧ status final ∉ named := by
    constructor
    · rintro ⟨a, asserted⟩
      obtain ⟨final, ends, failure, fault⟩ := ends_of_assertion asserted
      have unsuccessful : ¬ success final := mt succeeded_iff.mpr (Bool.eq_false_iff.mp failure)
      exact ⟨final, ⟨ends, unsuccessful⟩, faultOfStatus_assertion_iff.mp ⟨a, fault⟩⟩
    · rintro ⟨final, fail, unnamed⟩
      obtain ⟨a, fault⟩ := faultOfStatus_assertion_iff.mpr unnamed
      exact ⟨a, by rw [failed fail, fault]⟩
  obtain ⟨unsupported, invalid, denied⟩ := faultOfStatus_named
  refine ⟨communicate?_eq monitor message capacity m, unsent_or_ends monitor message capacity m, ?_, exists_ends_iff, ?_,
    classifies, ?_, ?_, ?_, ?_, ?_, ?_⟩
  · rintro final ⟨_, _, _, _, delivers⟩
    exact delivers.journal
  · rintro passive final ⟨_, _, times, _, delivers⟩
    exact ⟨times, delivers.calls_eq passive.calls_call⟩
  · intro final fail one
    rw [failed fail, one, unsupported]
  · intro final fail two
    rw [failed fail, two, invalid]
  · intro final fail three
    rw [failed fail, three, denied]
  · intro final fail other
    refine classifies.mpr ⟨final, fail, ?_⟩
    rcases other with ⟨s, beyond, coded⟩ | short | five
    · exact coded ▸ ffaStatus_unnamed beyond
    · exact short_unnamed short
    · rw [five]
      decide
  · intro final a fail asserted
    rw [failed fail] at asserted
    have fault : faultOfStatus (status final) = .assertion a := Except.error.inj asserted
    have unnamed := faultOfStatus_assertion_iff.mp ⟨a, fault⟩
    exact Fault.assertion.inj (fault.symm.trans (faultOfStatus_unnamed unnamed))
  · intro patient final localId remote ends direct
    exact ends.unpreempted patient direct

open Rehearsal in
/-- A partition that is preempted once and then denies the request, with the whole code and with its lower
half alone. Whatever it answers in the end is no preemption. -/
theorem communicate_classifies_denials :
    let replies (last : Registers) : List Reply :=
      [{ ret := { x0 := FunctionId.ffaInterrupt } }, { ret := last }]
    let session : Session := { route := .direct 1 Manager.hosted, buffer := .identityMapped 0x1000 0x40 }
    let message := MessageHeader.encode ⟨EventGroup.endOfDxe, 1⟩ ++ [7]
    let run (last : Registers) := communicate (Script.nestedMonitor 0) message none
      { session := session, rest := { replies := replies last } }
    let denied : Registers := { x0 := FunctionId.ffaError, x2 := UInt64.ofInt (-3) }
    let short : Registers := { x0 := FunctionId.ffaError, x2 := 0xFFFFFFFD }
    (run denied).1 = ⟨.error (.error .accessDenied), message, none⟩ ∧
      (∃ before notes, Notes notes ∧ (run denied).2.journal = before ++ .ret denied :: notes) ∧
      (∃ times, calls (run denied).2.journal =
        { x0 := FunctionId.ffaDirectRequest, x1 := 0x18003, x3 := 0x1000 } ::
          List.replicate times { x0 := FunctionId.ffaRun, x1 := 0x80030000 }) ∧
      (run short).1.result = .error (.assertion (.unexpectedStatus 0xFFFFFFFD)) ∧
      ∀ last final, Ends (Script.nestedMonitor 0) message none
        { session := session, rest := { replies := replies last } } final → final.x0 ≠ FunctionId.ffaInterrupt := by
  intro replies session message run denied short
  let m (last : Registers) : Machine Script := { session := session, rest := { replies := replies last } }
  have passes : screen 0x40 message none = .ok 25 := rfl
  have ends (last : Registers) (answers : (answered (Script.nestedMonitor 0) message none 25 (m last)).1 = last) :
      Ends (Script.nestedMonitor 0) message none (m last) last := by
    obtain ⟨header, admitted, total⟩ := screen_eq_ok_iff.mp passes
    have shown : Ends (Script.nestedMonitor 0) message none (m last) _ := ends_answered admitted rfl
    rwa [← total, answers] at shown
  have failing (last : Registers) (error : last.x0 = FunctionId.ffaError) :
      ¬ last.x0 = FunctionId.ffaDirectResponse := by
    rw [error]
    decide
  have passive : (Script.nestedMonitor 0).Passive := ⟨fun _ _ => rfl, fun _ _ => rfl⟩
  have full := ends denied (by decide +kernel)
  have half := ends short (by decide +kernel)
  obtain ⟨_, _, last, _, sent, _, _, _, denies, _⟩ :=
    communicate_classifies (Script.nestedMonitor 0) message none (m denied)
  obtain ⟨_, _, _, _, _, _, _, _, _, others, assertion, _⟩ :=
    communicate_classifies (Script.nestedMonitor 0) message none (m short)
  obtain ⟨a, asserts⟩ := others short ⟨half, failing short rfl⟩ (.inr (.inl (by decide)))
  obtain rfl := assertion short a ⟨half, failing short rfl⟩ asserts
  refine ⟨denies denied ⟨full, failing denied rfl⟩ rfl, last denied full, sent passive denied full, asserts, ?_⟩
  intro last final ends
  obtain ⟨_, _, _, _, _, _, _, _, _, _, _, unpreempted⟩ :=
    communicate_classifies (Script.nestedMonitor 0) message none (m last)
  exact unpreempted (Script.patient 0) final 1 Manager.hosted ends rfl

end Transport

end StandaloneMm
