import StandaloneMm.Proofs.Confinement

/-! The checks in front of an exchange. A message that fails one is answered on the spot, by the first
check that it fails, and whoever lives behind the call never learns of it; a message that passes them
all is sent. -/
namespace StandaloneMm

open Journal

variable {ω : Type}

/-- A world that adds to the journal and takes nothing out of it. -/
def Monitor.Recording (monitor : Monitor ω) : Prop :=
  ∀ call m, m.journal <+: (monitor.call call m).2.journal

namespace Monitor.Recording

variable {monitor : Monitor ω} (recording : monitor.Recording)

include recording

theorem trap (m : Machine ω) (call : Registers) :
    m.journal ++ [.call call] <+: (m.trap monitor call).2.journal :=
  (recording call (m.record (.call call))).trans (List.prefix_append _ _)

theorem callRemote (route : Route) (call : Registers) (m : Machine ω) :
    m.journal ++ [.call call] <+: (Transport.callRemote monitor route call m).2.journal := by
  have within : monitor.StaysWithin fun m after => m.journal <+: after.journal :=
    ⟨fun _ => List.prefix_rfl, fun first second => first.trans second, fun _ _ _ => List.prefix_append _ _,
      fun m call => (List.prefix_append _ _).trans (recording.trap m call)⟩
  have called := recording.trap m call
  cases route with
  | legacy => exact called
  | direct localId remote => exact called.trans (within.resume remote _ _ _)

end Monitor.Recording

theorem Operation.journal_performAll (monitor : Monitor ω) (operations : List Operation) (m : Machine ω) :
    (performAll monitor operations m).2.journal = m.journal := by
  induction operations generalizing m with
  | nil => rfl
  | cons operation rest ih => exact ih _

open Rehearsal in
theorem Monitor.Recording.script (depth : Nat) : (Script.nestedMonitor depth).Recording := by
  intro call m
  cases depth with
  | zero => exact List.prefix_rfl
  | succ depth =>
    let next := (m.rest.noteCall call).next
    let started := { m with
      memory := next.1.writes.foldl (Write.apply next.2.rxPage) m.memory, rest := next.2 }
    change m.journal <+: (runInner (some (Operation.performAll (Script.nestedMonitor depth)))
      next.1.nested started).journal
    cases next.1.nested with
    | nil => exact List.prefix_rfl
    | cons operation rest =>
      have kept := Operation.journal_performAll (Script.nestedMonitor depth) (operation :: rest) started
      exact kept.symm ▸ List.prefix_append _ _

/-- The registers that name the buffer, in the third of a plain call or in the fourth of a direct message
from the session's endpoint to the partition's. -/
def Route.handover (base : UInt64) : Route → Registers
  | .legacy => { x0 := FunctionId.mmCommunicate, x2 := base }
  | .direct localId remote => {
      x0 := FunctionId.ffaDirectRequest
      x1 := localId.toUInt64 <<< 16 ||| remote.id.toUInt64
      x3 := base }

theorem Delivery.request_eq_handover (route : Route) (base : UInt64) :
    request route base = route.handover base := by
  cases route <;> rfl

namespace Admission

variable {bufferLength : UInt64} {message : Bytes} {capacity : Option UInt64} {header : MessageHeader}

/-- A capacity that the shared buffer can have, if one is given. -/
def InRange (bufferLength : UInt64) (capacity : Option UInt64) : Prop :=
  ∀ c ∈ capacity, 0 < c.toNat ∧ c.toNat ≤ bufferLength.toNat

/-- A capacity that the message does not exceed, if one is given. -/
def Covers (total : Nat) (capacity : Option UInt64) : Prop := ∀ c ∈ capacity, total ≤ c.toNat

theorem any_outOfRange : capacity.any (fun c => c = 0 || bufferLength < c) = true ↔
    ¬ InRange bufferLength capacity := by
  cases capacity with
  | none => simp [InRange]
  | some c =>
    have zero : c = 0 ↔ c.toNat = 0 := UInt64.toNat_inj.symm
    simp only [InRange, Option.any_some, Bool.or_eq_true, decide_eq_true_eq, zero, UInt64.lt_iff_toNat_lt,
      Option.mem_def, Option.some.injEq, forall_eq']
    omega

theorem any_overfull {total : Nat} : capacity.any (·.toNat < total) = true ↔ ¬ Covers total capacity := by
  cases capacity <;> simp [Covers]

theorem screen_headless (short : message.length < MessageHeader.size) :
    screen bufferLength message capacity = .error .headless := by
  simp only [screen, MessageHeader.decode?, if_pos short]

section

variable (read : MessageHeader.decode? message = some header)

include read

theorem screen_capacity (outside : ¬ InRange bufferLength capacity) :
    screen bufferLength message capacity = .error .capacity := by
  simp only [screen, read, if_pos (any_outOfRange.mpr outside)]

theorem screen_overfull (inRange : InRange bufferLength capacity) (large : ¬ Covers header.total capacity) :
    screen bufferLength message capacity = .error .overfull := by
  have inside := mt any_outOfRange.mp (not_not_intro inRange)
  simp only [screen, read, if_neg inside, if_pos (any_overfull.mpr large)]

theorem screen_unfit (inRange : InRange bufferLength capacity) (covers : Covers header.total capacity)
    (unfit : header.length = 0 ∨ bufferLength.toNat < header.total) :
    screen bufferLength message capacity = .error (.unfit header) := by
  have inside := mt any_outOfRange.mp (not_not_intro inRange)
  have small := mt any_overfull.mp (not_not_intro covers)
  simp only [screen, read, if_neg inside, if_neg small, if_pos unfit]

theorem screen_truncated (inRange : InRange bufferLength capacity) (covers : Covers header.total capacity)
    (fits : ¬ (header.length = 0 ∨ bufferLength.toNat < header.total)) (short : message.length < header.total) :
    screen bufferLength message capacity = .error .truncated := by
  have inside := mt any_outOfRange.mp (not_not_intro inRange)
  have small := mt any_overfull.mp (not_not_intro covers)
  simp only [screen, read, if_neg inside, if_neg small, if_neg fits, if_pos short]

end

theorem message_unfit (read : MessageHeader.decode? message = some header) :
    (Refusal.unfit header).message bufferLength message = message.take 16 ++
      littleEndian 8 (bufferLength.toNat - MessageHeader.size) ++ message.drop MessageHeader.size := by
  have long := MessageHeader.size_le_of_decode? read
  have room : bufferLength.toNat - MessageHeader.size < UInt64.size :=
    Nat.lt_of_le_of_lt (Nat.sub_le _ _) bufferLength.toNat_lt
  have recipient : header.recipient.encode = message.take 16 := by
    have front := MessageHeader.encode_of_decode? read
    have part := congrArg (List.take 16) front
    simpa [MessageHeader.encode, MessageHeader.size, List.take_take] using part
  rw [Refusal.message, overlay_of_length_le (by simpa using long), MessageHeader.length_encode,
    MessageHeader.encode, recipient]
  simp only [UInt64.toNat_ofNat_of_lt' room]

theorem unfit_iff (read : MessageHeader.decode? message = some header) :
    header.length = 0 ∨ bufferLength.toNat < header.total ↔
      ¬ (0 < ofLittleEndian ((message.drop 16).take 8) ∧ header.total ≤ bufferLength.toNat) := by
  have empty : header.length = 0 ↔ header.length.toNat = 0 := UInt64.toNat_inj.symm
  rw [empty, MessageHeader.length_of_decode? read]
  omega

/-- The checks in terms of the header are the checks in terms of the bytes that it lies in. -/
theorem admitted_iff (read : MessageHeader.decode? message = some header) :
    Admitted bufferLength message capacity header ↔
      InRange bufferLength capacity ∧ Covers header.total capacity ∧
        (0 < ofLittleEndian ((message.drop 16).take 8) ∧ header.total ≤ bufferLength.toNat) ∧
        header.total ≤ message.length := by
  have empty : header.length = 0 ↔ header.length.toNat = 0 := UInt64.toNat_inj.symm
  have field := MessageHeader.length_of_decode? read
  constructor
  · intro admitted
    have nonempty := mt empty.mpr admitted.nonempty
    refine ⟨fun c given => ?_, fun c given => (admitted.inCapacity c given).2.2,
      ⟨by omega, admitted.inBuffer⟩, admitted.inMessage⟩
    obtain ⟨nonzero, bounded, _⟩ := admitted.inCapacity c given
    have positive := mt UInt64.toNat_inj.mp nonzero
    exact ⟨Nat.pos_of_ne_zero positive, UInt64.le_iff_toNat_le.mp bounded⟩
  · rintro ⟨inRange, covers, ⟨nonempty, inBuffer⟩, inMessage⟩
    refine ⟨read, mt empty.mp (by omega), inBuffer, inMessage, fun c given => ?_⟩
    obtain ⟨positive, bounded⟩ := inRange c given
    refine ⟨?_, UInt64.le_iff_toNat_le.mpr bounded, covers c given⟩
    rintro rfl
    exact absurd positive (by decide)

/-- The size of the part to be sent, by the bytes of the length field. -/
def sizeField (message : Bytes) : Nat :=
  min (MessageHeader.size + ofLittleEndian ((message.drop 16).take 8)) maxSize

theorem total_of_decode? (read : MessageHeader.decode? message = some header) :
    header.total = sizeField message := by
  rw [MessageHeader.total, MessageHeader.length_of_decode? read, sizeField]

theorem exists_admitted_iff : (∃ header, Admitted bufferLength message capacity header) ↔
    MessageHeader.size ≤ message.length ∧ InRange bufferLength capacity ∧
      Covers (sizeField message) capacity ∧
      (0 < ofLittleEndian ((message.drop 16).take 8) ∧ sizeField message ≤ bufferLength.toNat) ∧
      sizeField message ≤ message.length := by
  constructor
  · rintro ⟨header, admitted⟩
    have checks := (admitted_iff admitted.read).mp admitted
    rw [total_of_decode? admitted.read] at checks
    exact ⟨MessageHeader.size_le_of_decode? admitted.read, checks⟩
  · rintro ⟨headed, checks⟩
    obtain ⟨header, read⟩ := MessageHeader.decode?_isSome headed
    rw [← total_of_decode? read] at checks
    exact ⟨header, (admitted_iff read).mpr checks⟩

theorem not_admitted_of_narrow (narrow : bufferLength.toNat ≤ MessageHeader.size) :
    ¬ Admitted bufferLength message capacity header := by
  intro admitted
  have nonempty : 0 < ofLittleEndian ((message.drop 16).take 8) :=
    ((admitted_iff admitted.read).mp admitted).2.2.1.1
  have size := total_of_decode? admitted.read
  have inBuffer := admitted.inBuffer
  simp only [sizeField, MessageHeader.size, maxSize] at size narrow
  omega

end Admission

namespace Transport

open Admission Delivery

variable {monitor : Monitor ω} {m : Machine ω} {message : Bytes} {capacity : Option UInt64}
  {header : MessageHeader}

theorem communicate_requests (recording : monitor.Recording)
    (admitted : Admitted m.session.buffer.length message capacity header) (free : m.session.inUse = false) :
    ∃ more, calls (communicate monitor message capacity m).2.journal =
      calls m.journal ++ m.session.route.handover m.session.buffer.physicalBase :: more := by
  rw [← request_eq_handover]
  let call := request m.session.route m.session.buffer.physicalBase
  let ended := answered monitor message capacity header.total m
  obtain ⟨caused, journal⟩ : (offered message capacity header.total m).journal ++ [.call call] <+:
      ended.2.journal := recording.callRemote ..
  obtain ⟨records, notes, concludes⟩ := concluded_append m.session.route message header.total ended.1 ended.2
  have final : (communicate monitor message capacity m).2 = (letGo ended.2).append records := by
    rw [communicate_answered admitted free (Prod.eta ended).symm]
    exact concludes
  have whole : (communicate monitor message capacity m).2.journal =
      (offered message capacity header.total m).journal ++ [.call call] ++ caused ++ records := by
    rw [final, journal]
    rfl
  refine ⟨calls caused, ?_⟩
  rw [whole, calls_append, calls_append, calls_append, calls_offered, notes.calls, List.append_nil,
    List.append_assoc]
  rfl

theorem communicate_of_refused
    (turned : ∀ header, ¬ Admitted m.session.buffer.length message capacity header) :
    let after := (communicate monitor message capacity m).2
    calls after.journal = calls m.journal ∧ ∃ events, Notes events ∧ after = m.append events := by
  cases screened : screen m.session.buffer.length message capacity with
  | ok total =>
    obtain ⟨header, admitted, _⟩ := screen_eq_ok_iff.mp screened
    exact absurd admitted (turned header)
  | error refusal =>
    have notes := refusal.notes_records capacity
    rw [communicate_refused screened]
    refine ⟨?_, _, notes, rfl⟩
    rw [Machine.append, calls_append, notes.calls, List.append_nil]

/-- A message is sent just if it passes all the checks. One that does not is answered by the first
check that it fails, without a call or any other change. -/
theorem communicate_screens (recording : monitor.Recording) (m : Machine ω)
    (free : m.session.inUse = false) (message : Bytes) (capacity : Option UInt64) :
    let buffer := m.session.buffer.length.toNat
    let length := ofLittleEndian ((message.drop 16).take 8)
    let size := min (24 + length) maxSize
    let headed := 24 ≤ message.length
    let inRange := ∀ c ∈ capacity, 0 < c.toNat ∧ c.toNat ≤ buffer
    let covers := ∀ c ∈ capacity, size ≤ c.toNat
    let fits := 0 < length ∧ size ≤ buffer
    let passes := headed ∧ inRange ∧ covers ∧ fits ∧ size ≤ message.length
    let request := m.session.route.handover m.session.buffer.physicalBase
    let exchange := (communicate monitor message capacity m).1
    let after := (communicate monitor message capacity m).2
    (passes ↔ ∃ more, calls after.journal = calls m.journal ++ request :: more) ∧
      (¬ passes → calls after.journal = calls m.journal ∧
        ∃ events, Notes events ∧ after = m.append events) ∧
      (¬ headed → exchange = ⟨.error (.error .invalidParameter), message, capacity⟩) ∧
      (headed → ¬ inRange →
        exchange = ⟨.error (.error .bufferTooSmall), message, some m.session.buffer.length⟩) ∧
      (headed → inRange → ¬ covers →
        exchange = ⟨.error (.error .invalidParameter), message, capacity⟩) ∧
      (headed → inRange → covers → ¬ fits → exchange = ⟨.error (.error .bufferTooSmall),
        message.take 16 ++ littleEndian 8 (buffer - 24) ++ message.drop 24, capacity⟩) ∧
      (headed → inRange → covers → fits → message.length < size →
        exchange = ⟨.error (.error .invalidParameter), message, capacity⟩) ∧
      (buffer ≤ 24 → calls after.journal = calls m.journal) := by
  intro buffer length size headed inRange covers fits passes request exchange after
  have admits : (∃ header, Admitted m.session.buffer.length message capacity header) ↔ passes :=
    exists_admitted_iff
  have answers {refusal : Refusal}
      (turned : screen m.session.buffer.length message capacity = .error refusal) :
      exchange = refusal.exchange m.session.buffer.length message capacity :=
    congrArg Prod.fst (communicate_refused turned)
  have refused (fails : ¬ passes) :
      calls after.journal = calls m.journal ∧ ∃ events, Notes events ∧ after = m.append events :=
    communicate_of_refused fun header admitted => fails (admits.mp ⟨header, admitted⟩)
  refine ⟨⟨fun sent => ?_, fun sends => ?_⟩, refused, fun short => ?_, fun long outside => ?_,
    fun long inside large => ?_, fun long inside small unfit => ?_,
    fun long inside small fit cut => ?_, fun narrow => ?_⟩
  · obtain ⟨header, admitted⟩ := admits.mpr sent
    exact communicate_requests recording admitted free
  · obtain ⟨more, made⟩ := sends
    refine Classical.byContradiction fun fails => ?_
    rw [(refused fails).1] at made
    simp at made
  · exact answers (screen_headless (Nat.not_le.mp short))
  · obtain ⟨header, read⟩ := MessageHeader.decode?_isSome long
    exact answers (screen_capacity read outside)
  · obtain ⟨header, read⟩ := MessageHeader.decode?_isSome long
    have total : header.total = size := total_of_decode? read
    exact answers (screen_overfull read inside (total ▸ large))
  · obtain ⟨header, read⟩ := MessageHeader.decode?_isSome long
    have total : header.total = size := total_of_decode? read
    have turned := screen_unfit read inside (total ▸ small) ((unfit_iff read).mpr (total ▸ unfit))
    rw [answers turned, Refusal.exchange, message_unfit read]
    rfl
  · obtain ⟨header, read⟩ := MessageHeader.decode?_isSome long
    have total : header.total = size := total_of_decode? read
    have within : 0 < length ∧ header.total ≤ buffer := by rw [total]; exact fit
    have fitting := mt (unfit_iff read).mp (not_not_intro within)
    exact answers (screen_truncated read inside (total ▸ small) fitting (total ▸ cut))
  · exact (communicate_of_refused fun header => not_admitted_of_narrow narrow).1

open Rehearsal in
/-- A body one byte longer than the buffer has room for behind a header. -/
theorem communicate_screens_one_too_long :
    let buffer := SharedBuffer.identityMapped 0x1000 0x40
    let m : Machine Script := { session := { route := .legacy, buffer := buffer }, rest := {} }
    let header (length : UInt64) := MessageHeader.encode ⟨EventGroup.endOfDxe, length⟩
    let run := communicate (Script.nestedMonitor 0) (header 0x29 ++ zeros 0x29) none m
    run.1.result = .error (.error .bufferTooSmall) ∧ run.1.message = header 0x28 ++ zeros 0x29 ∧
      calls run.2.journal = [] := by
  intro buffer m header run
  obtain ⟨_, refused, _, _, _, unfit, _⟩ :=
    communicate_screens (Monitor.Recording.script 0) m rfl (header 0x29 ++ zeros 0x29) none
  have tooLong : ¬ min (24 + ofLittleEndian (((header 0x29 ++ zeros 0x29).drop 16).take 8)) maxSize ≤
      buffer.length.toNat := by decide +kernel
  have answered := unfit (by decide +kernel) nofun nofun fun fits => tooLong fits.2
  have silent := refused fun passes => tooLong passes.2.2.2.1.2
  exact ⟨congrArg Exchange.result answered,
    (congrArg Exchange.message answered).trans (by decide +kernel), silent.1⟩

end Transport

end StandaloneMm
