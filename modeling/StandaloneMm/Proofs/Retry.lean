import StandaloneMm.Proofs.Handover

/-! How a caller learns what fits. A message or a capacity that is turned away for its size comes back
with the largest one in its place, and what comes back passes the check that it failed before. -/
namespace StandaloneMm

open Journal

namespace Admission

/-- A message with a body as long as a buffer of this length can hold behind a header. -/
def longest (buffer : Nat) (message : Bytes) : Bytes :=
  message.take 16 ++ littleEndian 8 (buffer - 24) ++ message.drop 24

variable {buffer : UInt64} {message : Bytes} {capacity : Option UInt64} {header : MessageHeader}

section

variable (headed : 24 ≤ message.length)

include headed

theorem length_longest (n : Nat) : (longest n message).length = message.length := by
  simp only [longest, List.length_append, List.length_take, length_littleEndian, List.length_drop]
  omega

theorem lengthField_longest (buffer : UInt64) :
    ofLittleEndian (((longest buffer.toNat message).drop 16).take 8) = buffer.toNat - 24 := by
  have front : (message.take 16).length = 16 := by simp; omega
  have fits : buffer.toNat - 24 < Nat.pow 256 8 := Nat.lt_of_le_of_lt (Nat.sub_le _ _) buffer.toNat_lt
  rw [longest, List.append_assoc, take_drop_field front (length_littleEndian ..), ofLittleEndian_of_fits fits]

theorem sizeField_longest (wide : 24 < buffer.toNat) :
    sizeField (longest buffer.toNat message) = buffer.toNat := by
  have word := buffer.toNat_lt
  rw [sizeField, lengthField_longest headed]
  simp only [MessageHeader.size, maxSize]
  omega

end

theorem le_of_screen {size : Nat} (passes : screen buffer message capacity = .ok size) : size ≤ buffer.toNat := by
  obtain ⟨header, admitted, rfl⟩ := screen_eq_ok_iff.mp passes
  exact admitted.inBuffer

theorem screen_ne_capacity (inRange : InRange buffer capacity) (message : Bytes) :
    screen buffer message capacity ≠ .error .capacity := by
  have inside := mt any_outOfRange.mp (not_not_intro inRange)
  cases read : MessageHeader.decode? message with
  | none => simp [screen, read]
  | some header =>
    simp only [screen, read, if_neg inside]
    split
    · simp
    split
    · simp
    split <;> simp

theorem inRange_of_length (wide : 24 < buffer.toNat) (given : ∀ c ∈ capacity, c = buffer) :
    InRange buffer capacity := by
  intro c member
  rw [given c member]
  omega

section

variable (wide : 24 < buffer.toNat) (room : buffer.toNat ≤ message.length)

include wide room

/-- In a message as long as the buffer, only the declared length can be wrong, if the capacity is none or the
length of the buffer. -/
theorem screen_eq_ok_iff_of_room (given : ∀ c ∈ capacity, c = buffer) :
    screen buffer message capacity = .ok (sizeField message) ↔
      0 < ofLittleEndian ((message.drop 16).take 8) ∧ sizeField message ≤ buffer.toNat := by
  have inRange := inRange_of_length wide given
  constructor
  · intro passes
    obtain ⟨header, admitted, _⟩ := screen_eq_ok_iff.mp passes
    exact (exists_admitted_iff.mp ⟨header, admitted⟩).2.2.2.1
  · intro fits
    have covers : Covers (sizeField message) capacity := by
      intro c member
      rw [given c member]
      exact fits.2
    obtain ⟨header, admitted⟩ : ∃ header, Admitted buffer message capacity header :=
      exists_admitted_iff.mpr ⟨by simp only [MessageHeader.size]; omega, inRange, covers, fits, by omega⟩
    rw [admitted.screen, total_of_decode? admitted.read]

theorem screen_longest (given : ∀ c ∈ capacity, c = buffer) :
    screen buffer (longest buffer.toNat message) capacity = .ok buffer.toNat := by
  have headed : 24 ≤ message.length := by omega
  have size := sizeField_longest headed wide
  have long : buffer.toNat ≤ (longest buffer.toNat message).length := by rwa [length_longest headed]
  have passes := (screen_eq_ok_iff_of_room wide long given).mpr
  rw [lengthField_longest headed, size] at passes
  exact passes ⟨by omega, Nat.le_refl _⟩

theorem screen_uncapped (read : MessageHeader.decode? message = some header) :
    let length := ofLittleEndian ((message.drop 16).take 8)
    let screened := screen buffer message none
    (0 < length ∧ sizeField message ≤ buffer.toNat ∧ screened = .ok (sizeField message)) ∨
      ((length = 0 ∨ buffer.toNat < sizeField message) ∧ screened = .error (.unfit header)) := by
  intro length screened
  by_cases fits : 0 < length ∧ sizeField message ≤ buffer.toNat
  · exact .inl ⟨fits.1, fits.2, (screen_eq_ok_iff_of_room wide room (by simp)).mpr fits⟩
  · refine .inr ⟨by omega, screen_unfit read nofun nofun ((unfit_iff read).mpr ?_)⟩
    rwa [total_of_decode? read]

theorem screen_at_length (read : MessageHeader.decode? message = some header) :
    let length := ofLittleEndian ((message.drop 16).take 8)
    let screened := screen buffer message (some buffer)
    (0 < length ∧ sizeField message ≤ buffer.toNat ∧ screened = .ok (sizeField message)) ∨
      (0 < length ∧ buffer.toNat < sizeField message ∧ screened = .error .overfull) ∨
      (length = 0 ∧ sizeField message ≤ buffer.toNat ∧ screened = .error (.unfit header)) := by
  intro length screened
  have given : ∀ c ∈ some buffer, c = buffer := by simp
  have inRange := inRange_of_length wide given
  have total := total_of_decode? read
  by_cases empty : length = 0
  · have small : sizeField message ≤ buffer.toNat := by
      simp only [sizeField, MessageHeader.size]
      omega
    have covers : Covers header.total (some buffer) := by
      intro c member
      rwa [given c member, total]
    refine .inr (.inr ⟨empty, small, screen_unfit read inRange covers ((unfit_iff read).mpr fun fits => ?_)⟩)
    exact absurd empty (Nat.ne_of_gt fits.1)
  have nonempty := Nat.pos_of_ne_zero empty
  by_cases small : sizeField message ≤ buffer.toNat
  · exact .inl ⟨nonempty, small, (screen_eq_ok_iff_of_room wide room given).mpr ⟨nonempty, small⟩⟩
  · refine .inr (.inl ⟨nonempty, Nat.not_le.mp small, screen_overfull read inRange fun covers => small ?_⟩)
    exact total ▸ covers buffer rfl

end

end Admission

namespace Transport

open Admission Delivery

variable {ω : Type} {monitor : Monitor ω} {m : Machine ω} {message : Bytes} {capacity : Option UInt64}
  {header : MessageHeader}

section

variable (recording : monitor.Recording) (wide : 24 < m.session.buffer.length.toNat)
  (room : m.session.buffer.length.toNat ≤ message.length)

include recording wide room

theorem turnedAway_uncapped_iff : TurnedAway monitor message none .bufferTooSmall m ↔
    ofLittleEndian ((message.drop 16).take 8) = 0 ∨ m.session.buffer.length.toNat < sizeField message := by
  obtain ⟨header, read⟩ := MessageHeader.decode?_isSome (Nat.le_trans (Nat.le_of_lt wide) room)
  rw [turnedAway_iff recording (by decide)]
  rcases screen_uncapped wide room read with ⟨nonempty, small, passes⟩ | ⟨fails, unfit⟩
  · rw [passes]
    constructor
    · rintro ⟨_, refused, _⟩
      cases refused
    · omega
  · exact ⟨fun _ => fails, fun _ => ⟨_, unfit, rfl⟩⟩

theorem turnedAway_at_length_iff :
    (TurnedAway monitor message (some m.session.buffer.length) .invalidParameter m ↔
      m.session.buffer.length.toNat < sizeField message) ∧
    (TurnedAway monitor message (some m.session.buffer.length) .bufferTooSmall m ↔
      ofLittleEndian ((message.drop 16).take 8) = 0) := by
  obtain ⟨header, read⟩ := MessageHeader.decode?_isSome (Nat.le_trans (Nat.le_of_lt wide) room)
  rw [turnedAway_iff recording (by decide), turnedAway_iff recording (by decide)]
  rcases screen_at_length wide room read with
    ⟨nonempty, small, passes⟩ | ⟨nonempty, large, overfull⟩ | ⟨empty, small, unfit⟩
  · simp [passes, Nat.ne_of_gt nonempty, Nat.not_lt.mpr small]
  · simp [overfull, Nat.ne_of_gt nonempty, large, Refusal.error]
  · simp [unfit, empty, Nat.not_lt.mpr small, Refusal.error]

end

theorem communicate_of_unfit (recording : monitor.Recording) (wide : 24 < m.session.buffer.length.toNat)
    (room : m.session.buffer.length.toNat ≤ message.length) (given : ∀ c ∈ capacity, c = m.session.buffer.length)
    (read : MessageHeader.decode? message = some header)
    (turned : screen m.session.buffer.length message capacity = .error (.unfit header)) :
    let run := communicate monitor message capacity m
    run.1.message = longest m.session.buffer.length.toNat message ∧ run.1.capacity = capacity ∧
      Sends monitor run.1.message capacity m.session.buffer.length.toNat run.2 := by
  intro run
  have refused : run = _ := communicate_refused turned
  have rewritten : run.1.message = longest m.session.buffer.length.toNat message := by
    rw [refused]
    exact message_unfit read
  refine ⟨rewritten, by rw [refused]; rfl, (sends_iff recording).mpr ?_⟩
  rw [rewritten, refused]
  exact screen_longest wide room given

/-- A message as long as the buffer, handed in again. Without a capacity, one that was turned away for its
length is sent when it comes again, and fills the buffer. A capacity out of range becomes the length of the
buffer, which is in range for every message; then the message itself decides. If it was merely empty, it has its
longest length by then and is sent the third time. A size past the end of a word is cut there, but no buffer
that is itself shorter takes it for one that fits. -/
theorem communicate_retried (recording : monitor.Recording) (m : Machine ω) (message : Bytes)
    (wide : 24 < m.session.buffer.length.toNat) (room : m.session.buffer.length.toNat ≤ message.length) :
    let buffer := m.session.buffer.length
    let length := ofLittleEndian ((message.drop 16).take 8)
    let size := min (24 + length) maxSize
    (TurnedAway monitor message none .bufferTooSmall m ↔ length = 0 ∨ buffer.toNat < size) ∧
    (TurnedAway monitor message none .bufferTooSmall m →
      let first := communicate monitor message none m
      first.1.message = longest buffer.toNat message ∧
        Sends monitor first.1.message none buffer.toNat first.2) ∧
    (∀ message capacity sent, screen buffer message capacity = .ok sent → sent ≤ buffer.toNat) ∧
    (∀ c, c = 0 ∨ buffer < c →
      let first := communicate monitor message (some c) m
      let second := communicate monitor first.1.message first.1.capacity first.2
      TurnedAway monitor message (some c) .bufferTooSmall m ∧
      first.1.message = message ∧ first.1.capacity = some buffer ∧
      (Sends monitor message (some buffer) size first.2 ↔ 0 < length ∧ size ≤ buffer.toNat) ∧
      (TurnedAway monitor message (some buffer) .invalidParameter first.2 ↔ buffer.toNat < size) ∧
      (TurnedAway monitor message (some buffer) .bufferTooSmall first.2 ↔ length = 0) ∧
      (length = 0 → second.1.message = longest buffer.toNat message ∧ second.1.capacity = some buffer ∧
        Sends monitor second.1.message (some buffer) buffer.toNat second.2)) ∧
    (∀ message, screen buffer message (some buffer) ≠ .error .capacity) ∧
    (buffer.toNat < maxSize → (size ≤ buffer.toNat ↔ 24 + length ≤ buffer.toNat)) := by
  intro buffer length size
  obtain ⟨header, read⟩ := MessageHeader.decode?_isSome (Nat.le_trans (Nat.le_of_lt wide) room)
  have given : ∀ c ∈ some buffer, c = buffer := by simp
  have turned := turnedAway_uncapped_iff recording wide room
  refine ⟨turned, fun turnedAway => ?_, fun _ _ _ => le_of_screen, fun c outside => ?_,
    screen_ne_capacity (inRange_of_length wide given), fun narrow => ?_⟩
  · rcases screen_uncapped wide room read with ⟨nonempty, small, _⟩ | ⟨_, unfit⟩
    · have fails := turned.mp turnedAway
      omega
    · obtain ⟨rewritten, _, sends⟩ := communicate_of_unfit recording wide room (by simp) read unfit
      exact ⟨rewritten, sends⟩
  · intro first second
    have outOfRange : ¬ InRange buffer (some c) := by
      intro inside
      obtain ⟨positive, bounded⟩ := inside c rfl
      rcases outside with rfl | above
      · exact absurd positive (by decide)
      · exact absurd bounded (Nat.not_le.mpr (UInt64.lt_iff_toNat_lt.mp above))
    let later := m.append (Refusal.capacity.records (some c))
    have refused : first = (⟨.error (.error .bufferTooSmall), message, some buffer⟩, later) :=
      communicate_refused (screen_capacity read outOfRange)
    have again : second = communicate monitor message (some buffer) later := by simp only [second, refused]
    obtain ⟨tooLarge, tooSmall⟩ := turnedAway_at_length_iff (m := later) recording wide room
    rw [again, refused]
    refine ⟨(turnedAway_iff recording (by decide)).mpr ⟨_, screen_capacity read outOfRange, rfl⟩, rfl, rfl,
      (sends_iff recording).trans (screen_eq_ok_iff_of_room wide room given), tooLarge, tooSmall, fun empty => ?_⟩
    rcases screen_at_length wide room read with ⟨nonempty, _⟩ | ⟨nonempty, _⟩ | ⟨_, _, unfit⟩
    · exact absurd empty (Nat.ne_of_gt nonempty)
    · exact absurd empty (Nat.ne_of_gt nonempty)
    · exact communicate_of_unfit (m := later) recording wide room given read unfit
  · simp only [size]
    omega

open Rehearsal in
/-- An empty message in a slice of the buffer's length, without a capacity and with one that is too large. -/
theorem communicate_retried_empty :
    let monitor := Script.nestedMonitor 0
    let m : Machine Script :=
      { session := { route := .legacy, buffer := .identityMapped 0x1000 0x40 }, rest := {} }
    let slice (length : UInt64) := MessageHeader.encode ⟨EventGroup.endOfDxe, length⟩ ++ zeros 0x28
    let found := communicate monitor (slice 0) none m
    let first := communicate monitor (slice 0) (some 0x41) m
    let second := communicate monitor first.1.message first.1.capacity first.2
    TurnedAway monitor (slice 0) none .bufferTooSmall m ∧ found.1.message = slice 0x28 ∧
      Sends monitor found.1.message none 0x40 found.2 ∧
      first.1.capacity = some 0x40 ∧ TurnedAway monitor (slice 0) (some 0x40) .bufferTooSmall first.2 ∧
      second.1.message = slice 0x28 ∧ Sends monitor second.1.message (some 0x40) 0x40 second.2 := by
  intro monitor m slice found first second
  obtain ⟨turned, again, _, capped, _⟩ :=
    communicate_retried (Monitor.Recording.script 0) m (slice 0) (by decide) (by decide +kernel)
  have empty : ofLittleEndian (((slice 0).drop 16).take 8) = 0 := by decide +kernel
  have filled : longest 0x40 (slice 0) = slice 0x28 := by decide +kernel
  have turnedAway := turned.mpr (.inl empty)
  obtain ⟨rewritten, sent⟩ := again turnedAway
  obtain ⟨_, _, learned, _, _, refused, resent⟩ := capped 0x41 (.inr (by decide))
  obtain ⟨rewritten', _, sent'⟩ := resent empty
  exact ⟨turnedAway, rewritten.trans filled, sent, learned, refused.mpr empty, rewritten'.trans filled, sent'⟩

end Transport

end StandaloneMm
