import StandaloneMm.Proofs.Records
import StandaloneMm.Proofs.Version
import StandaloneMm.Secure.Compatibility
import StandaloneMm.Session.Negotiation

/-! A version word in the hands of either world. Each world asks once and reads the low half of the answer;
the session falls back just where the partition is left with the older calls beside the new ones, and the
words of the two older interfaces are never the same. -/
namespace StandaloneMm

open Journal

namespace Version

variable {word word' : UInt64}

/-- A version is read from the lower bits of a word; its top bit counts for the missing call alone. -/
theorem ofRegister_spoken (spoken : word.toUInt32 ≠ notSupported) :
    let bits := (word.toUInt32 &&& 0x7FFFFFFF).toNat
    ofRegister word = some ⟨UInt16.ofNat (bits / 0x10000), UInt16.ofNat (bits % 0x10000)⟩ := by
  intro bits
  have low : word.toUInt32.toNat = word.toNat % 0x100000000 := UInt64.toNat_toUInt32 word
  have masked : bits = word.toNat % 0x100000000 % 0x80000000 := by
    rw [← low]
    exact (UInt32.toNat_and ..).trans (Nat.and_two_pow_sub_one_eq_mod _ 31)
  have other : ¬ word.toNat % 0x100000000 = 0xFFFFFFFF := fun ones =>
    spoken (UInt32.toNat_inj.mp (low.trans ones))
  have major : word.toNat / 0x10000 % 0x8000 = bits / 0x10000 := by omega
  have minor : word.toNat % 0x10000 = bits % 0x10000 := by omega
  rw [ofRegister_eq, if_neg other, major, minor]

/-- Words that say the same of a version: their low halves agree, up to the top bit if neither of them stands
for a missing call. -/
def Alike (word word' : UInt64) : Prop :=
  word.toUInt32 = word'.toUInt32 ∨
    word.toUInt32 ≠ notSupported ∧ word'.toUInt32 ≠ notSupported ∧
      word.toUInt32 &&& 0x7FFFFFFF = word'.toUInt32 &&& 0x7FFFFFFF

theorem ofRegister_alike (alike : Alike word word') : ofRegister word = ofRegister word' := by
  rcases alike with same | ⟨spoken, spoken', same⟩
  · simp only [ofRegister, same]
  · rw [ofRegister_spoken spoken, ofRegister_spoken spoken', same]

theorem ofRegister_silent (silent : word.toUInt32 = notSupported) : ofRegister word = none := if_pos silent

theorem ofRegister_of_pack {v : Version} (fits : v.major.toNat < 0x8000) (spoken : word.toUInt32 ≠ notSupported)
    (carries : word.toUInt32 &&& 0x7FFFFFFF = v.pack) : ofRegister word = some v := by
  have minor := v.minor.toNat_lt
  have packed := toNat_pack v
  have first : v.pack.toNat / 0x10000 = v.major.toNat := by omega
  have second : v.pack.toNat % 0x10000 = v.minor.toNat := by omega
  rw [ofRegister_spoken spoken, carries, first, second, UInt16.ofNat_toNat, UInt16.ofNat_toNat]

theorem satisfies_iff {offered required : Version} : offered.satisfies required = true ↔
    offered.major = required.major ∧ required.minor ≤ offered.minor := by
  rw [satisfies, Bool.and_eq_true, decide_eq_true_iff, decide_eq_true_iff]

end Version

namespace Negotiation

variable {word : UInt64} {v : Version}

theorem judge_silent (silent : Version.ofRegister word = none) (asked : Convention) :
    judge asked word = .silent := by
  simp only [judge, silent]

/-- Both conventions are spoken by versions of the first major number. Direct messages came with the minor
number after the first one. -/
theorem judge_read (read : Version.ofRegister word = some v) (asked : Convention) : judge asked word =
    if v.major = 1 then (if asked = .legacy ∨ 1 ≤ v.minor then .agreed else .fallback) else .incompatible := by
  have any : (0 : UInt16) ≤ v.minor := UInt16.le_iff_toNat_le.mpr (Nat.zero_le _)
  simp only [judge, read, Version.satisfies_iff]
  cases asked with
  | legacy => simp [required, legacyVersion, any]
  | partitionAddressed =>
    by_cases first : v.major = 1
    · simp [required, directVersion, legacyVersion, first, any]
    · simp [required, directVersion, legacyVersion, first]

/-- What the session makes of the word in the answer. -/
def settled (asked : Convention) (word : UInt64) : Except Error Convention := (judge asked word).convention asked

theorem notes_records (v : Verdict) : Notes v.records := by
  cases v with
  | silent | agreed => exact notes_log
  | fallback | incompatible => exact notes_log.append notes_log

end Negotiation

namespace Compatibility

open Negotiation (settled)

variable {word word' : UInt64} {v : Version}

theorem judge_silent (silent : Version.ofRegister word = none) (enabled : Bool) :
    judge enabled word = .error .unsupported := by
  simp only [judge, silent]

theorem judge_read (read : Version.ofRegister word = some v) : judge true word =
    if v.major = 1 then .ok (.ffa (1 ≤ v.minor)) else .error .unsupported := by
  simp only [judge, read]
  rfl

theorem judge_disabled_read (read : Version.ofRegister word = some v) : judge false word =
    if v.major = 0 ∧ 1 ≤ v.minor then .ok .spm else .error .unsupported := by
  simp only [judge, read, Version.satisfies_iff]
  rfl

theorem settled_iff (word : UInt64) :
    (settled .partitionAddressed word = .ok .partitionAddressed ↔ judge true word = .ok (.ffa true)) ∧
      (settled .partitionAddressed word = .ok .legacy ↔ judge true word = .ok (.ffa false)) ∧
      (settled .partitionAddressed word = .error .unsupported ↔ judge true word = .error .unsupported) := by
  cases read : Version.ofRegister word with
  | none =>
    rw [settled, Negotiation.judge_silent read, judge_silent read]
    simp [Negotiation.Verdict.convention]
  | some v =>
    rw [settled, Negotiation.judge_read read, judge_read read]
    by_cases first : v.major = 1
    · by_cases later : 1 ≤ v.minor
      · simp [first, later, Negotiation.Verdict.convention]
      · simp [first, later, Negotiation.Verdict.convention]
    · simp [first, Negotiation.Verdict.convention]

/-- The legacy convention takes the first major number, and the partition's older interface none. -/
theorem not_settled_and_judged {convention : Convention} {abi : PartitionAbi}
    (settles : settled .legacy word = .ok convention) : judge false word ≠ .ok abi := by
  cases read : Version.ofRegister word with
  | none =>
    rw [judge_silent read]
    nofun
  | some v =>
    rw [settled, Negotiation.judge_read read] at settles
    by_cases first : v.major = 1
    · have served : ¬ (v.major = 0 ∧ 1 ≤ v.minor) := by simp [first]
      rw [judge_disabled_read read, if_neg served]
      nofun
    · rw [if_neg first] at settles
      cases settles

theorem notes_verdictRecord (verdict : Except Error PartitionAbi) : Notes [verdictRecord verdict] := by
  cases verdict with
  | ok | error => exact notes_log

end Compatibility

open Compatibility (check judge)
open Negotiation (negotiate settled)

/-- The two worlds read the same thing in the same word. Each makes one call and its answer decides; with the
same answer in both, the session addresses the partition just if the partition speaks nothing but direct
messages, falls back just if it speaks the older way as well, and neither comes up if the other does not. -/
theorem version_word_read_alike {ω ω' : Type} :
    (∀ (monitor : Monitor ω) (asked : Convention) (m : Machine ω),
      let called := m.trap monitor (Negotiation.request asked)
      ∃ notes, Notes notes ∧
        negotiate monitor asked m = (settled asked called.1.x0, called.2.append notes)) ∧
    (∀ (monitor : Monitor ω) (enabled : Bool) (m : Machine ω),
      let called := m.trap monitor (Compatibility.request enabled)
      ∃ notes, Notes notes ∧
        check monitor enabled m = (judge enabled called.1.x0, called.2.append notes)) ∧
    (∀ (normal : Monitor ω) (secure : Monitor ω') (m : Machine ω) (m' : Machine ω'),
      let settles := (negotiate normal .partitionAddressed m).1
      let checks := (check secure true m').1
      (m.trap normal (Negotiation.request .partitionAddressed)).1.x0 =
        (m'.trap secure (Compatibility.request true)).1.x0 →
      (settles = .ok .partitionAddressed ↔ checks = .ok (.ffa true)) ∧
        (settles = .ok .legacy ↔ checks = .ok (.ffa false)) ∧
        (settles = .error .unsupported ↔ checks = .error .unsupported)) ∧
    (∀ (word word' : UInt64) (asked : Convention) (enabled : Bool), Version.Alike word word' →
      settled asked word = settled asked word' ∧ judge enabled word = judge enabled word') ∧
    (∀ (word : UInt64) (asked : Convention) (enabled : Bool), word.toUInt32 = 0xFFFFFFFF →
      settled asked word = .error .unsupported ∧ judge enabled word = .error .unsupported) ∧
    (∀ (v : Version) (word : UInt64), v.major.toNat < 0x8000 → word.toUInt32 ≠ 0xFFFFFFFF →
      word.toUInt32 &&& 0x7FFFFFFF = v.pack → Version.ofRegister word = some v) ∧
    ∀ (word : UInt64) (convention : Convention) (abi : PartitionAbi),
      settled .legacy word = .ok convention → judge false word ≠ .ok abi := by
  refine ⟨fun monitor asked m => ?_, fun monitor enabled m => ?_, ?_,
    fun word word' asked enabled alike => ?_, fun word asked enabled silent => ?_,
    fun v word fits spoken carries => ?_, fun word convention abi settles => ?_⟩
  · exact ⟨_, Negotiation.notes_records _, rfl⟩
  · exact ⟨_, Compatibility.notes_verdictRecord _, rfl⟩
  · intro normal secure m m' settles checks same
    have negotiated : settles =
        settled .partitionAddressed (m.trap normal (Negotiation.request .partitionAddressed)).1.x0 := rfl
    have checked : checks = judge true (m'.trap secure (Compatibility.request true)).1.x0 := rfl
    rw [negotiated, checked, same]
    exact Compatibility.settled_iff _
  · have read := Version.ofRegister_alike alike
    simp only [settled, Negotiation.judge, judge, read, and_self]
  · have none := Version.ofRegister_silent silent
    rw [settled, Negotiation.judge_silent none, Compatibility.judge_silent none]
    exact ⟨rfl, rfl⟩
  · exact Version.ofRegister_of_pack fits spoken carries
  · exact Compatibility.not_settled_and_judged settles

/-- Version 1.1 under a set top bit and a filled upper half, in the hands of either world, and a major number
that fills the bits it has. -/
theorem version_word_read_alike_dirty :
    let word : UInt64 := 0x1234567880010001
    let answers : Monitor Unit := ⟨fun _ m => ({ x0 := word }, m), fun _ => 0⟩
    let m : Machine Unit := { rest := () }
    (m.trap answers (Negotiation.request .partitionAddressed)).1.x0 =
        (m.trap answers (Compatibility.request true)).1.x0 ∧
      ((negotiate answers .partitionAddressed m).1 = .ok .partitionAddressed ↔
        (check answers true m).1 = .ok (.ffa true)) ∧
      Version.Alike word 0x10001 ∧ settled .partitionAddressed word = settled .partitionAddressed 0x10001 ∧
      Version.ofRegister word = some ⟨1, 1⟩ ∧ Version.ofRegister 0x7FFFFFFF = some ⟨0x7FFF, 0xFFFF⟩ ∧
      settled .legacy 0xFFFFFFFFFFFFFFFF = .error .unsupported ∧
      settled .legacy word = .ok .legacy ∧ judge false word ≠ .ok .spm := by
  intro word answers m
  obtain ⟨_, _, agree, alike, silent, packed, older⟩ := @version_word_read_alike Unit Unit
  have same : Version.Alike word 0x10001 := .inr (by decide)
  have agreed : Negotiation.judge .legacy word = .agreed := by decide
  have settles : settled .legacy word = .ok .legacy :=
    congrArg (Negotiation.Verdict.convention .legacy) agreed
  exact ⟨rfl, (agree answers answers m m rfl).1, same, (alike word 0x10001 .partitionAddressed true same).1,
    packed ⟨1, 1⟩ word (by decide) (by decide) (by decide),
    packed ⟨0x7FFF, 0xFFFF⟩ 0x7FFFFFFF (by decide) (by decide) (by decide),
    (silent 0xFFFFFFFFFFFFFFFF .legacy false (by decide)).1, settles, older word .legacy .spm settles⟩

end StandaloneMm
