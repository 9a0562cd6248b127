import Mathlib.Logic.Function.Basic
import StandaloneMm.Proofs.Attempt

/-! The words that name a service in a partition query: the sixteen bytes of its text, four at a time. No
two services have the same words and no words are left over, so the manager answers for one service alone. -/
namespace StandaloneMm

namespace Guid

/-- The bytes in the order of the text, every field most significant byte first. -/
def textOrder (g : Guid) : Bytes :=
  bigEndian 4 g.data1.toNat ++ bigEndian 2 g.data2.toNat ++ bigEndian 2 g.data3.toNat ++
    bigEndian 8 g.data4.toNat

/-- The word at a place of some bytes, most significant byte first. -/
def bigWord (bytes : Bytes) (i : Nat) : UInt32 := UInt32.ofNat (ofBigEndian ((bytes.drop (4 * i)).take 4))

/-- The sums wrap, and the differences wrap back. -/
theorem rotateFields_eq (b c : UInt16) : rotateFields b c = (c, b) := by
  have second : b + c - c = b := UInt16.add_sub_cancel b c
  have first : b + c - b = c := by rw [UInt16.add_comm, UInt16.add_sub_cancel]
  rw [rotateFields]
  simp only [second, first]

theorem swapBytes_word {bytes : Bytes} (length : bytes.length = 4) :
    swapBytes (UInt32.ofNat (ofLittleEndian bytes)) = UInt32.ofNat (ofBigEndian bytes) := by
  rw [swapBytes, toNat_word32 length, littleEndian_eq length rfl]

theorem toNat_joined (high low : UInt16) :
    (high.toUInt32 <<< 16 ||| low.toUInt32).toNat = high.toNat * 0x10000 + low.toNat := by
  have fits := high.toNat_lt
  have shifted : (high.toUInt32 <<< 16).toNat = high.toNat <<< 16 := by
    rw [UInt32.toNat_shiftLeft, UInt16.toNat_toUInt32, Nat.shiftLeft_eq, Nat.shiftLeft_eq]
    exact Nat.mod_eq_of_lt (by simp; omega)
  rw [UInt32.toNat_or, shifted, UInt16.toNat_toUInt32, ← Nat.shiftLeft_add_eq_or_of_lt low.toNat_lt,
    Nat.shiftLeft_eq]

theorem quarters {bytes front middle tail : Bytes} (whole : bytes = front ++ (middle ++ tail))
    (first : front.length = 4) (second : middle.length = 4) :
    (bytes.drop (4 * 0)).take 4 = front ∧ (bytes.drop (4 * 1)).take 4 = middle ∧
      ∀ i, bytes.drop (4 * (i + 2)) = tail.drop (4 * i) := by
  subst whole
  refine ⟨?_, take_drop_field first second, fun i => ?_⟩
  · rw [← first, Nat.mul_zero, List.drop_zero, List.take_left]
  · have ahead : 4 * (i + 2) = (front ++ middle).length + 4 * i := by
      rw [List.length_append, first, second]
      omega
    rw [ahead, ← List.append_assoc, List.drop_length_add_append]

section

variable (g : Guid)

theorem bigWord_textOrder : bigWord g.textOrder 0 = g.data1 ∧
    bigWord g.textOrder 1 = g.data2.toUInt32 <<< 16 ||| g.data3.toUInt32 ∧
    ∀ i, bigWord g.textOrder (i + 2) = bigWord (bigEndian 8 g.data4.toNat) i := by
  have whole : g.textOrder = bigEndian 4 g.data1.toNat ++
      ((bigEndian 2 g.data2.toNat ++ bigEndian 2 g.data3.toNat) ++ bigEndian 8 g.data4.toNat) := by
    simp only [textOrder, List.append_assoc]
  obtain ⟨first, second, last⟩ := quarters whole (by simp) (by simp)
  have joined : ofBigEndian (bigEndian 2 g.data2.toNat ++ bigEndian 2 g.data3.toNat) =
      (g.data2.toUInt32 <<< 16 ||| g.data3.toUInt32).toNat := by
    rw [ofBigEndian_append, ofBigEndian_of_fits g.data2.toNat_lt, ofBigEndian_of_fits g.data3.toNat_lt,
      length_bigEndian, toNat_joined]
  refine ⟨?_, ?_, fun i => ?_⟩
  · rw [bigWord, first, ofBigEndian_of_fits g.data1.toNat_lt, UInt32.ofNat_toNat]
  · rw [bigWord, second, joined, UInt32.ofNat_toNat]
  · rw [bigWord, last, bigWord]

theorem bigWord_encode (i : Nat) : bigWord g.encode (i + 2) = bigWord (bigEndian 8 g.data4.toNat) i := by
  have whole : g.encode = littleEndian 4 g.data1.toNat ++
      ((littleEndian 2 g.data2.toNat ++ littleEndian 2 g.data3.toNat) ++ bigEndian 8 g.data4.toNat) := by
    simp only [encode, List.append_assoc]
  obtain ⟨_, _, last⟩ := quarters whole (by simp) (by simp)
  rw [bigWord, last, bigWord]

/-- The interior fields lie in memory with their low bytes first, so that read as one little-endian word they
would stand the wrong way round; they have changed places before. -/
theorem words_eq : g.words = ⟨g.data1, g.data2.toUInt32 <<< 16 ||| g.data3.toUInt32,
    bigWord (bigEndian 8 g.data4.toNat) 0, bigWord (bigEndian 8 g.data4.toNat) 1⟩ := by
  let turned : Guid := { g with data2 := g.data3, data3 := g.data2 }
  have whole : turned.encode = littleEndian 4 g.data1.toNat ++
      ((littleEndian 2 g.data3.toNat ++ littleEndian 2 g.data2.toNat) ++ bigEndian 8 g.data4.toNat) := by
    simp only [turned, encode, List.append_assoc]
  obtain ⟨first, second, last⟩ := quarters whole (by simp) (by simp)
  have joined : ofLittleEndian (littleEndian 2 g.data3.toNat ++ littleEndian 2 g.data2.toNat) =
      (g.data2.toUInt32 <<< 16 ||| g.data3.toUInt32).toNat := by
    rw [ofLittleEndian_append, ofLittleEndian_of_fits g.data3.toNat_lt, ofLittleEndian_of_fits g.data2.toNat_lt,
      length_littleEndian, toNat_joined, Nat.add_comm, Nat.mul_comm]
  have swapped (i : Nat) (inside : i < 2) :
      swapBytes (UInt32.ofNat (ofLittleEndian ((turned.encode.drop (4 * (i + 2))).take 4))) =
        bigWord (bigEndian 8 g.data4.toNat) i := by
    rw [last]
    exact swapBytes_word (by simp; omega)
  simp only [words, rotateFields_eq]
  rw [first, second, swapped 0 (by decide), swapped 1 (by decide), word32_littleEndian, joined,
    UInt32.ofNat_toNat]

theorem toNat_halves : (bigWord (bigEndian 8 g.data4.toNat) 0).toNat = g.data4.toNat / 0x100000000 ∧
    (bigWord (bigEndian 8 g.data4.toNat) 1).toNat = g.data4.toNat % 0x100000000 := by
  let high := (bigEndian 8 g.data4.toNat).take 4
  let low := (bigEndian 8 g.data4.toNat).drop 4
  have highLength : high.length = 4 := by simp [high]
  have lowLength : low.length = 4 := by simp [low]
  have highFits := ofBigEndian_lt high
  have lowFits := ofBigEndian_lt low
  have whole : ofBigEndian high * Nat.pow 256 4 + ofBigEndian low = g.data4.toNat := by
    rw [← lowLength, ← ofBigEndian_append, List.take_append_drop, ofBigEndian_of_fits g.data4.toNat_lt]
  rw [highLength] at highFits
  rw [lowLength] at lowFits
  have one : (bigWord (bigEndian 8 g.data4.toNat) 0).toNat = ofBigEndian high :=
    UInt32.toNat_ofNat_of_lt' highFits
  have two : (bigWord (bigEndian 8 g.data4.toNat) 1).toNat = ofBigEndian low := by
    rw [bigWord, List.take_of_length_le (by simp)]
    exact UInt32.toNat_ofNat_of_lt' lowFits
  have size : Nat.pow 256 4 = 0x100000000 := rfl
  rw [size] at whole highFits lowFits
  omega

end

def Words.service (w : Words) : Guid where
  data1 := w.w0
  data2 := UInt16.ofNat (w.w1.toNat / 0x10000)
  data3 := UInt16.ofNat (w.w1.toNat % 0x10000)
  data4 := UInt64.ofNat (w.w2.toNat * 0x100000000 + w.w3.toNat)

theorem service_words (g : Guid) : g.words.service = g := by
  obtain ⟨high, low⟩ := g.toNat_halves
  have joined := toNat_joined g.data2 g.data3
  have fits := g.data3.toNat_lt
  have second : (g.data2.toUInt32 <<< 16 ||| g.data3.toUInt32).toNat / 0x10000 = g.data2.toNat := by omega
  have third : (g.data2.toUInt32 <<< 16 ||| g.data3.toUInt32).toNat % 0x10000 = g.data3.toNat := by omega
  have fourth : g.data4.toNat / 0x100000000 * 0x100000000 + g.data4.toNat % 0x100000000 = g.data4.toNat := by
    omega
  rw [words_eq]
  simp only [Words.service, high, low, second, third, fourth, UInt16.ofNat_toNat, UInt64.ofNat_toNat]

theorem words_service (w : Words) : w.service.words = w := by
  have interior := w.w1.toNat_lt
  have upper := w.w2.toNat_lt
  have lower := w.w3.toNat_lt
  have secondFits : w.w1.toNat / 0x10000 < 0x10000 := by omega
  have thirdFits : w.w1.toNat % 0x10000 < 0x10000 := by omega
  have fourthFits : w.w2.toNat * 0x100000000 + w.w3.toNat < 0x10000000000000000 := by omega
  have second : w.service.data2.toNat = w.w1.toNat / 0x10000 := UInt16.toNat_ofNat_of_lt' secondFits
  have third : w.service.data3.toNat = w.w1.toNat % 0x10000 := UInt16.toNat_ofNat_of_lt' thirdFits
  have fourth : w.service.data4.toNat = w.w2.toNat * 0x100000000 + w.w3.toNat :=
    UInt64.toNat_ofNat_of_lt' fourthFits
  have joined := toNat_joined w.service.data2 w.service.data3
  obtain ⟨high, low⟩ := w.service.toNat_halves
  have one : w.service.data2.toUInt32 <<< 16 ||| w.service.data3.toUInt32 = w.w1 :=
    UInt32.toNat_inj.mp (by omega)
  have two : bigWord (bigEndian 8 w.service.data4.toNat) 0 = w.w2 := UInt32.toNat_inj.mp (by omega)
  have three : bigWord (bigEndian 8 w.service.data4.toNat) 1 = w.w3 := UInt32.toNat_inj.mp (by omega)
  rw [words_eq, one, two, three]
  rfl

theorem words_bijective : Function.Bijective words :=
  Function.bijective_iff_has_inverse.mpr ⟨Words.service, service_words, words_service⟩

end Guid

namespace Discovery

open Guid (bigWord)
open Manager (monitor queried success)

variable {ω : Type}

theorem queried_iff {s : Manager} (free : s.rxHeld = false) (service : Guid) :
    (queried s service).x0 = FunctionId.ffaSuccess32 ↔ service = serviceGuid := by
  have refused : FfaStatus.invalidParameters.refusal.x0 ≠ FunctionId.ffaSuccess32 := by decide
  rw [queried, free, if_neg Bool.false_ne_true]
  by_cases named : service = serviceGuid
  · rw [if_pos (congrArg Guid.words named)]
    exact iff_of_true rfl named
  · have other : service.words ≠ serviceGuid.words := fun same => named (Guid.words_bijective.injective same)
    rw [if_neg other]
    exact iff_of_false refused named

/-- The words of a query are the text of the service that it is for, read as four big-endian words; they are
the words of no other service, so that the manager answers such a query just if it is for the service that
it hosts. -/
theorem infoRequest_names_service :
    (∀ g : Guid, g.words =
      ⟨bigWord g.textOrder 0, bigWord g.textOrder 1, bigWord g.textOrder 2, bigWord g.textOrder 3⟩) ∧
    (∀ g : Guid, g.words.w0 = g.data1 ∧ g.words.w1 = g.data2.toUInt32 <<< 16 ||| g.data3.toUInt32 ∧
      g.words.w2 = bigWord g.encode 2 ∧ g.words.w3 = bigWord g.encode 3) ∧
    (∀ b c : UInt16, Guid.rotateFields b c = (c, b)) ∧
    Function.Bijective Guid.words ∧
    ∀ (loop : EventLoop ω) (m : Machine ω) (pages : ScratchPages) (g : Guid),
      m.manager.scratch = some pages → m.manager.rxHeld = false →
      ((m.trap (monitor loop) (infoRequest g)).1.x0 = FunctionId.ffaSuccess32 ↔ g = serviceGuid) := by
  refine ⟨fun g => ?_, fun g => ?_, Guid.rotateFields_eq, Guid.words_bijective, ?_⟩
  · obtain ⟨first, second, last⟩ := g.bigWord_textOrder
    rw [Guid.words_eq, first, second, last 0, last 1]
  · rw [Guid.words_eq, g.bigWord_encode 0, g.bigWord_encode 1]
    exact ⟨rfl, rfl, rfl, rfl⟩
  · intro loop m pages g lent free
    obtain ⟨answer, _⟩ := Manager.trap_infoRequest loop g lent
    rw [answer]
    exact queried_iff free g

/-- The hosted service with its interior fields exchanged is another one. -/
theorem infoRequest_names_service_exchanged :
    let loop : EventLoop Unit := ⟨.spm, .identityMapped 0x1000 0x40, {}⟩
    let pages : ScratchPages := ⟨0x8000, 0x9000⟩
    let m : Machine Unit := { manager := { scratch := some pages }, rest := () }
    let exchanged : Guid := { serviceGuid with data2 := serviceGuid.data3, data3 := serviceGuid.data2 }
    m.manager.scratch = some pages ∧ m.manager.rxHeld = false ∧
      (m.trap (monitor loop) (infoRequest serviceGuid)).1.x0 = FunctionId.ffaSuccess32 ∧
      (m.trap (monitor loop) (infoRequest exchanged)).1.x0 ≠ FunctionId.ffaSuccess32 := by
  intro loop pages m exchanged
  obtain ⟨_, _, _, _, answers⟩ := infoRequest_names_service (ω := Unit)
  have other : exchanged ≠ serviceGuid := by decide
  exact ⟨rfl, rfl, (answers loop m pages serviceGuid rfl rfl).mpr rfl,
    mt (answers loop m pages exchanged rfl rfl).mp other⟩

end Discovery
end StandaloneMm
