import StandaloneMm.Proofs.CarryOver
import StandaloneMm.Proofs.Collection
import StandaloneMm.Proofs.Reply

/-! Where collected descriptors come from. The collector compares the length that the second reply
announces with the room it has made for it. How far that reply reaches by its own header is not asked: what
it announces beyond that is taken from the zeros that the session has left behind it. -/
namespace StandaloneMm

namespace Delivery

/-- A message of some size that a reply was taken over into. -/
def filled (reply : Bytes) (size : Nat) : Bytes := reply.take (declared reply) ++ zeros (size - declared reply)

variable {reply : Bytes} {size : Nat} (inBuffer : declared reply ≤ reply.length)

include inBuffer

theorem length_filled (inMessage : declared reply ≤ size) : (filled reply size).length = size := by
  rw [filled, List.length_append, List.length_take, length_zeros]
  omega

theorem getElem?_filled {i : Nat} (inside : i < size) :
    (filled reply size)[i]? = if i < declared reply then reply[i]? else some 0 := by
  have taken : (reply.take (declared reply)).length = declared reply := by
    rw [List.length_take, Nat.min_eq_left inBuffer]
  by_cases carried : i < declared reply
  · rw [filled, List.getElem?_append_left (by omega), List.getElem?_take_of_lt carried, if_pos carried]
  · have behind : i - (reply.take (declared reply)).length < size - declared reply := by omega
    rw [filled, List.getElem?_append_right (by omega), zeros, List.getElem?_replicate_of_lt behind, if_neg carried]

end Delivery

namespace Transport

open Admission Delivery

variable {ω : Type} {monitor : Monitor ω} {message : Bytes} {capacity : Option UInt64} {m : Machine ω}

theorem communicate_of_ok (confined : monitor.Confined)
    (taken : (communicate monitor message capacity m).1.result = .ok ()) :
    ∃ header, Admitted m.session.buffer.length message capacity header ∧
      let left := (answered monitor message capacity header.total m).2.memory
      let receipt := outcome (left.loadSpan m.session.buffer.span) message header.total
      receipt.result = .ok () ∧ (communicate monitor message capacity m).1.message = receipt.message := by
  rcases communicate_cases monitor message capacity m with
    ⟨refusal, _, refused⟩ | ⟨_, _, denied⟩ | ⟨header, free, admitted, exchanged⟩
  · rw [refused] at taken
    cases taken
  · rw [denied] at taken
    cases taken
  · refine ⟨header, admitted, ?_⟩
    intro left receipt
    cases success : succeeded m.session.route (answered monitor message capacity header.total m).1 with
    | false =>
      have fails : classify m.session.route (answered monitor message capacity header.total m).1 = .error _ :=
        if_neg (Bool.eq_false_iff.mp success)
      rw [exchanged] at taken
      simp only [concluded, fails] at taken
      cases taken
    | true =>
      have received := communicate_of_succeeded confined admitted free success
      rw [received] at taken ⊢
      refine ⟨?_, rfl⟩
      change receipt.result.mapError Fault.error = .ok () at taken
      cases result : receipt.result with
      | ok _ => rfl
      | error e =>
        rw [result] at taken
        cases taken

end Transport

namespace ErrorSource

open Journal Transport Admission Delivery

variable {ω : Type}

structure Exchanged (channel : Channel ω) (m : Machine ω) (totals : Info) (message : Bytes) : Prop where
  heard : (channel (requestMessage 0) none m).1.result = .ok () ∨
    (channel (requestMessage 0) none m).1.result = .error (.error .bufferTooSmall)
  announces : announced (channel (requestMessage 0) none m).1.message = .ok totals
  allocated : MessageHeader.size + (Info.size + totals.length.toNat) ≤ allocatable
  fetched : let second := (channel (requestMessage totals.length.toNat) none (channel (requestMessage 0) none m).2).1
    second.result = .ok () ∧ second.message = message

section

variable {channel : Channel ω} {m : Machine ω} {totals : Info} {message : Bytes}

theorem fetch_of_reply {room : Nat} (allocated : MessageHeader.size + (Info.size + room) ≤ allocatable)
    (taken : (channel (requestMessage room) none m).1.result = .ok ()) :
    (fetch channel room m).1 = (extract (channel (requestMessage room) none m).1.message).mapError .error := by
  simp only [fetch, request_eq room allocated, taken]

theorem collect_of_exchanged (both : Exchanged channel m totals message) :
    (collect channel m).1 = (extract message).mapError .error := by
  obtain ⟨heard, announces, allocated, taken, rfl⟩ := both
  rw [collect_of_heard heard, continueWith_announced announces, fetch_of_reply allocated taken]

theorem exchanged_of_found {found : Collection} (collected : (collect channel m).1 = .ok found) :
    ∃ totals message, Exchanged channel m totals message := by
  let first := channel (requestMessage 0) none m
  have continued : (first.1.result = .ok () ∨ first.1.result = .error (.error .bufferTooSmall)) ∧
      (continueWith channel first.1.message first.2).1 = .ok found := by
    simp only [collect, request_eq 0 (by decide)] at collected
    split at collected
    next success => exact ⟨.inl success, collected⟩
    next small => exact ⟨.inr small, collected⟩
    next => cases collected
  obtain ⟨heard, continues⟩ := continued
  cases announces : announced first.1.message with
  | error e =>
    simp only [continueWith, announces] at continues
    cases continues
  | ok totals =>
    rw [continueWith_announced announces] at continues
    by_cases allocated : MessageHeader.size + (Info.size + totals.length.toNat) ≤ allocatable
    · let second := channel (requestMessage totals.length.toNat) none first.2
      have fetched : second.1.result = .ok () := by
        cases result : second.1.result with
        | ok _ => rfl
        | error fault =>
          simp only [fetch, request_eq _ allocated] at continues
          rw [show (channel (requestMessage totals.length.toNat) none first.2).1.result = _ from result] at continues
          cases continues
      exact ⟨totals, second.1.message, heard, announces, allocated, fetched, rfl⟩
    · rw [fetch_unmade _ _ (Nat.not_le.mp allocated)] at continues
      cases continues

end

def ahead : Nat := MessageHeader.size + Info.size

/-- Descriptors that are a reply's own as far as it declares, and zeros behind that. -/
def Carried (reply descriptors : Bytes) : Prop :=
  ∀ i < descriptors.length, descriptors[i]? = if ahead + i < declared reply then reply[ahead + i]? else some 0

theorem Carried.whole {reply descriptors : Bytes} (carried : Carried reply descriptors)
    (reaches : ahead + descriptors.length ≤ declared reply) :
    descriptors = (reply.drop ahead).take descriptors.length := by
  apply List.ext_getElem?
  intro i
  by_cases inside : i < descriptors.length
  · rw [carried i inside, if_pos (by omega), List.getElem?_take_of_lt inside, List.getElem?_drop]
  · rw [List.getElem?_eq_none (Nat.not_lt.mp inside), List.getElem?_take_eq_none (Nat.not_lt.mp inside)]

theorem extract_eq {message : Bytes} {room : Nat} (length : message.length = ahead + room) :
    ∃ info, Info.decode? (message.drop MessageHeader.size) = some info ∧
      extract message =
        if room < info.length.toNat then .error .badBufferSize
        else if info.count = 0 ∨ info.length = 0 then .error .notFound
        else .ok ⟨info.count, (message.drop ahead).take info.length.toNat⟩ := by
  have long : ¬ (message.drop MessageHeader.size).length < Info.size := by
    rw [List.length_drop, length, ahead]
    omega
  obtain ⟨info, read⟩ : ∃ info, Info.decode? (message.drop MessageHeader.size) = some info := ⟨_, if_neg long⟩
  have behind : (message.drop MessageHeader.size).drop Info.size = message.drop ahead := List.drop_drop
  have rest : (message.drop ahead).length = room := by rw [List.length_drop, length, Nat.add_sub_cancel_left]
  refine ⟨info, read, ?_⟩
  simp only [extract, Info.read, read, behind, rest]

/-- What the collector makes of a reply: the words in it are held against the room for descriptors alone. -/
theorem extract_filled {reply : Bytes} {room : Nat} (inBuffer : declared reply ≤ reply.length)
    (inMessage : declared reply ≤ ahead + room) :
    ∃ info, Info.decode? ((filled reply (ahead + room)).drop MessageHeader.size) = some info ∧
      (room < info.length.toNat → extract (filled reply (ahead + room)) = .error .badBufferSize) ∧
      (info.length.toNat ≤ room → info.count = 0 ∨ info.length = 0 →
        extract (filled reply (ahead + room)) = .error .notFound) ∧
      (info.length.toNat ≤ room → ¬ (info.count = 0 ∨ info.length = 0) → ∃ descriptors,
        extract (filled reply (ahead + room)) = .ok ⟨info.count, descriptors⟩ ∧
          descriptors.length = info.length.toNat ∧ Carried reply descriptors) := by
  have length := length_filled inBuffer inMessage
  obtain ⟨info, read, extracted⟩ := extract_eq length
  refine ⟨info, read, fun beyond => ?_, fun within nothing => ?_, fun within something => ?_⟩
  · rw [extracted, if_pos beyond]
  · rw [extracted, if_neg (Nat.not_lt.mpr within), if_pos nothing]
  · rw [if_neg (Nat.not_lt.mpr within), if_neg something] at extracted
    have taken : (((filled reply (ahead + room)).drop ahead).take info.length.toNat).length = info.length.toNat := by
      rw [List.length_take, List.length_drop, length, Nat.add_sub_cancel_left, Nat.min_eq_left within]
    refine ⟨_, extracted, taken, fun i inside => ?_⟩
    rw [taken] at inside
    rw [List.getElem?_take_of_lt inside, List.getElem?_drop, getElem?_filled inBuffer (by omega)]

section

variable {monitor : Monitor ω} {m : Machine ω} {room : Nat}

/-- What lies in the buffer when the call for a request has ended. -/
def left (monitor : Monitor ω) (room : Nat) (m : Machine ω) : Bytes :=
  (answered monitor (requestMessage room) none (ahead + room) m).2.memory.loadSpan m.session.buffer.span

/-- A request holds nothing but its header and room, so nothing of it is left when the reply is in. -/
theorem communicate_request_of_ok (confined : monitor.Confined)
    (representable : MessageHeader.size + (Info.size + room) ≤ maxSize)
    (taken : (communicate monitor (requestMessage room) none m).1.result = .ok ()) :
    let reply := left monitor room m
    declared reply ≤ reply.length ∧ declared reply ≤ ahead + room ∧
      (communicate monitor (requestMessage room) none m).1.message = filled reply (ahead + room) := by
  obtain ⟨header, admitted, success, received⟩ := communicate_of_ok confined taken
  obtain rfl : requestHeader room = header :=
    Option.some.inj ((decode?_requestMessage room).symm.trans admitted.read)
  have total : (requestHeader room).total = ahead + room :=
    (total_requestHeader room representable).trans (Nat.add_assoc ..).symm
  have whole : (requestMessage room).length = ahead + room :=
    (length_requestMessage room).trans (Nat.add_assoc ..).symm
  rw [total] at success received
  obtain ⟨inBuffer, inMessage⟩ := fits_of_outcome success
  refine ⟨inBuffer, whole ▸ inMessage, received.trans ?_⟩
  have none : (requestMessage room).drop (max (declared (left monitor room m)) (ahead + room)) = [] :=
    List.drop_eq_nil_of_le (by rw [whole]; exact Nat.le_max_right ..)
  rw [left] at none
  rw [outcome_of_fits _ inBuffer inMessage, none, List.append_nil]
  rfl

theorem Exchanged.filled {totals : Info} {message : Bytes} (confined : monitor.Confined)
    (both : Exchanged (communicate monitor) m totals message) :
    let room := totals.length.toNat
    let reply := left monitor room (communicate monitor (requestMessage 0) none m).2
    declared reply ≤ reply.length ∧ declared reply ≤ ahead + room ∧ message = filled reply (ahead + room) := by
  obtain ⟨inBuffer, inMessage, received⟩ :=
    communicate_request_of_ok confined (Nat.le_trans both.allocated allocatable_le_maxSize) both.fetched.1
  exact ⟨inBuffer, inMessage, both.fetched.2.symm.trans received⟩

end

/-- The second reply of a collection decides what is found. Its descriptors are the reply's own as far as
it declares and zeros behind that, never what was in the buffer or in the message before; and what it
announces is rejected just if it is more than was asked for, however little the reply declares. -/
theorem collect_carried {monitor : Monitor ω} (confined : monitor.Confined) (m : Machine ω) :
    let channel := communicate monitor
    let run := collect channel m
    (∀ found, run.1 = .ok found → ∃ totals message, Exchanged channel m totals message) ∧
    ∀ totals message, Exchanged channel m totals message →
      let room := totals.length.toNat
      let reply := left monitor room (channel (requestMessage 0) none m).2
      declared reply ≤ reply.length ∧ declared reply ≤ ahead + room ∧ message = filled reply (ahead + room) ∧
      ∃ info, Info.decode? (message.drop MessageHeader.size) = some info ∧
        (room < info.length.toNat → run.1 = .error (.error .badBufferSize)) ∧
        (info.length.toNat ≤ room → info.count = 0 ∨ info.length = 0 → run.1 = .error (.error .notFound)) ∧
        (info.length.toNat ≤ room → ¬ (info.count = 0 ∨ info.length = 0) → ∃ descriptors,
          run.1 = .ok ⟨info.count, descriptors⟩ ∧ descriptors.length = info.length.toNat ∧
            Carried reply descriptors ∧ (ahead + descriptors.length ≤ declared reply →
              descriptors = (reply.drop ahead).take descriptors.length)) := by
  intro channel run
  refine ⟨fun found collected => exchanged_of_found collected, fun totals message both => ?_⟩
  intro room reply
  have decided : run.1 = (extract message).mapError .error := collect_of_exchanged both
  obtain ⟨inBuffer, inMessage, received⟩ := both.filled confined
  obtain ⟨info, read, beyond, nothing, something⟩ := extract_filled inBuffer inMessage
  rw [← received] at read beyond nothing something
  refine ⟨inBuffer, inMessage, received, info, read, fun large => ?_, fun fits none => ?_, fun fits some => ?_⟩
  · rw [decided, beyond large]
    rfl
  · rw [decided, nothing fits none]
    rfl
  · obtain ⟨descriptors, extracted, length, carried⟩ := something fits some
    refine ⟨descriptors, ?_, length, carried, carried.whole⟩
    rw [decided, extracted]
    rfl

section

open Rehearsal

def replying (length : UInt8) : Machine Script :=
  let words := (Info.mk 1 4).encode
  let first : Reply := { ret := {}, writes := [⟨.address 0x1000000018, words⟩] }
  let second : Reply := { ret := {}, writes := [⟨.address 0x1000000010, [length]⟩,
    ⟨.address 0x1000000018, words ++ [0xA1, 0xA2, 0xA3, 0xA4]⟩] }
  { session := { route := .legacy, buffer := .identityMapped 0x1000000000 0x100 }
    rest := { replies := [first, second] } }

theorem exchanged_replying {length : UInt8} {message : Bytes}
    (replied : let channel := communicate (Script.nestedMonitor 0)
      let first := channel (requestMessage 0) none (replying length)
      let second := channel (requestMessage 4) none first.2
      (first.1.result.isOk ∧ first.1.message = (requestHeader 0).encode ++ ((Info.mk 1 4).encode ++ [])) ∧
        second.1.result.isOk ∧ second.1.message = message) :
    Exchanged (communicate (Script.nestedMonitor 0)) (replying length) ⟨1, 4⟩ message := by
  have ok {result : Except Fault Unit} (success : result.isOk) : result = .ok () := by
    cases result with
    | ok _ => rfl
    | error _ => cases success
  obtain ⟨⟨first, announces⟩, second, received⟩ := replied
  refine ⟨.inl (ok first), ?_, by decide, ok second, received⟩
  rw [announces, announced_encode, if_neg (by decide)]

theorem collect_carried_of_two_bytes :
    let monitor := Script.nestedMonitor 0
    let m := replying 18
    let reply := left monitor 4 (communicate monitor (requestMessage 0) none m).2
    (reply.drop ahead).take 4 = [0xA1, 0xA2, 0xA3, 0xA4] ∧ ∃ descriptors,
      (collect (communicate monitor) m).1 = .ok ⟨1, descriptors⟩ ∧ descriptors.length = 4 ∧
        descriptors[1]? = some 0xA2 ∧ descriptors[2]? = some 0 := by
  intro monitor m reply
  let message := MessageHeader.encode ⟨aggregatorGuid, 18⟩ ++ ((Info.mk 1 4).encode ++ [0xA1, 0xA2, 0, 0])
  have both : Exchanged (communicate monitor) m ⟨1, 4⟩ message := exchanged_replying (by decide +kernel)
  obtain ⟨_, decided⟩ := collect_carried (Monitor.Confined.script 0) m
  obtain ⟨_, _, _, info, read, _, _, something⟩ := decided ⟨1, 4⟩ message both
  have words : Info.decode? (message.drop MessageHeader.size) = some ⟨1, 4⟩ := by decide +kernel
  obtain rfl : ⟨1, 4⟩ = info := Option.some.inj (words.symm.trans read)
  obtain ⟨descriptors, found, length, carried, _⟩ := something (by decide) (by decide)
  have four : descriptors.length = 4 := length
  refine ⟨by decide +kernel, descriptors, found, four, ?_, ?_⟩
  · exact (carried 1 (by omega)).trans (by decide +kernel)
  · exact (carried 2 (by omega)).trans (by decide +kernel)

/-- Of a reply that reaches no further than the two words, descriptors are found all the same. -/
theorem collect_found_without_descriptors :
    let monitor := Script.nestedMonitor 0
    let m := replying 16
    ¬ ∀ found totals message, (collect (communicate monitor) m).1 = .ok found →
      Exchanged (communicate monitor) m totals message →
        let reply := left monitor totals.length.toNat (communicate monitor (requestMessage 0) none m).2
        ahead + found.descriptors.length ≤ declared reply := by
  intro monitor m covered
  let message := MessageHeader.encode ⟨aggregatorGuid, 16⟩ ++ ((Info.mk 1 4).encode ++ zeros 4)
  have both : Exchanged (communicate monitor) m ⟨1, 4⟩ message := exchanged_replying (by decide +kernel)
  have found : (collect (communicate monitor) m).1 = .ok ⟨1, zeros 4⟩ := by
    rw [collect_of_exchanged both, extract_encode _ (by decide) (by decide)]
    rfl
  have reaches := covered ⟨1, zeros 4⟩ ⟨1, 4⟩ message found both
  revert reaches
  decide +kernel

end

end ErrorSource

end StandaloneMm
