import StandaloneMm.Proofs.Layout
import StandaloneMm.Proofs.Provenance
import StandaloneMm.Rehearsal.Courier

/-! Collecting over a transport that nothing is known of. It may leave anything in a message and end with
anything; what it leaves decides how the collection goes on, and there are two messages at most. -/
namespace StandaloneMm

variable {ω θ : Type}

def Machine.withRest (m : Machine ω) (rest : θ) : Machine θ where
  memory := m.memory
  session := m.session
  manager := m.manager
  serving := m.serving
  journal := m.journal
  rest := rest

abbrev Sent := Bytes × Option UInt64

def Machine.listing (m : Machine ω) (sent : List Sent) : Machine (ω × List Sent) :=
  m.withRest (m.rest, sent)

namespace Channel

/-- The same channel, which puts on a list what it is handed. -/
def listing (channel : Channel ω) : Channel (ω × List Sent) := fun message capacity m =>
  let (exchange, after) := channel message capacity (m.withRest m.rest.1)
  (exchange, after.listing (m.rest.2 ++ [(message, capacity)]))

/-- A channel that rewrites messages in place: none comes back longer or shorter. -/
def KeepsLength (channel : Channel ω) : Prop :=
  ∀ message capacity m, (channel message capacity m).1.message.length = message.length

theorem listing_eq (channel : Channel ω) (message : Bytes) (capacity : Option UInt64) (m : Machine ω)
    (sent : List Sent) : channel.listing message capacity (m.listing sent) =
      ((channel message capacity m).1,
        (channel message capacity m).2.listing (sent ++ [(message, capacity)])) := rfl

end Channel

namespace ErrorSource

/-- The two words behind the header of a message. -/
def words (message : Bytes) : Info where
  count := UInt64.ofNat (ofLittleEndian ((message.drop 24).take 8))
  length := UInt64.ofNat (ofLittleEndian ((message.drop 32).take 8))

theorem decode?_words {message : Bytes} (long : ahead ≤ message.length) :
    Info.decode? (message.drop MessageHeader.size) = some (words message) := by
  have whole : ¬ (message.drop MessageHeader.size).length < Info.size := by
    rw [List.length_drop]
    simp only [ahead] at long
    omega
  rw [Info.decode?, if_neg whole, List.drop_drop]
  rfl

theorem announced_words {message : Bytes} (long : ahead ≤ message.length) : announced message =
    if (words message).count = 0 ∨ (words message).length = 0 then .error .notFound
    else .ok (words message) := by
  simp only [announced, Info.read, decode?_words long]

theorem extract_words {message : Bytes} {room : Nat} (length : message.length = ahead + room) :
    extract message =
      if room < (words message).length.toNat then .error .badBufferSize
      else if (words message).count = 0 ∨ (words message).length = 0 then .error .notFound
      else .ok ⟨(words message).count, (message.drop ahead).take (words message).length.toNat⟩ := by
  obtain ⟨info, read, extracted⟩ := extract_eq length
  obtain rfl : words message = info := Option.some.inj ((decode?_words (by omega)).symm.trans read)
  exact extracted

/-- What a collection ends with, and what has been sent by then. -/
structure Ends (run : Except Fault Collection × Machine (ω × List Sent)) (result : Except Fault Collection)
    (sent : List Sent) : Prop where
  result : run.1 = result
  sent : run.2.rest.2 = sent

/-- What a collection ends with by its second exchange, in which it had this much room for descriptors. -/
structure Fetched (run : Except Fault Collection × Machine (ω × List Sent)) (room : Nat) (reply : Exchange)
    (sent : List Sent) : Prop where
  failed : ∀ fault, reply.result = .error fault → Ends run (.error fault) sent
  oversized : reply.result = .ok () → room < (words reply.message).length.toNat →
    Ends run (.error (.error .badBufferSize)) sent
  nothing : reply.result = .ok () → (words reply.message).length.toNat ≤ room →
    (words reply.message).count = 0 ∨ (words reply.message).length = 0 →
    Ends run (.error (.error .notFound)) sent
  found : reply.result = .ok () → (words reply.message).length.toNat ≤ room →
    (words reply.message).count ≠ 0 → (words reply.message).length ≠ 0 →
    Ends run (.ok ⟨(words reply.message).count,
      (reply.message.drop ahead).take (words reply.message).length.toNat⟩) sent

section

variable {channel : Channel ω} {m : Machine ω} {sent : List Sent} {room : Nat}

theorem fetch_listing (channel : Channel ω) (room : Nat) (m : Machine ω) (sent : List Sent) :
    ∃ more, fetch channel.listing room (m.listing sent) =
      ((fetch channel room m).1, (fetch channel room m).2.listing (sent ++ more)) := by
  unfold fetch
  split
  · exact ⟨[], by rw [List.append_nil]⟩
  next message _ =>
    refine ⟨[(message, none)], ?_⟩
    rw [Channel.listing_eq]
    dsimp only
    split
    · rfl
    · rfl

theorem continueWith_listing (channel : Channel ω) (reply : Bytes) (m : Machine ω) (sent : List Sent) :
    ∃ more, continueWith channel.listing reply (m.listing sent) =
      ((continueWith channel reply m).1, (continueWith channel reply m).2.listing (sent ++ more)) := by
  unfold continueWith
  dsimp only
  split
  · exact ⟨[], by rw [List.append_nil]; rfl⟩
  · exact fetch_listing channel _ (m.append _) sent

theorem collect_listing (channel : Channel ω) (m : Machine ω) (sent : List Sent) :
    ∃ more, collect channel.listing (m.listing sent) =
      ((collect channel m).1, (collect channel m).2.listing (sent ++ more)) := by
  unfold collect
  split
  · exact ⟨[], by rw [List.append_nil]⟩
  next message _ =>
    rw [Channel.listing_eq]
    dsimp only
    obtain ⟨more, continued⟩ := continueWith_listing channel (channel message none m).1.message
      (channel message none m).2 (sent ++ [(message, none)])
    rw [List.append_assoc] at continued
    split
    · exact ⟨_, continued⟩
    · exact ⟨_, continued⟩
    · exact ⟨[(message, none)], rfl⟩

theorem fetch_large (large : allocatable < MessageHeader.size + (Info.size + room)) :
    Ends (fetch channel.listing room (m.listing sent)) (.error (excess room)) sent := by
  rw [fetch_unmade _ _ large]
  exact ⟨rfl, rfl⟩

theorem fetch_fetched (kept : channel.KeepsLength)
    (allocated : MessageHeader.size + (Info.size + room) ≤ allocatable) :
    Fetched (fetch channel.listing room (m.listing sent)) room (channel (requestMessage room) none m).1
      (sent ++ [(requestMessage room, none)]) := by
  let second := channel (requestMessage room) none m
  have extracted (taken : second.1.result = .ok ()) : Ends (fetch channel.listing room (m.listing sent))
      ((extract second.1.message).mapError .error) (sent ++ [(requestMessage room, none)]) := by
    simp only [second] at taken
    simp only [fetch, request_eq room allocated, Channel.listing_eq, taken]
    exact ⟨rfl, rfl⟩
  have length : second.1.message.length = ahead + room := by
    rw [kept, length_requestMessage, ahead, Nat.add_assoc]
  rw [extract_words length] at extracted
  refine ⟨fun fault failed => ?_, fun taken beyond => ?_, fun taken within nothing => ?_,
    fun taken within count length => ?_⟩
  · simp only [fetch, request_eq room allocated, Channel.listing_eq, failed]
    exact ⟨rfl, rfl⟩
  · rw [if_pos beyond] at extracted
    exact extracted taken
  · rw [if_neg (Nat.not_lt.mpr within), if_pos nothing] at extracted
    exact extracted taken
  · rw [if_neg (Nat.not_lt.mpr within), if_neg (not_or.mpr ⟨count, length⟩)] at extracted
    exact extracted taken

theorem continueWith_unannounced {reply : Bytes} {e : Error} (told : announced reply = .error e) :
    Ends (continueWith channel.listing reply (m.listing sent)) (.error (.error e)) sent := by
  simp only [continueWith, told]
  exact ⟨rfl, rfl⟩

theorem collect_failed {fault : Fault} (failed : (channel (requestMessage 0) none m).1.result = .error fault)
    (large : fault ≠ .error .bufferTooSmall) :
    Ends (collect channel.listing (m.listing [])) (.error fault) [(requestMessage 0, none)] := by
  simp only [collect, request_eq 0 (by decide), Channel.listing_eq, failed]
  exact ⟨rfl, rfl⟩

end

/-- The message of a request, byte by byte: the aggregator's identifier, the length of the body and as many
zeros. -/
def requestForm (room : Nat) : Bytes :=
  [0x51, 0x29, 0x60, 0x7D, 0x8E, 0x67, 0xC4, 0x4C, 0x98, 0xD9, 0xE3, 0x76, 0x04, 0xF6, 0x93, 0x0D] ++
    octets 8 (16 + room) ++ List.replicate (16 + room) 0

theorem requestMessage_eq_form : requestMessage = requestForm := by
  funext room
  have word : littleEndian 8 (UInt64.ofNat (Info.size + room)).toNat = octets 8 (16 + room) := by
    rw [UInt64.toNat_ofNat', ← littleEndian_eq_octets]
    exact littleEndian_mod 8 (16 + room)
  have named : aggregatorGuid.encode =
      [0x51, 0x29, 0x60, 0x7D, 0x8E, 0x67, 0xC4, 0x4C, 0x98, 0xD9, 0xE3, 0x76, 0x04, 0xF6, 0x93, 0x0D] := by decide
  rw [requestMessage, MessageHeader.encode, requestHeader, named, word]
  rfl

/-- Whatever a transport does with the messages of a collection, there are two of them at most. What the
first one comes back with decides whether there is a second one, and how large it is; a failure is passed on
as it is, and only the second reply can end the collection well. -/
theorem collect_ends {channel : Channel ω} (kept : channel.KeepsLength) (m : Machine ω) :
    let run := collect channel.listing (m.listing [])
    let first := channel (requestForm 0) none m
    let told := words first.1.message
    let room := told.length.toNat
    let second := channel (requestForm room) none first.2
    let found := words second.1.message
    let heard := first.1.result = .ok () ∨ first.1.result = .error (.error .bufferTooSmall)
    let announces := heard ∧ told.count ≠ 0 ∧ told.length ≠ 0
    let one := [(requestForm 0, none)]
    let both := [(requestForm 0, none), (requestForm room, none)]
    (∃ sent, run = ((collect channel m).1, (collect channel m).2.listing sent)) ∧
      (∀ fault, first.1.result = .error fault → fault ≠ .error .bufferTooSmall →
        Ends run (.error fault) one) ∧
      (heard → told.count = 0 ∨ told.length = 0 → Ends run (.error (.error .notFound)) one) ∧
      (announces → maxSize < ahead + room → Ends run (.error (.error .outOfResources)) one) ∧
      (announces → ahead + room ≤ maxSize → allocatable < ahead + room →
        Ends run (.error (.assertion .capacityOverflow)) one) ∧
      (announces → ahead + room ≤ allocatable → Fetched run room second.1 both) ∧
      ((∃ collection, run.1 = .ok collection) ↔
        announces ∧ ahead + room ≤ allocatable ∧ second.1.result = .ok () ∧
          found.count ≠ 0 ∧ found.length ≠ 0 ∧ found.length.toNat ≤ room) := by
  rw [← requestMessage_eq_form]
  intro run first told room second found heard announces one both
  have total : MessageHeader.size + (Info.size + room) = ahead + room := (Nat.add_assoc ..).symm
  have reads : announced first.1.message =
      if told.count = 0 ∨ told.length = 0 then .error .notFound else .ok told := by
    apply announced_words
    rw [kept, length_requestMessage]
    exact Nat.le_refl _
  have failed fault (result : first.1.result = .error fault) (large : fault ≠ .error .bufferTooSmall) :
      Ends run (.error fault) one := collect_failed result large
  have begun (h : heard) : run = continueWith channel.listing first.1.message (first.2.listing one) :=
    collect_of_heard h
  have nothing (h : heard) (zero : told.count = 0 ∨ told.length = 0) :
      Ends run (.error (.error .notFound)) one := by
    rw [begun h]
    exact continueWith_unannounced (by rw [reads, if_pos zero])
  have onward (h : announces) : run = fetch channel.listing room (first.2.listing one) := by
    have some : ¬ (told.count = 0 ∨ told.length = 0) := not_or.mpr h.2
    rw [begun h.1, continueWith_announced (by rw [reads, if_neg some])]
  have beyond (h : announces) (large : allocatable < ahead + room) : Ends run (.error (excess room)) one := by
    rw [onward h]
    exact fetch_large (total ▸ large)
  have fetched (h : announces) (fits : ahead + room ≤ allocatable) : Fetched run room second.1 both := by
    rw [onward h]
    exact fetch_fetched kept (total ▸ fits)
  refine ⟨?_, failed, nothing, fun h large => ?_, fun h word large => ?_, fetched, ?_, ?_⟩
  · obtain ⟨more, same⟩ := collect_listing channel m []
    exact ⟨_, same⟩
  · have unmade := Nat.lt_of_le_of_lt allocatable_le_maxSize large
    have ended := beyond h unmade
    rwa [excess, total, if_neg (Nat.not_le.mpr unmade), if_neg (Nat.not_le.mpr large)] at ended
  · have ended := beyond h large
    rwa [excess, total, if_neg (Nat.not_le.mpr large), if_pos word] at ended
  · rintro ⟨collection, collected⟩
    have well {fault : Fault} {sent : List Sent} : ¬ Ends run (.error fault) sent := by
      intro ended
      cases ended.result.symm.trans collected
    have h : heard := by
      cases result : first.1.result with
      | ok _ => exact .inl result
      | error fault =>
        by_cases small : fault = .error .bufferTooSmall
        · exact .inr (small ▸ result)
        · exact absurd (failed fault result small) well
    have announced : announces := ⟨h, not_or.mp fun zero => well (nothing h zero)⟩
    have fits : ahead + room ≤ allocatable := Nat.le_of_not_lt fun large => well (beyond announced large)
    obtain ⟨fails, oversized, empty, _⟩ := fetched announced fits
    have taken : second.1.result = .ok () := by
      cases result : second.1.result with
      | ok _ => rfl
      | error fault => exact absurd (fails fault result) well
    have within : found.length.toNat ≤ room := Nat.le_of_not_lt fun large => well (oversized taken large)
    obtain ⟨count, length⟩ := not_or.mp fun zero => well (empty taken within zero)
    exact ⟨announced, fits, taken, count, length, within⟩
  · rintro ⟨announced, fits, taken, count, length, within⟩
    exact ⟨_, ((fetched announced fits).found taken within count length).result⟩

open Rehearsal in
theorem keepsLength_courier : Courier.channel.KeepsLength := by
  intro message capacity m
  exact length_overlayAt _ _ _

open Rehearsal in
/-- A first reply that did not fit announces four bytes, and the second one leaves three of them. -/
theorem collect_ends_with_three_bytes :
    let first : CourierReply := { result := .error .bufferTooSmall, data := (Info.mk 3 4).encode }
    let second : CourierReply :=
      { result := .ok (), data := (Info.mk 2 3).encode ++ [0xA1, 0xA2, 0xA3, 0xA4] }
    let m : Machine Courier := { rest := ⟨[first, second]⟩ }
    Ends (collect Courier.channel.listing (m.listing [])) (.ok ⟨2, [0xA1, 0xA2, 0xA3]⟩)
      [(requestForm 0, none), (requestForm 4, none)] := by
  intro first second m
  obtain ⟨_, _, _, _, _, fetched, _⟩ := collect_ends keepsLength_courier m
  have told : words (Courier.channel (requestForm 0) none m).1.message = ⟨3, 4⟩ := by decide +kernel
  rw [told] at fetched
  have ended := (fetched ⟨.inr rfl, by decide, by decide⟩ (by decide)).found rfl
  have found : words (Courier.channel (requestForm 4) none
      (Courier.channel (requestForm 0) none m).2).1.message = ⟨2, 3⟩ := by decide +kernel
  rw [show ((⟨3, 4⟩ : Info).length.toNat) = 4 from rfl, found] at ended
  exact ended (by decide) (by decide) (by decide)

end ErrorSource

end StandaloneMm
