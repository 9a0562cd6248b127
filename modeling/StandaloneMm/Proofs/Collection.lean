import StandaloneMm.Proofs.Aggregation
import StandaloneMm.Proofs.RoundTrip

/-! Collecting the descriptors of a partition from outside of it. The first request learns how much
there is, the second one has room for all of it, and there is no second one in vain. -/
namespace StandaloneMm.ErrorSource

open Journal Transport Admission
open EventLoop (ofBodyHandlers)

variable {ω : Type}

/-- A request with room for this many bytes of descriptors. -/
def requestHeader (room : Nat) : MessageHeader := ⟨aggregatorGuid, UInt64.ofNat (Info.size + room)⟩

def requestMessage (room : Nat) : Bytes := (requestHeader room).encode ++ zeros (Info.size + room)

theorem allocatable_le_maxSize : allocatable ≤ maxSize := by decide

theorem request_eq (room : Nat) (fits : MessageHeader.size + (Info.size + room) ≤ allocatable) :
    request room = .ok (requestMessage room) := by
  have word := Nat.le_trans fits allocatable_le_maxSize
  rw [request, if_neg (Nat.not_lt.mpr word), if_neg (Nat.not_lt.mpr fits)]
  rfl

theorem request_unrepresentable {room : Nat} (beyond : maxSize < MessageHeader.size + (Info.size + room)) :
    request room = .error (.error .outOfResources) := by
  rw [request, if_pos beyond]

theorem request_unallocatable {room : Nat} (word : MessageHeader.size + (Info.size + room) ≤ maxSize)
    (large : allocatable < MessageHeader.size + (Info.size + room)) :
    request room = .error (.assertion .capacityOverflow) := by
  rw [request, if_neg (Nat.not_lt.mpr word), if_pos large]

theorem total_requestHeader (room : Nat) (fits : MessageHeader.size + (Info.size + room) ≤ maxSize) :
    (requestHeader room).total = MessageHeader.size + (Info.size + room) := by
  have word := toNat_length (n := Info.size + room) (by omega)
  rw [MessageHeader.total, requestHeader, word, Nat.min_eq_left fits]

theorem decode?_requestMessage (room : Nat) :
    MessageHeader.decode? (requestMessage room) = some (requestHeader room) :=
  MessageHeader.decode?_encode_append _ _

theorem length_requestMessage (room : Nat) :
    (requestMessage room).length = MessageHeader.size + (Info.size + room) := by
  simp [requestMessage]

theorem nonempty_requestHeader {room : Nat} (fits : MessageHeader.size + (Info.size + room) ≤ maxSize) :
    (requestHeader room).length ≠ 0 := by
  intro empty
  have word := toNat_length (n := Info.size + room) (by omega)
  have zero : Info.size + room = 0 := word.symm.trans (congrArg UInt64.toNat empty)
  simp [Info.size] at zero

theorem admitted_requestMessage {length : UInt64} {room : Nat}
    (fits : MessageHeader.size + (Info.size + room) ≤ length.toNat) :
    Admitted length (requestMessage room) none (requestHeader room) := by
  have word : length.toNat ≤ maxSize := Nat.le_of_lt_succ length.toNat_lt
  have total := total_requestHeader room (by omega)
  exact ⟨decode?_requestMessage room, nonempty_requestHeader (by omega), by omega,
    by rw [length_requestMessage]; omega, nofun⟩

theorem sentBody_requestMessage {room : Nat} (fits : MessageHeader.size + (Info.size + room) ≤ maxSize) :
    sentBody (requestHeader room) (requestMessage room) = zeros (Info.size + room) := by
  rw [sentBody, total_requestHeader room fits, Nat.add_sub_cancel_left, requestMessage,
    List.drop_left' (by simp)]
  exact List.take_of_length_le (by simp)

/-- A request that the buffer has no room for stays in the normal world, and only its header changes. -/
theorem communicate_unfit (monitor : Monitor ω) {m : Machine ω} {room : Nat}
    (fits : MessageHeader.size + (Info.size + room) ≤ maxSize)
    (unfit : m.session.buffer.length.toNat < MessageHeader.size + (Info.size + room)) :
    ∃ (header : MessageHeader) (events : List Event), Quiet events ∧
      communicate monitor (requestMessage room) none m =
        (⟨.error (.error .bufferTooSmall), header.encode ++ zeros (Info.size + room), none⟩, m.append events) := by
  have total := total_requestHeader room fits
  have screened : screen m.session.buffer.length (requestMessage room) none =
      .error (.unfit (requestHeader room)) := by
    simp [screen, decode?_requestMessage, total, unfit]
  let refusal := Refusal.unfit (requestHeader room)
  let longest := UInt64.ofNat (m.session.buffer.length.toNat - MessageHeader.size)
  refine ⟨⟨aggregatorGuid, longest⟩, refusal.records none, ⟨rfl, rfl⟩, (communicate_refused screened).trans ?_⟩
  have behind : (requestMessage room).drop MessageHeader.size = zeros (Info.size + room) :=
    List.drop_left' (by simp)
  have headed : MessageHeader.size ≤ (requestMessage room).length := by
    rw [length_requestMessage]
    exact Nat.le_add_right ..
  rw [Refusal.exchange, Refusal.message, overlay_of_length_le (by simpa using headed), MessageHeader.length_encode,
    behind]
  rfl

theorem announced_encode (header : MessageHeader) (info : Info) (rest : Bytes) :
    announced (header.encode ++ (info.encode ++ rest)) =
      if info.count = 0 ∨ info.length = 0 then .error .notFound else .ok info := by
  have payload : (header.encode ++ (info.encode ++ rest)).drop MessageHeader.size = info.encode ++ rest :=
    List.drop_left' (by simp)
  simp only [announced, payload, Info.read, Info.decode?_encode_append]

theorem extract_encode (header : MessageHeader) {info : Info} {descriptors : Bytes}
    (whole : descriptors.length = info.length.toNat) (something : ¬ (info.count = 0 ∨ info.length = 0)) :
    extract (header.encode ++ (info.encode ++ descriptors)) = .ok ⟨info.count, descriptors⟩ := by
  have payload : (header.encode ++ (info.encode ++ descriptors)).drop MessageHeader.size =
      info.encode ++ descriptors := List.drop_left' (by simp)
  have behind : (info.encode ++ descriptors).drop Info.size = descriptors := List.drop_left' (by simp)
  simp only [extract, payload, Info.read, Info.decode?_encode_append, behind, whole, Nat.lt_irrefl, if_false,
    if_neg something]
  rw [← whole, List.take_length]

theorem communicate_request {abi : PartitionAbi} {base length : UInt64} {handlers : Registry (BodyHandler ω)}
    {published : Except Error (List Provider)} {m : Machine ω}
    (registered : handlers.find? aggregatorGuid = some (aggregating published))
    (linked : Linked (.identityMapped base length) m) (unmoved : m.session.buffer.mode = .physical)
    (speaks : abi = .spm ↔ m.session.route = .legacy) (room : Nat)
    (fits : MessageHeader.size + (Info.size + room) ≤ length.toNat) :
    let outcome := aggregate published (zeros (Info.size + room))
    let message' := match verdict abi outcome.result with
      | .ok _ => (requestHeader room).encode ++ outcome.body
      | .error _ => requestMessage room
    ∃ after made, communicate (Manager.monitor (ofBodyHandlers abi base length handlers))
        (requestMessage room) none m = (⟨verdict abi outcome.result, message', none⟩, after) ∧
      Excursion m after made [(aggregatorGuid, zeros (Info.size + room))] := by
  have word : length.toNat ≤ maxSize := Nat.le_of_lt_succ length.toNat_lt
  have representable : MessageHeader.size + (Info.size + room) ≤ maxSize := by omega
  obtain ⟨after, made, exchanged, way⟩ :=
    communicate_hosted handlers linked unmoved speaks (admitted_requestMessage fits)
  have behind : (requestMessage room).drop (requestHeader room).total = [] := by
    rw [total_requestHeader room representable, ← length_requestMessage, List.drop_length]
  have recipient : (requestHeader room).recipient = aggregatorGuid := rfl
  rw [sentBody_requestMessage representable, recipient] at exchanged way
  simp only [Registry.work, Registry.entered, registered, aggregating, behind, List.append_nil] at exchanged way
  exact ⟨after, made, exchanged, way⟩

section

variable {channel : Channel ω} {m middle after : Machine ω} {reply : Bytes} {info : Info}

theorem collect_of_heard (heard : (channel (requestMessage 0) none m).1.result = .ok () ∨
    (channel (requestMessage 0) none m).1.result = .error (.error .bufferTooSmall)) :
    collect channel m = continueWith channel (channel (requestMessage 0) none m).1.message
      (channel (requestMessage 0) none m).2 := by
  simp only [collect, request_eq 0 (by decide)]
  rcases heard with success | small
  · simp only [success]
  · simp only [small]

theorem collect_of_reply (sent : channel (requestMessage 0) none m = (⟨.ok (), reply, none⟩, after)) :
    collect channel m = continueWith channel reply after := by
  rw [collect_of_heard (.inl (by rw [sent])), sent]

theorem collect_of_unsupported
    (sent : channel (requestMessage 0) none m = (⟨.error (.error .unsupported), reply, none⟩, after)) :
    collect channel m = (.error (.error .unsupported), after.log .error .hest) := by
  simp only [collect, request_eq 0 (by decide), sent]
  rfl

theorem continueWith_nothing (told : announced reply = .error .notFound) :
    continueWith channel reply m = (.error (.error .notFound), m.log .info .hest) := by
  simp only [continueWith, told]
  rfl

theorem continueWith_announced (told : announced reply = .ok info) :
    continueWith channel reply m = fetch channel info.length.toNat m := by
  simp only [continueWith, told, announcedRecords, Machine.append, List.append_nil]

end

/-- What becomes of a request for more than the buffer has room for, or than any allocation can have. -/
def excess (room : Nat) : Fault :=
  let total := MessageHeader.size + (Info.size + room)
  if total ≤ allocatable then .error .bufferTooSmall
  else if total ≤ maxSize then .assertion .capacityOverflow
  else .error .outOfResources

/-- A request that cannot be made. -/
theorem fetch_unmade (channel : Channel ω) (m : Machine ω) {room : Nat}
    (large : allocatable < MessageHeader.size + (Info.size + room)) :
    fetch channel room m = (.error (excess room), m) := by
  have beyond := Nat.not_le.mpr large
  by_cases word : MessageHeader.size + (Info.size + room) ≤ maxSize
  · rw [fetch, request_unallocatable word large, excess, if_neg beyond, if_pos word]
  · rw [fetch, request_unrepresentable (Nat.not_le.mp word), excess, if_neg beyond, if_neg word]

theorem fetch_unfit (monitor : Monitor ω) {m : Machine ω} {room : Nat}
    (unfit : min m.session.buffer.length.toNat allocatable < MessageHeader.size + (Info.size + room)) :
    ∃ events, Quiet events ∧
      fetch (communicate monitor) room m = (.error (excess room), m.append events) := by
  by_cases fits : MessageHeader.size + (Info.size + room) ≤ allocatable
  · have word := Nat.le_trans fits allocatable_le_maxSize
    obtain ⟨header, events, quiet, exchanged⟩ := communicate_unfit monitor (m := m) word (by omega)
    have reported : Quiet (events ++ [.log .error .hest]) := quiet_append quiet (quiet_log ..)
    refine ⟨_, reported, ?_⟩
    simp only [fetch, request_eq room fits, exchanged, excess, if_pos fits, Machine.append, List.append_assoc]
    rfl
  · refine ⟨[], ⟨rfl, rfl⟩, ?_⟩
    rw [fetch_unmade _ m (Nat.not_le.mp fits), Machine.append, List.append_nil]

theorem nonzero_totals {offers : List Offer} (representable : Representable offers)
    (lengths : 0 < (Offer.gathered offers).length) (counts : 0 < Offer.counted offers) :
    ¬ ((Offer.totals offers).count = 0 ∨ (Offer.totals offers).length = 0) := by
  have length := toNat_length representable.lengths
  have count := toNat_length representable.counts
  rintro (zero | zero)
  · have none : Offer.counted offers = 0 := count.symm.trans (congrArg UInt64.toNat zero)
    omega
  · have none : (Offer.gathered offers).length = 0 := length.symm.trans (congrArg UInt64.toNat zero)
    omega

/-- What the collector makes of a partition with nothing to offer: over the older interface its status has
no name of its own. -/
def nothing : PartitionAbi → Error
  | .ffa _ => .notFound
  | .spm => .unsupported

section

variable {abi : PartitionAbi} {base length : UInt64} {handlers : Registry (BodyHandler ω)}
  {offers : List Offer} {m : Machine ω}
  (registered : handlers.find? aggregatorGuid = some (aggregating (located (offers.map Offer.provider))))
  (linked : Linked (.identityMapped base length) m) (unmoved : m.session.buffer.mode = .physical)
  (speaks : abi = .spm ↔ m.session.route = .legacy)
  (holdsTotals : MessageHeader.size + Info.size ≤ length.toNat) (representable : Representable offers)

include registered linked unmoved speaks holdsTotals representable

theorem collect_nothing (none : (Offer.gathered offers).length = 0 ∨ Offer.counted offers = 0) :
    ∃ after made, collect (communicate (Manager.monitor (ofBodyHandlers abi base length handlers))) m =
        (.error (.error (nothing abi)), after) ∧
      Excursion m after made [(aggregatorGuid, zeros Info.size)] := by
  obtain ⟨after, made, exchanged, way⟩ :=
    communicate_request registered linked unmoved speaks 0 holdsTotals
  obtain ⟨refused, kept⟩ := aggregate_nothing representable (zeros Info.size) none (by simp)
  simp only [Nat.add_zero, refused, kept] at exchanged way
  cases abi with
  | ffa only =>
    have told : announced ((requestHeader 0).encode ++ zeros Info.size) = .error .notFound := by
      have blank : zeros Info.size = (Info.mk 0 0).encode ++ [] := by decide
      rw [blank, announced_encode, if_pos (.inl rfl)]
    exact ⟨_, made, (collect_of_reply exchanged).trans (continueWith_nothing told), way.thenLog ..⟩
  | spm => exact ⟨_, made, collect_of_unsupported exchanged, way.thenLog ..⟩

theorem collect_something (lengths : 0 < (Offer.gathered offers).length) (counts : 0 < Offer.counted offers) :
    let monitor := Manager.monitor (ofBodyHandlers abi base length handlers)
    ∃ middle made, collect (communicate monitor) m =
        fetch (communicate monitor) (Offer.gathered offers).length middle ∧
      Excursion m middle made [(aggregatorGuid, zeros Info.size)] := by
  obtain ⟨middle, made, exchanged, way⟩ :=
    communicate_request registered linked unmoved speaks 0 holdsTotals
  have short : (zeros Info.size).length < Info.size + (Offer.gathered offers).length := by simp; omega
  obtain ⟨small, announcing⟩ := aggregate_without_room representable (zeros Info.size) lengths counts
    (by simp) (by decide) short
  have announced := announced_encode (requestHeader 0) (Offer.totals offers) ((zeros Info.size).drop Info.size)
  rw [if_neg (nonzero_totals representable lengths counts)] at announced
  have heard : verdict abi (.error .bufferTooSmall) = .ok () := by cases abi <;> rfl
  simp only [Nat.add_zero, small, announcing, heard] at exchanged way
  have asks : (Offer.totals offers).length.toNat = (Offer.gathered offers).length :=
    toNat_length representable.lengths
  refine ⟨middle, made, (collect_of_reply exchanged).trans ?_, way⟩
  rw [continueWith_announced announced, asks]

theorem collect_everything (lengths : 0 < (Offer.gathered offers).length) (counts : 0 < Offer.counted offers)
    (room : MessageHeader.size + (Info.size + (Offer.gathered offers).length) ≤ min length.toNat allocatable) :
    ∃ after made, collect (communicate (Manager.monitor (ofBodyHandlers abi base length handlers))) m =
        (.ok ⟨UInt64.ofNat (Offer.counted offers), Offer.gathered offers⟩, after) ∧
      Excursion m after made [(aggregatorGuid, zeros Info.size),
        (aggregatorGuid, zeros (Info.size + (Offer.gathered offers).length))] := by
  obtain ⟨middle, made, begun, way⟩ := collect_something registered linked unmoved speaks holdsTotals
    representable lengths counts
  let monitor := Manager.monitor (ofBodyHandlers abi base length handlers)
  have relinked : Linked (.identityMapped base length) middle :=
    linked.undisturbed ⟨way.session, way.serving⟩
  obtain ⟨inBuffer, allocated⟩ := Nat.le_min.mp room
  have word := Nat.le_trans allocated allocatable_le_maxSize
  obtain ⟨after, more, exchanged, onward⟩ := communicate_request registered relinked
    (by rw [way.session]; exact unmoved) (by rw [way.session]; exact speaks) _ inBuffer
  obtain ⟨success, filled⟩ := aggregate_with_room representable
    (zeros (Info.size + (Offer.gathered offers).length)) lengths counts (by simp; omega) (by simp)
  have heard : verdict abi (.ok ()) = .ok () := by cases abi <;> rfl
  have extracted := extract_encode (requestHeader (Offer.gathered offers).length)
    (toNat_length representable.lengths).symm (nonzero_totals representable lengths counts)
  have behind : (zeros (Info.size + (Offer.gathered offers).length)).drop
      (Info.size + (Offer.gathered offers).length) = [] := List.drop_of_length_le (by simp)
  simp only [success, filled, heard, behind, List.append_nil] at exchanged
  have fetched : fetch (communicate monitor) (Offer.gathered offers).length middle =
      (.ok ⟨UInt64.ofNat (Offer.counted offers), Offer.gathered offers⟩, after.log .info .hest) := by
    simp only [fetch, request_eq _ allocated, monitor, exchanged, extracted]
    rfl
  exact ⟨_, _, begun.trans fetched, (way.trans onward).thenLog ..⟩

theorem collect_too_much (lengths : 0 < (Offer.gathered offers).length) (counts : 0 < Offer.counted offers)
    (unfit : min length.toNat allocatable < MessageHeader.size + (Info.size + (Offer.gathered offers).length)) :
    ∃ after made, collect (communicate (Manager.monitor (ofBodyHandlers abi base length handlers))) m =
        (.error (excess (Offer.gathered offers).length), after) ∧
      Excursion m after made [(aggregatorGuid, zeros Info.size)] := by
  obtain ⟨middle, made, begun, way⟩ := collect_something registered linked unmoved speaks holdsTotals
    representable lengths counts
  have placed : middle.session.buffer = .identityMapped base length := by
    rw [way.session]
    exact linked.buffer unmoved
  obtain ⟨events, quiet, fetched⟩ :=
    fetch_unfit (Manager.monitor (ofBodyHandlers abi base length handlers)) (m := middle) (by rw [placed]; exact unfit)
  exact ⟨_, made, begun.trans fetched, way.thenAppend quiet⟩

end

/-- Collecting from a partition whose aggregator is asked for what well-behaved providers offer. It
takes two requests to learn the size and then to fetch everything, and no request is made in vain:
where nothing is offered, or where neither the buffer nor any allocation can hold what is offered, the first
is the only one. -/
theorem collect_offered (abi : PartitionAbi) (base length : UInt64) (handlers : Registry (BodyHandler ω))
    (offers : List Offer) (m : Machine ω)
    (reached : Reached (ofBodyHandlers abi base length handlers) (.identityMapped base length) m)
    (unmoved : m.session.buffer.mode = .physical) (speaks : abi = .spm ↔ m.session.route = .legacy)
    (registered : handlers.find? aggregatorGuid = some (aggregating (located (offers.map Offer.provider))))
    (holdsTotals : MessageHeader.size + Info.size ≤ length.toNat)
    (lengths : (Offer.gathered offers).length ≤ maxSize) (counts : Offer.counted offers ≤ maxSize) :
    let needed := MessageHeader.size + Info.size + (Offer.gathered offers).length
    let learning := (aggregatorGuid, zeros Info.size)
    let fetching := (aggregatorGuid, zeros (Info.size + (Offer.gathered offers).length))
    ∃ result after requests,
      collect (communicate (Manager.monitor (ofBodyHandlers abi base length handlers))) m = (result, after) ∧
      invocations after.journal = invocations m.journal ++ requests ∧
      if (Offer.gathered offers).length = 0 ∨ Offer.counted offers = 0 then
        result = .error (.error (nothing abi)) ∧ requests = [learning]
      else if needed ≤ min length.toNat allocatable then
        result = .ok ⟨UInt64.ofNat (Offer.counted offers), Offer.gathered offers⟩ ∧
          requests = [learning, fetching]
      else
        requests = [learning] ∧ result = .error (
          if needed ≤ allocatable then .error .bufferTooSmall
          else if needed ≤ maxSize then .assertion .capacityOverflow
          else .error .outOfResources) := by
  intro needed learning fetching
  have linked := reached.linked
  have representable : Representable offers := ⟨lengths, counts⟩
  by_cases empty : (Offer.gathered offers).length = 0 ∨ Offer.counted offers = 0
  · obtain ⟨after, made, collected, way⟩ :=
      collect_nothing registered linked unmoved speaks holdsTotals representable empty
    refine ⟨_, after, _, collected, way.invocations, ?_⟩
    rw [if_pos empty]
    exact ⟨rfl, rfl⟩
  by_cases room : needed ≤ min length.toNat allocatable
  · obtain ⟨after, made, collected, way⟩ := collect_everything registered linked unmoved speaks holdsTotals
      representable (by omega) (by omega) (by omega)
    refine ⟨_, after, _, collected, way.invocations, ?_⟩
    rw [if_neg empty, if_pos room]
    exact ⟨rfl, rfl⟩
  · obtain ⟨after, made, collected, way⟩ := collect_too_much registered linked unmoved speaks
      holdsTotals representable (by omega) (by omega) (by omega)
    refine ⟨_, after, _, collected, way.invocations, ?_⟩
    rw [if_neg empty, if_neg room]
    refine ⟨rfl, ?_⟩
    simp only [excess, needed, ← Nat.add_assoc]

def twoOffers : List Offer := [.scripted [0xA1, 0xA2] 1, .scripted [0xB1] 2]

def aggregatingTwo : Registry (BodyHandler Unit) :=
  ⟨[(aggregatorGuid, aggregating (located (twoOffers.map Offer.provider)))]⟩

/-- Two providers, in a buffer with room for what they offer. -/
theorem collect_offered_by_two :
    ∃ result after requests,
      collect (communicate (Manager.monitor (ofBodyHandlers .spm 0x1000 0x40 aggregatingTwo)))
        (firstSession .spm .legacy aggregatingTwo).2 = (result, after) ∧
      invocations after.journal = requests ∧ result = .ok ⟨3, [0xA1, 0xA2, 0xB1]⟩ ∧
      requests = [(aggregatorGuid, zeros 16), (aggregatorGuid, zeros 19)] := by
  obtain ⟨result, after, requests, collected, entered, found⟩ :=
    collect_offered .spm 0x1000 0x40 aggregatingTwo twoOffers _ (reached_firstSession _ .legacy _ rfl) rfl
      ⟨fun _ => rfl, fun _ => rfl⟩ rfl (by decide) (by decide) (by decide)
  rw [if_neg (by decide), if_pos (by decide)] at found
  exact ⟨result, after, requests, collected, entered, found⟩

end StandaloneMm.ErrorSource
