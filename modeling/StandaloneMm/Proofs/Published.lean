import StandaloneMm.Proofs.Collection

/-! Collecting from a partition that has something to offer, through a buffer of any size. A request for the
totals that does not fit is turned away in the normal world already, and the collector, which takes such an
error for a reply without room, reads the totals from its own zeros. -/
namespace StandaloneMm.ErrorSource

open Journal Transport Admission
open EventLoop (ofBodyHandlers)

variable {ω : Type}

/-- Without room for the two totals nobody is asked, and the answer is that there is nothing. -/
theorem collect_narrow (monitor : Monitor ω) {m : Machine ω}
    (narrow : m.session.buffer.length.toNat < MessageHeader.size + Info.size) :
    ∃ events, Quiet events ∧
      collect (communicate monitor) m = (.error (.error .notFound), m.append events) := by
  have fits : MessageHeader.size + (Info.size + 0) ≤ maxSize := by decide
  obtain ⟨header, events, quiet, turned⟩ := communicate_unfit monitor fits narrow
  have blank : zeros (Info.size + 0) = (Info.mk 0 0).encode ++ [] := by decide
  have told : announced (header.encode ++ zeros (Info.size + 0)) = .error .notFound := by
    rw [blank, announced_encode, if_pos (.inl rfl)]
  refine ⟨_, quiet_append quiet (quiet_log .info .hest), ?_⟩
  simp only [collect, request_eq 0 (by decide), turned, continueWith_nothing told, Machine.log, Machine.record,
    Machine.append, List.append_assoc]

theorem excess_ne_notFound (room : Nat) : excess room ≠ .error .notFound := by
  dsimp only [excess]
  split
  · nofun
  · split <;> nofun

/-- Collecting from a partition that offers something. The descriptors are found if the buffer holds them.
If it holds the totals alone the error is that of the second request, and a buffer that does not
even hold those is the one case in which the partition is said to have nothing: it has not been asked. -/
theorem collect_published (abi : PartitionAbi) (base length : UInt64) (handlers : Registry (BodyHandler ω))
    (offers : List Offer) (m : Machine ω)
    (reached : Reached (ofBodyHandlers abi base length handlers) (.identityMapped base length) m)
    (unmoved : m.session.buffer.mode = .physical) (speaks : abi = .spm ↔ m.session.route = .legacy)
    (registered : handlers.find? aggregatorGuid = some (aggregating (located (offers.map Offer.provider))))
    (lengths : 0 < (Offer.gathered offers).length ∧ (Offer.gathered offers).length ≤ maxSize)
    (counts : 0 < Offer.counted offers ∧ Offer.counted offers ≤ maxSize) :
    let totals := MessageHeader.size + Info.size
    let needed := totals + (Offer.gathered offers).length
    let collected := collect (communicate (Manager.monitor (ofBodyHandlers abi base length handlers))) m
    (collected.1 = .error (.error .notFound) ↔ length.toNat < totals) ∧
      (length.toNat < totals → calls collected.2.journal = calls m.journal ∧
        invocations collected.2.journal = invocations m.journal) ∧
      (totals ≤ length.toNat → collected.1 =
        if needed ≤ min length.toNat allocatable then
          .ok ⟨UInt64.ofNat (Offer.counted offers), Offer.gathered offers⟩
        else .error (
          if needed ≤ allocatable then .error .bufferTooSmall
          else if needed ≤ maxSize then .assertion .capacityOverflow
          else .error .outOfResources)) := by
  intro totals needed collected
  have linked := reached.linked
  have placed : m.session.buffer.length = length := congrArg SharedBuffer.length (linked.buffer unmoved)
  have representable : Representable offers := ⟨lengths.2, counts.2⟩
  have narrow (small : length.toNat < totals) : ∃ events, Quiet events ∧
      collected = (.error (.error .notFound), m.append events) :=
    collect_narrow _ (by rw [placed]; exact small)
  have exceeds : excess (Offer.gathered offers).length =
      if needed ≤ allocatable then .error .bufferTooSmall
      else if needed ≤ maxSize then .assertion .capacityOverflow
      else .error .outOfResources := by simp only [excess, needed, totals, ← Nat.add_assoc]
  have wide (holdsTotals : totals ≤ length.toNat) : collected.1 =
      if needed ≤ min length.toNat allocatable then
        .ok ⟨UInt64.ofNat (Offer.counted offers), Offer.gathered offers⟩
      else .error (excess (Offer.gathered offers).length) := by
    by_cases room : needed ≤ min length.toNat allocatable
    · obtain ⟨after, made, found, _⟩ := collect_everything registered linked unmoved speaks holdsTotals
        representable lengths.1 counts.1 (by omega)
      rw [if_pos room]
      exact congrArg Prod.fst found
    · obtain ⟨after, made, refused, _⟩ := collect_too_much registered linked unmoved speaks holdsTotals
        representable lengths.1 counts.1 (by omega)
      rw [if_neg room]
      exact congrArg Prod.fst refused
  refine ⟨⟨fun nothing => ?_, fun small => ?_⟩, fun small => ?_, exceeds ▸ wide⟩
  · apply Nat.not_le.mp
    intro holdsTotals
    rw [wide holdsTotals] at nothing
    split at nothing
    · cases nothing
    · exact excess_ne_notFound _ (Except.error.inj nothing)
  · obtain ⟨events, _, nothing⟩ := narrow small
    rw [nothing]
  · obtain ⟨events, quiet, nothing⟩ := narrow small
    rw [nothing]
    simp only [Machine.append, calls_append, invocations_append, quiet.1, quiet.2, List.append_nil, and_self]

def aggregatingOne (offer : Offer) : Registry (BodyHandler Unit) :=
  ⟨[(aggregatorGuid, aggregating (located ([offer].map Offer.provider)))]⟩

theorem collect_published_beyond_buffer :
    let handlers := aggregatingOne (.scripted (zeros 30) 1)
    let monitor := Manager.monitor (ofBodyHandlers (.ffa true) 0x1000 0x40 handlers)
    (collect (communicate monitor) (firstSession (.ffa true) .partitionAddressed handlers).2).1 =
      .error (.error .bufferTooSmall) := by
  intro handlers monitor
  obtain ⟨_, _, wide⟩ := collect_published (.ffa true) 0x1000 0x40 handlers [.scripted (zeros 30) 1]
    (firstSession (.ffa true) .partitionAddressed handlers).2
    (reached_firstSession _ .partitionAddressed _ rfl) rfl ⟨nofun, nofun⟩ rfl (by decide) (by decide)
  have result := wide (by decide)
  rw [if_neg (by decide), if_pos (by decide)] at result
  exact result

/-- A buffer with room for a header and eight bytes is too narrow for the totals, so that a partition with
a descriptor to offer is taken for one without any. -/
theorem collect_not_found_of_one :
    let offer := Offer.scripted [0xA1, 0xA2, 0xA3, 0xA4] 1
    let monitor := Manager.monitor (ofBodyHandlers .spm 0x1000000000 0x20 (aggregatingOne offer))
    let session := Lifecycle.bringUp monitor ⟨0x2000, 0x3000⟩
      ⟨.legacy, some (.identityMapped 0x1000000000 0x20)⟩ { manager := Manager.offering ⟨1, 1⟩ ⟨1, 0⟩, rest := () }
    session.1 = .ok () ∧ Offer.gathered [offer] = [0xA1, 0xA2, 0xA3, 0xA4] ∧ Offer.counted [offer] = 1 ∧
      (collect (communicate monitor) session.2).1 = .error (.error .notFound) :=
  ⟨rfl, rfl, rfl, rfl⟩

end StandaloneMm.ErrorSource
