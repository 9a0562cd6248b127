import StandaloneMm.Proofs.Codec
import StandaloneMm.Proofs.Memory
import StandaloneMm.Manager.Calls

/-! What a session learns when it looks for its partition: the answers of the manager, and of the
partition nothing but the descriptor that lies in the lent page. -/
namespace StandaloneMm

variable {ω : Type}

namespace Discovery

variable {monitor : Monitor ω} {pages : ScratchPages} {localId : UInt16} {service : Guid}
  {m left after : Machine ω} {answer : Registers}

theorem query_ok {remote : PartitionDescriptor}
    (found : query monitor pages localId service m = (.ok remote, after)) :
    let answered := m.trap monitor (infoRequest service)
    refused answered.1 = false ∧ PartitionDescriptor.decode?
      (answered.2.memory.load pages.rx.toNat PartitionDescriptor.size) = some remote := by
  intro answered
  unfold query at found
  dsimp only at found
  split at found
  · cases found
  next accepted =>
    split at found
    · cases found
    next remote' decoded =>
      split at found
      · cases found
      · cases found
        have served := Bool.eq_false_iff.mpr accepted
        exact ⟨(Bool.or_eq_false_iff.mp served).1, decoded⟩

/-- A directory that was found names its caller by the answer to the first call, and its partition by
a query that was made with the pages lent. -/
theorem discover_ok {d : Directory} (found : discover monitor pages service m = (.ok d, after)) :
    let named := m.trap monitor idRequest
    let blank := { named.2.log .debug .ffa with memory := blanked pages named.2.memory }
    let lent := blank.trap monitor (mapRequest pages)
    d.localId = named.1.x2.toUInt16 ∧ refused lent.1 = false ∧
      ∃ left, query monitor pages d.localId service (lent.2.log .debug .ffa) = (.ok d.remote, left) := by
  intro named blank lent
  unfold discover at found
  dsimp only at found
  split at found
  · cases found
  split at found
  · cases found
  next accepted =>
    split at found
    next remote left queried =>
      cases found
      exact ⟨rfl, Bool.eq_false_iff.mpr accepted, left, queried⟩
    · cases found

end Discovery

namespace Manager

open Discovery

theorem mapPages_lends (call : Registers) {s : Manager} (accepted : refused (mapPages call s).1 = false) :
    (mapPages call s).2.scratch = some ⟨call.x1, call.x2⟩ := by
  cases lent : s.scratch with
  | none => simp only [mapPages, lent]
  | some pages =>
    simp only [mapPages, lent] at accepted
    exact absurd accepted (by decide)

theorem partitionInfo_leaves {call : Registers} {m : Machine ω} {pages : ScratchPages}
    (lent : m.manager.scratch = some pages) (accepted : refused (partitionInfo call m).1 = false) :
    (partitionInfo call m).2.memory.load pages.rx.toNat PartitionDescriptor.size = hosted.encode := by
  have refusal (status : FfaStatus) : refused status.refusal ≠ false := by simp [refused, FfaStatus.refusal]
  unfold partitionInfo at accepted ⊢
  rw [lent] at accepted ⊢
  dsimp only at accepted ⊢
  split at accepted
  · exact absurd accepted (refusal _)
  split at accepted
  · exact absurd accepted (refusal _)
  next free named =>
    rw [if_neg free, if_neg named]
    exact Memory.load_store m.memory pages.rx.toNat hosted.encode

theorem discover_hosted (loop : EventLoop ω) {pages : ScratchPages} {service : Guid}
    {m after : Machine ω} {d : Directory}
    (found : discover (monitor loop) pages service m = (.ok d, after)) :
    d.localId = normalWorldId ∧ d.remote = hosted := by
  obtain ⟨localId, accepted, left, queried⟩ := discover_ok found
  have identity : ((m.trap (monitor loop) idRequest).1.x2.toUInt16) = normalWorldId := rfl
  refine ⟨localId.trans identity, ?_⟩
  have lent := mapPages_lends (mapRequest pages) accepted
  obtain ⟨answered, decoded⟩ := query_ok queried
  have leaves := partitionInfo_leaves lent answered
  have read : PartitionDescriptor.decode? hosted.encode = some d.remote := by
    rw [← leaves]
    exact decoded
  exact Option.some.inj (read.symm.trans (PartitionDescriptor.decode?_encode hosted))

end Manager

end StandaloneMm
