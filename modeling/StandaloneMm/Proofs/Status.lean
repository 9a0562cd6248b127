import Mathlib.Data.List.Nodup
import Mathlib.Data.Set.Function
import StandaloneMm.Error

/-! The tables between errors and statuses. One leads there and the other back; that they list the same pairs
and that no status stands in them twice is all that is asked of the codes. Nothing is lost then in either
direction, except where the unnamed error is made of a status that has a name. -/
namespace StandaloneMm.Error

/-- Every error but the unnamed one. -/
def isNamed : Error → Bool
  | unknown _ => false
  | _ => true

theorem isNamed_iff {n : Error} : n.isNamed = true ↔ n ∈ named := by
  cases n <;> simp [isNamed, named]

namespace Codes

/-- No two of the codes are the same. -/
def Distinct (c : Codes) : Prop := (c.success :: named.map c.status).Nodup

instance (c : Codes) : Decidable c.Distinct := inferInstanceAs (Decidable (List.Nodup _))

/-- Not the unnamed error of a status that has a name. -/
def Canonical (c : Codes) (e : Error) : Prop := ∀ n : Error, n.isNamed = true → e ≠ unknown (c.status n)

instance (c : Codes) (e : Error) : Decidable (c.Canonical e) :=
  decidable_of_iff (∀ n ∈ named, e ≠ unknown (c.status n))
    (forall_congr' fun _ => imp_congr_left isNamed_iff.symm)

variable {c : Codes} {e n : Error} {s : UInt64}

theorem eq_unknown (unnamed : ¬ e.isNamed = true) : e = unknown (c.status e) := by
  cases e with
  | unknown status => rfl
  | _ => exact absurd rfl unnamed

theorem canonical_of_isNamed (name : e.isNamed = true) : c.Canonical e := by
  rintro n _ rfl
  exact Bool.noConfusion name

theorem canonical_unknown_iff : c.Canonical (unknown s) ↔ ∀ n : Error, n.isNamed = true → c.status n ≠ s :=
  forall₂_congr fun _ _ => not_congr ⟨fun same => (unknown.inj same).symm, fun same => same ▸ rfl⟩

/-- The table and the statuses of the named errors are two listings of the same pairs. -/
theorem mem_table_iff : (s, e) ∈ c.table ↔ e.isNamed = true ∧ c.status e = s := by
  have listed : c.table = named.map fun n => (c.status n, n) := rfl
  rw [listed, List.mem_map, isNamed_iff]
  constructor
  · rintro ⟨n, name, same⟩
    obtain ⟨rfl, rfl⟩ := Prod.mk.inj same
    exact ⟨name, rfl⟩
  · rintro ⟨name, rfl⟩
    exact ⟨e, name, rfl⟩

theorem ofStatus_of_unnamed (unnamed : c.Canonical (unknown s)) : c.ofStatus s = unknown s := by
  have absent : c.table.find? (·.1 = s) = none := by
    refine List.find?_eq_none.mpr fun entry member here => ?_
    obtain ⟨name, status⟩ := mem_table_iff.mp member
    exact canonical_unknown_iff.mp unnamed entry.2 name (status.trans (of_decide_eq_true here))
  rw [ofStatus, absent]

theorem resultOfStatus_eq_ok_iff : c.resultOfStatus s = .ok () ↔ s = c.success := by
  by_cases fine : s = c.success
  · simp [resultOfStatus, fine]
  · simp [resultOfStatus, fine]

theorem resultOfStatus_eq_error_iff : c.resultOfStatus s = .error e ↔ s ≠ c.success ∧ c.ofStatus s = e := by
  by_cases fine : s = c.success
  · simp [resultOfStatus, fine]
  · simp [resultOfStatus, fine]

section

variable (distinct : c.Distinct)

include distinct

theorem status_ne_success (name : n.isNamed = true) : c.status n ≠ c.success := by
  have listed : c.status n ∈ named.map c.status := List.mem_map_of_mem (isNamed_iff.mp name)
  exact fun same => (List.nodup_cons.mp distinct).1 (same ▸ listed)

theorem find?_status (name : n.isNamed = true) : c.table.find? (·.1 = c.status n) = some (c.status n, n) := by
  have present : (c.status n, n) ∈ c.table := mem_table_iff.mpr ⟨name, rfl⟩
  cases found : c.table.find? (·.1 = c.status n) with
  | none =>
    have absent := List.find?_eq_none.mp found _ present
    exact absurd (decide_eq_true rfl) absent
  | some entry =>
    have same : entry.1 = c.status n := by simpa using List.find?_some found
    have keys : (c.table.map Prod.fst).Nodup := (List.nodup_cons.mp distinct).2
    rw [List.inj_on_of_nodup_map keys (List.mem_of_find?_eq_some found) present same]

theorem ofStatus_of_named (name : n.isNamed = true) : c.ofStatus (c.status n) = n := by
  rw [ofStatus, find?_status distinct name]

/-- The error of a status is the one canonical error that has it. -/
theorem ofStatus_eq_iff : c.ofStatus s = e ↔ c.Canonical e ∧ c.status e = s := by
  constructor
  · rintro rfl
    by_cases unnamed : c.Canonical (unknown s)
    · rw [ofStatus_of_unnamed unnamed]
      exact ⟨unnamed, rfl⟩
    · obtain ⟨n, name, rfl⟩ : ∃ n : Error, n.isNamed = true ∧ c.status n = s := by
        simpa [canonical_unknown_iff] using unnamed
      rw [ofStatus_of_named distinct name]
      exact ⟨canonical_of_isNamed name, rfl⟩
  · rintro ⟨canonical, rfl⟩
    by_cases name : e.isNamed = true
    · exact ofStatus_of_named distinct name
    · have whole : e = unknown (c.status e) := eq_unknown name
      exact (ofStatus_of_unnamed (whole ▸ canonical)).trans whole.symm

end

end Codes

open Codes

/-- With distinct codes a status is never lost on the way through an error, nor an error on the way through
its status unless it hides a name. Success alone is no error, and whatever else arrives is reported as the one
canonical error that has it; of the canonical errors only the unnamed one of a success cannot be reported in
this way. -/
theorem statuses_lossless (c : Codes) (distinct : c.Distinct) :
    (∀ s, c.status (c.ofStatus s) = s) ∧
    (∀ e, c.ofStatus (c.status e) = e ↔ c.Canonical e) ∧
    Set.InjOn c.status {e | c.Canonical e} ∧
    (∀ s, c.resultOfStatus s = .ok () ↔ s = c.success) ∧
    (∀ s e, c.resultOfStatus s = .error e ↔ s ≠ c.success ∧ c.Canonical e ∧ c.status e = s) ∧
    ∀ e, c.resultOfStatus (c.status e) = .error e ↔ c.Canonical e ∧ e ≠ unknown c.success := by
  have back (e : Error) : c.ofStatus (c.status e) = e ↔ c.Canonical e :=
    (ofStatus_eq_iff distinct).trans (and_iff_left rfl)
  refine ⟨fun s => ((ofStatus_eq_iff distinct).mp rfl).2, back, ?_, fun s => resultOfStatus_eq_ok_iff,
    fun s e => ?_, fun e => ?_⟩
  · intro e canonical e' canonical' same
    rw [← (back e).mpr canonical, ← (back e').mpr canonical', same]
  · rw [resultOfStatus_eq_error_iff, ofStatus_eq_iff distinct]
  · rw [resultOfStatus_eq_error_iff, back, and_comm]
    refine and_congr_right fun _ => not_congr ⟨fun fine => ?_, fun hidden => hidden ▸ rfl⟩
    have unnamed : ¬ e.isNamed = true := fun name => status_ne_success distinct name fine
    have whole : e = unknown (c.status e) := eq_unknown unnamed
    rw [whole, fine]

/-- The codes in use, with a status that has no name, one that has, and the error that hides it. -/
theorem statuses_lossless_volume_full :
    efi.Distinct ∧ (∀ s, (ofStatus s).status = s) ∧ (∀ e, ofStatus e.status = e ↔ efi.Canonical e) ∧
      (∀ s, resultOfStatus s = .ok () ↔ s = 0) ∧
      ofStatus (code 11) = unknown (code 11) ∧ ofStatus notFound.status = notFound ∧
      ofStatus (code 14) ≠ unknown (code 14) ∧ notFound.status ≠ accessDenied.status ∧
      resultOfStatus (code 11) = .error (unknown (code 11)) ∧ resultOfStatus notFound.status = .error notFound := by
  have codes : efi.Distinct := by decide
  obtain ⟨there, back, distinct, ok, error, told⟩ := statuses_lossless efi codes
  have unnamed : efi.Canonical (unknown (code 11)) := by decide
  have found : efi.Canonical notFound := by decide
  have denied : efi.Canonical accessDenied := by decide
  have masked : ¬ efi.Canonical (unknown (code 14)) := by decide
  exact ⟨codes, there, back, ok, (back (unknown (code 11))).mpr unnamed, (back notFound).mpr found,
    mt (back (unknown (code 14))).mp masked, distinct.ne found denied (by decide),
    (error _ _).mpr ⟨by decide, unnamed, rfl⟩, (told notFound).mpr ⟨found, by decide⟩⟩

end StandaloneMm.Error
