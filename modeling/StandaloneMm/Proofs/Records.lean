import StandaloneMm.Proofs.Excursion
import StandaloneMm.Proofs.Exchange
import StandaloneMm.Session.Operation

/-! What a journal shows of the dealings with others: calls with their answers, and the questions
that were put to a converter. The notes that a session takes for itself concern nobody else. -/
namespace StandaloneMm

namespace Journal

/-- The calls and their answers, in order. -/
def traffic (journal : List Event) : List Event :=
  journal.filter fun
    | .call _ | .ret _ => true
    | _ => false

/-- The addresses whose mapping was asked for. -/
def conversions (journal : List Event) : List UInt64 :=
  journal.filterMap fun
    | .convert address => some address
    | _ => none

@[simp] theorem traffic_append (a b : List Event) : traffic (a ++ b) = traffic a ++ traffic b :=
  List.filter_append ..

@[simp] theorem calls_traffic (journal : List Event) : calls (traffic journal) = calls journal := by
  induction journal with
  | nil => rfl
  | cons event rest ih => cases event <;> simp_all [traffic, calls]

/-- Events that stay between a session and its own records. -/
def Notes (events : List Event) : Prop :=
  ∀ event ∈ events, match event with
    | .log _ _ | .table _ _ => True
    | _ => False

theorem notes_nil : Notes [] := nofun

theorem notes_log {level : Level} {target : Target} : Notes [.log level target] := by
  simp [Notes]

theorem notes_table {descriptors : Bytes} {count : UInt64} : Notes [.table descriptors count] := by
  simp [Notes]

namespace Notes

variable {a b events : List Event}

theorem append (first : Notes a) (second : Notes b) : Notes (a ++ b) := by
  intro event member
  rcases List.mem_append.mp member with before | behind
  · exact first event before
  · exact second event behind

theorem calls (notes : Notes events) : calls events = [] := by
  apply List.filterMap_eq_nil_iff.mpr
  intro event member
  have note := notes event member
  cases event <;> simp_all

theorem traffic (notes : Notes events) : traffic events = [] := by
  apply List.filter_eq_nil_iff.mpr
  intro event member
  have note := notes event member
  cases event <;> simp_all

theorem conversions (notes : Notes events) : conversions events = [] := by
  apply List.filterMap_eq_nil_iff.mpr
  intro event member
  have note := notes event member
  cases event <;> simp_all

theorem quiet (notes : Notes events) : Quiet events := by
  refine ⟨notes.calls, List.filterMap_eq_nil_iff.mpr fun event member => ?_⟩
  have note := notes event member
  cases event <;> simp_all

theorem not_nested (notes : Notes events) (entries : List (Answer × List Event)) :
    .nested entries ∉ events := fun member => notes _ member

end Notes

end Journal

open Journal

variable {ω : Type}

theorem Machine.append_append (m : Machine ω) (first second : List Event) :
    (m.append first).append second = m.append (first ++ second) := by
  simp only [Machine.append, List.append_assoc]

theorem traffic_noted (m : Machine ω) {events : List Event} (notes : Notes events) :
    traffic (m.append events).journal = traffic m.journal := by
  have appended : traffic (m.append events).journal = traffic m.journal ++ traffic events :=
    traffic_append ..
  rw [appended, notes.traffic, List.append_nil]

theorem Admission.notes_opening (capacity : Option UInt64) : Notes (opening capacity) := by
  unfold opening
  split
  · exact notes_log.append notes_log
  · exact notes_log

theorem Admission.Refusal.notes_records (r : Refusal) (capacity : Option UInt64) :
    Notes (r.records capacity) := by
  cases r with
  | headless => exact notes_log
  | capacity | overfull | unfit | truncated => exact (notes_opening capacity).append notes_log

theorem Delivery.notes_failureRecords (fault : Fault) : Notes (failureRecords fault) := by
  cases fault with
  | error e => exact notes_log
  | assertion a => exact notes_nil

theorem Delivery.Receipt.notes_records (r : Receipt) : Notes r.records := by
  unfold records
  split
  · exact notes_log
  · exact notes_log
  · exact notes_log
  · exact notes_nil

namespace Transport

open Admission Delivery

theorem journal_offered (message : Bytes) (capacity : Option UInt64) (total : Nat) (m : Machine ω) :
    ∃ notes, Notes notes ∧ (offered message capacity total m).journal = m.journal ++ notes := by
  have sending : Notes [.log .debug .mmComm, .log .debug .mmComm] := notes_log.append notes_log
  exact ⟨_, (notes_opening capacity).append sending, List.append_assoc ..⟩

theorem traffic_offered (message : Bytes) (capacity : Option UInt64) (total : Nat) (m : Machine ω) :
    traffic (offered message capacity total m).journal = traffic m.journal := by
  obtain ⟨notes, noted, journal⟩ := journal_offered message capacity total m
  rw [journal, traffic_append, noted.traffic, List.append_nil]

theorem calls_offered (message : Bytes) (capacity : Option UInt64) (total : Nat) (m : Machine ω) :
    calls (offered message capacity total m).journal = calls m.journal := by
  rw [← calls_traffic, traffic_offered, calls_traffic]

/-- How an exchange ends does not depend on what is on record. -/
theorem concluded_journal (route : Route) (message : Bytes) (total : Nat) (answer : Registers)
    (after : Machine ω) (journal : List Event) : ∃ result records, Notes records ∧
      concluded route message total answer after = (result, (letGo after).append records) ∧
      concluded route message total answer { after with journal := journal } =
        (result, (letGo { after with journal := journal }).append records) := by
  unfold concluded
  cases classify route answer with
  | error fault => exact ⟨_, _, notes_failureRecords fault, rfl, rfl⟩
  | ok => exact ⟨_, _, Receipt.notes_records _, rfl, rfl⟩

theorem concluded_append (route : Route) (message : Bytes) (total : Nat) (answer : Registers)
    (after : Machine ω) : ∃ records, Notes records ∧
      (concluded route message total answer after).2 = (letGo after).append records := by
  obtain ⟨_, records, notes, concludes, _⟩ :=
    concluded_journal route message total answer after after.journal
  exact ⟨records, notes, congrArg Prod.snd concludes⟩

theorem communicate_unsent {monitor : Monitor ω} {m : Machine ω} {message : Bytes} {capacity : Option UInt64}
    (unsent : m.session.inUse = true ∨
      ∃ refusal, screen m.session.buffer.length message capacity = .error refusal) :
    ∃ notes, Notes notes ∧ (communicate monitor message capacity m).2 = m.append notes := by
  rcases communicate_cases monitor message capacity m with
    ⟨refusal, _, refused⟩ | ⟨_, _, denied⟩ | ⟨header, free, admitted, _⟩
  · exact ⟨_, refusal.notes_records capacity, congrArg Prod.snd refused⟩
  · refine ⟨opening capacity ++ [.log .error .mmComm], (notes_opening capacity).append notes_log, ?_⟩
    rw [denied, Machine.log, Machine.record, Machine.append_append]
  · rcases unsent with held | ⟨refusal, turned⟩
    · rw [free] at held
      contradiction
    · rw [admitted.screen] at turned
      contradiction

end Transport

namespace ErrorSource

theorem notes_announcedRecords (totals : Except Error Info) : Notes (announcedRecords totals) := by
  unfold announcedRecords
  split
  · exact notes_log
  · exact notes_nil

theorem notes_extractRecords (found : Except Error Collection) : Notes (extractRecords found) := by
  unfold extractRecords
  split
  · exact notes_log
  · exact notes_log
  · exact notes_nil

theorem notes_failureRecords (fault : Fault) : Notes (failureRecords fault) := by
  cases fault with
  | error e => exact notes_log
  | assertion a => exact notes_nil

end ErrorSource

end StandaloneMm
