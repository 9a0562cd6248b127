import StandaloneMm.Machine

/-! Stretches of a run that are spent in the world behind a call. The session is out of reach
there, and the partition is left serving what it was serving; the journal grows by the calls that
were made and the handlers that were entered on the way. -/
namespace StandaloneMm

namespace Journal

/-- The calls in a journal. What ran inside one of them stands in journals of its own. -/
def calls (journal : List Event) : List Registers :=
  journal.filterMap fun
    | .call registers => some registers
    | _ => none

/-- The handlers that were entered, each with the body it was given. -/
def invocations (journal : List Event) : List (Guid × Bytes) :=
  journal.filterMap fun
    | .handler recipient body => some (recipient, body)
    | _ => none

@[simp] theorem calls_append (a b : List Event) : calls (a ++ b) = calls a ++ calls b :=
  List.filterMap_append

@[simp] theorem invocations_append (a b : List Event) :
    invocations (a ++ b) = invocations a ++ invocations b := List.filterMap_append

/-- Events that are neither a call nor the entry of a handler. -/
def Quiet (events : List Event) : Prop := calls events = [] ∧ invocations events = []

theorem quiet_nil : Quiet [] := ⟨rfl, rfl⟩

theorem quiet_log (level : Level) (target : Target) : Quiet [.log level target] := ⟨rfl, rfl⟩

theorem quiet_ret (registers : Registers) : Quiet [.ret registers] := ⟨rfl, rfl⟩

theorem quiet_append {a b : List Event} (first : Quiet a) (second : Quiet b) : Quiet (a ++ b) := by
  simp [Quiet, first.1, first.2, second.1, second.2]

end Journal

open Journal

variable {ω : Type} {m middle after : Machine ω}

/-- From one state to another with these calls and entries, and with the session out of reach. -/
structure Excursion (m after : Machine ω) (made : List Registers) (entered : List (Guid × Bytes)) :
    Prop where
  session : after.session = m.session
  serving : after.serving = m.serving
  calls : calls after.journal = calls m.journal ++ made
  invocations : invocations after.journal = invocations m.journal ++ entered

namespace Excursion

variable {made more : List Registers} {entered others : List (Guid × Bytes)}

theorem refl (m : Machine ω) : Excursion m m [] [] := ⟨rfl, rfl, by simp, by simp⟩

theorem trans (first : Excursion m middle made entered) (second : Excursion middle after more others) :
    Excursion m after (made ++ more) (entered ++ others) where
  session := second.session.trans first.session
  serving := second.serving.trans first.serving
  calls := by rw [second.calls, first.calls, List.append_assoc]
  invocations := by rw [second.invocations, first.invocations, List.append_assoc]

theorem append (m : Machine ω) {events : List Event} (quiet : Quiet events) :
    Excursion m (m.append events) [] [] :=
  ⟨rfl, rfl, by simp [Machine.append, quiet.1], by simp [Machine.append, quiet.2]⟩

theorem log (m : Machine ω) (level : Level) (target : Target) :
    Excursion m (m.log level target) [] [] := append m (quiet_log level target)

theorem thenAppend (way : Excursion m after made entered) {events : List Event}
    (quiet : Quiet events) : Excursion m (after.append events) made entered := by
  simpa using way.trans (append after quiet)

theorem thenLog (way : Excursion m after made entered) (level : Level) (target : Target) :
    Excursion m (after.log level target) made entered := way.thenAppend (quiet_log level target)

theorem call (m : Machine ω) (registers : Registers) :
    Excursion m (m.record (.call registers)) [registers] [] :=
  ⟨rfl, rfl, by simp [Machine.record, Machine.append]; rfl, by simp [Machine.record, Machine.append]; rfl⟩

end Excursion

end StandaloneMm
