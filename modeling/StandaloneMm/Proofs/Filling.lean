import StandaloneMm.Proofs.Aggregation
import StandaloneMm.Proofs.Codec

/-! Filling a reply from providers that keep to no contract. Each has its turn on what the ones before it
have left of the area, and what was accepted from one is out of reach of the others. -/
namespace StandaloneMm.ErrorSource

/-- What became of the room that one provider was given. It can write there, but it cannot make it longer
or shorter. -/
structure Turn where
  room : Bytes
  left : Bytes
  report : Report
  kept : left.length = room.length

def Provider.turn (provider : Provider) (room : Bytes) : Turn :=
  ⟨room, overlay room (provider.fill room).1, (provider.fill room).2, length_overlay _ _⟩

namespace Turn

/-- A success that claims no more than there was room for. -/
def accepted (t : Turn) : Bool :=
  t.report.result.isOk && t.report.summary.length.toNat ≤ t.room.length

def taken (t : Turn) : Nat := if t.accepted then t.report.summary.length.toNat else 0

def counted (t : Turn) : Nat := if t.accepted then t.report.summary.count.toNat else 0

def descriptors (t : Turn) : Bytes := t.left.take t.taken

theorem accepted_iff (t : Turn) :
    t.accepted = true ↔ t.report.result = .ok () ∧ t.report.summary.length.toNat ≤ t.room.length := by
  cases result : t.report.result with
  | ok _ => simp [accepted, result, Except.isOk, Except.toBool]
  | error _ => simp [accepted, result, Except.isOk, Except.toBool]

theorem taken_le (t : Turn) : t.taken ≤ t.room.length := by
  by_cases accepted : t.accepted = true
  · rw [taken, if_pos accepted]
    exact (t.accepted_iff.mp accepted).2
  · rw [taken, if_neg accepted]
    exact Nat.zero_le _

@[simp] theorem length_descriptors (t : Turn) : t.descriptors.length = t.taken := by
  have fits := t.taken_le
  rw [descriptors, List.length_take, t.kept, Nat.min_eq_left fits]

end Turn

/-- The turns of providers on an area, each behind what was accepted from the ones before it. -/
def turns (room : Bytes) : List Provider → List Turn
  | [] => []
  | provider :: rest =>
    let turn := provider.turn room
    turn :: turns (turn.left.drop turn.taken) rest

/-- What some turns come to together. -/
def total (amount : Turn → Nat) : List Turn → Nat
  | [] => 0
  | t :: rest => amount t + total amount rest

@[simp] theorem total_append (amount : Turn → Nat) (a b : List Turn) :
    total amount (a ++ b) = total amount a + total amount b := by
  induction a with
  | nil => exact (Nat.zero_add _).symm
  | cons t rest ih => simp only [List.cons_append, total, ih, Nat.add_assoc]

/-- How much of the area is taken by these turns. -/
def claimed (turns : List Turn) : Nat := total Turn.taken turns

def counted (turns : List Turn) : Nat := total Turn.counted turns

@[simp] theorem claimed_cons (t : Turn) (rest : List Turn) : claimed (t :: rest) = t.taken + claimed rest := rfl

@[simp] theorem claimed_append (a b : List Turn) : claimed (a ++ b) = claimed a + claimed b :=
  total_append Turn.taken a b

theorem length_turns (providers : List Provider) (area : Bytes) : (turns area providers).length = providers.length := by
  induction providers generalizing area with
  | nil => rfl
  | cons provider rest ih => simp [turns, ih]

theorem length_gathered (turns : List Turn) : (turns.flatMap Turn.descriptors).length = claimed turns := by
  induction turns with
  | nil => rfl
  | cons t rest ih => simp [ih]

theorem turns_split (providers : List Provider) (area : Bytes) {before after : List Turn} {t : Turn}
    (split : turns area providers = before ++ t :: after) :
    (∃ provider, providers[before.length]? = some provider ∧ t = provider.turn t.room) ∧
      t.room.length + claimed before = area.length := by
  induction providers generalizing area before with
  | nil => simp [turns] at split
  | cons provider rest ih =>
    let first := provider.turn area
    cases before with
    | nil =>
      obtain ⟨rfl, _⟩ := List.cons_eq_cons.mp split
      exact ⟨⟨provider, rfl, rfl⟩, rfl⟩
    | cons turn before =>
      obtain ⟨rfl, later⟩ := List.cons_eq_cons.mp split
      obtain ⟨has, room⟩ := ih (first.left.drop first.taken) later
      refine ⟨has, ?_⟩
      have fits : first.taken ≤ area.length := first.taken_le
      have left : (first.left.drop first.taken).length = area.length - first.taken := by
        rw [List.length_drop, first.kept]
        rfl
      have claims : claimed (first :: before) = first.taken + claimed before := claimed_cons first before
      rw [left] at room
      rw [claims]
      omega

/-- The capacities that providers were asked to fill, in order. -/
def fillings (events : List Event) : List (Nat × Nat) :=
  events.filterMap fun event => match event with
    | .fill provider capacity => some (provider, capacity)
    | _ => none

theorem fillings_append (a b : List Event) : fillings (a ++ b) = fillings a ++ fillings b := List.filterMap_append

theorem fillings_probeFrom (index : Nat) (totals : Summary) (providers : List Provider) :
    fillings (probeFrom index totals providers).2 = [] := by
  induction providers generalizing index totals with
  | nil => rfl
  | cons provider rest ih =>
    unfold probeFrom
    split
    · exact ih _ _
    · exact ih _ _

/-- The writer has had these turns. It keeps what it had taken before them. -/
structure Filled (w after : Writer) (turns : List Turn) : Prop where
  cursor : after.cursor = w.cursor + claimed turns
  within : after.cursor ≤ after.payload.length
  front : after.payload.take after.cursor = w.payload.take w.cursor ++ turns.flatMap Turn.descriptors
  length : after.payload.length = w.payload.length
  count : after.count.toNat = min (w.count.toNat + counted turns) maxSize

namespace Writer

theorem toNat_addCount (a b : UInt64) : (addCount a b).toNat = min (a.toNat + b.toNat) maxSize := by
  by_cases word : a.toNat + b.toNat ≤ maxSize
  · obtain ⟨sum, nat⟩ := sum?_of_fits word
    rw [addCount, sum, Option.getD_some, nat, Nat.min_eq_left word]
  · have none : sum? a b = none := if_neg word
    rw [addCount, none, Option.getD_none, toNat_length (Nat.le_refl _)]
    omega

/-- What one turn does to the writer. A turn that is not accepted leaves it where it was, and what it wrote
stands where the next one writes. -/
theorem append_turn (w : Writer) (index : Nat) (provider : Provider) :
    let t := provider.turn (w.payload.drop w.cursor)
    (w.append index provider).1 =
        { payload := w.payload.take w.cursor ++ t.left
          cursor := w.cursor + t.taken
          count := if t.accepted then addCount w.count t.report.summary.count else w.count } ∧
      fillings (w.append index provider).2 = [(index, t.room.length)] := by
  intro t
  let filled := provider.fill (w.payload.drop w.cursor)
  by_cases accepted : t.accepted = true
  · obtain ⟨success, fits⟩ := t.accepted_iff.mp accepted
    have ok : filled.2.result = .ok () := success
    have room : filled.2.summary.length.toNat ≤ (w.payload.drop w.cursor).length := fits
    have taken : t.taken = filled.2.summary.length.toNat := if_pos accepted
    simp only [filled] at ok room
    simp only [append, ok, if_pos room, taken, if_pos accepted]
    exact ⟨rfl, rfl⟩
  · have taken : t.taken = 0 := if_neg accepted
    cases result : filled.2.result with
    | ok _ =>
      have beyond : ¬ filled.2.summary.length.toNat ≤ (w.payload.drop w.cursor).length :=
        fun fits => accepted (t.accepted_iff.mpr ⟨result, fits⟩)
      simp only [filled] at result beyond
      simp only [append, result, if_neg beyond, taken, if_neg accepted]
      exact ⟨rfl, rfl⟩
    | error _ =>
      simp only [filled] at result
      simp only [append, result, taken, if_neg accepted]
      exact ⟨rfl, rfl⟩

variable {w : Writer}

theorem append_room (within : w.cursor ≤ w.payload.length) (index : Nat) (provider : Provider) :
    let t := provider.turn (w.payload.drop w.cursor)
    let after := (w.append index provider).1
    after.payload.drop after.cursor = t.left.drop t.taken := by
  intro t after
  have front : (w.payload.take w.cursor).length = w.cursor := by simp [Nat.min_eq_left within]
  simp only [after, (append_turn w index provider).1]
  rw [← List.drop_drop, List.drop_left' front]

theorem append_filled (within : w.cursor ≤ w.payload.length) (index : Nat) (provider : Provider) :
    Filled w (w.append index provider).1 [provider.turn (w.payload.drop w.cursor)] := by
  let t := provider.turn (w.payload.drop w.cursor)
  have front : (w.payload.take w.cursor).length = w.cursor := by simp [Nat.min_eq_left within]
  have left : t.left.length = w.payload.length - w.cursor := by simp [t, Provider.turn]
  have fits : t.taken ≤ w.payload.length - w.cursor := by simpa [t, Provider.turn] using t.taken_le
  rw [(append_turn w index provider).1]
  refine ⟨?_, ?_, ?_, ?_, ?_⟩
  · simp [claimed, total]
  · simp only [List.length_append, front]
    change w.cursor + t.taken ≤ w.cursor + t.left.length
    omega
  · change (w.payload.take w.cursor ++ t.left).take (w.cursor + t.taken) = _
    rw [List.take_append, front, Nat.add_sub_cancel_left, List.take_of_length_le (by omega)]
    simp [Turn.descriptors, t]
  · simp only [List.length_append, front]
    change w.cursor + t.left.length = w.payload.length
    omega
  · have bound : w.count.toNat ≤ maxSize := by
      have word := w.count.toNat_lt
      simp only [maxSize]
      omega
    by_cases accepted : t.accepted = true
    · have counts : counted [t] = t.report.summary.count.toNat := by simp [counted, total, Turn.counted, accepted]
      simp only [t] at accepted counts
      rw [counts, if_pos accepted, toNat_addCount]
    · have counts : counted [t] = 0 := by simp [counted, total, Turn.counted, accepted]
      simp only [t] at accepted counts
      rw [counts, if_neg accepted, Nat.add_zero, Nat.min_eq_left bound]

end Writer

namespace Filled

variable {w middle after : Writer} {first second : List Turn}

theorem refl (within : w.cursor ≤ w.payload.length) : Filled w w [] where
  cursor := rfl
  within := within
  front := (List.append_nil _).symm
  length := rfl
  count := by
    have word := w.count.toNat_lt
    simp only [counted, total, maxSize]
    omega

theorem trans (early : Filled w middle first) (late : Filled middle after second) :
    Filled w after (first ++ second) where
  cursor := by rw [late.cursor, early.cursor, claimed_append, Nat.add_assoc]
  within := late.within
  front := by rw [late.front, early.front, List.flatMap_append, List.append_assoc]
  length := late.length.trans early.length
  count := by
    have counts : counted (first ++ second) = counted first + counted second := by simp [counted]
    rw [late.count, early.count, counts]
    omega

end Filled

/-- A run of the writer is the turns of its providers, and each is asked for once. -/
theorem Writer.appendFrom_filled (providers : List Provider) (index : Nat) {w : Writer}
    (within : w.cursor ≤ w.payload.length) :
    let taking := turns (w.payload.drop w.cursor) providers
    Filled w (w.appendFrom index providers).1 taking ∧
      fillings (w.appendFrom index providers).2 =
        (taking.zipIdx index).map fun turn => (turn.2, turn.1.room.length) := by
  induction providers generalizing index w with
  | nil => exact ⟨.refl within, rfl⟩
  | cons provider rest ih =>
    intro taking
    have step := append_filled within index provider
    have room := append_room within index provider
    obtain ⟨filled, asked⟩ := ih (index + 1) step.within
    rw [room] at filled asked
    refine ⟨step.trans filled, ?_⟩
    have one := (append_turn w index provider).2
    have split : fillings (w.appendFrom index (provider :: rest)).2 = fillings (w.append index provider).2 ++
        fillings ((w.append index provider).1.appendFrom (index + 1) rest).2 := fillings_append _ _
    rw [split, one, asked]
    rfl

theorem fillAll_eq (providers : List Provider) {totals : Summary} {body : Bytes}
    (fits : Info.size + totals.length.toNat ≤ body.length) :
    let ran := Writer.appendFrom 0 { payload := (body.drop Info.size).take totals.length.toNat } providers
    let run := fillAll providers totals (overlay body totals.info.encode)
    (ran.1.payload.length = totals.length.toNat → run.1 =
        ran.1.summary.info.encode ++ ran.1.payload ++ body.drop (Info.size + totals.length.toNat)) ∧
      fillings run.2 = fillings ran.2 := by
  intro ran run
  have head : totals.info.encode.length ≤ body.length := by simp; omega
  have announcing : overlay body totals.info.encode = totals.info.encode ++ body.drop Info.size := by
    rw [overlay_of_length_le head, Info.length_encode]
  have behind : (overlay body totals.info.encode).drop Info.size = body.drop Info.size := by
    rw [announcing, List.drop_left' (by simp)]
  have front : (overlay body totals.info.encode).take Info.size = totals.info.encode := by
    rw [announcing, List.take_left' (by simp)]
  let laid := overlayAt (overlay body totals.info.encode) Info.size ran.1.payload
  have reached : run = if ran.1.summary = totals then (laid, ran.2 ++ [.log .debug .hest])
      else (overlay laid ran.1.summary.info.encode, ran.2 ++ [.log .error .hest, .log .debug .hest]) := by
    simp only [run, fillAll, behind]
    rfl
  rw [reached]
  refine ⟨fun full => ?_, ?_⟩
  · have room : ran.1.payload.length ≤ (body.drop Info.size).length := by
      rw [full, List.length_drop]
      omega
    have placed : laid = totals.info.encode ++ ran.1.payload ++ body.drop (Info.size + totals.length.toNat) := by
      simp only [laid, overlayAt, front, behind]
      rw [overlay_of_length_le room, full, List.drop_drop, List.append_assoc]
    by_cases same : ran.1.summary = totals
    · rw [if_pos same, same]
      exact placed
    · rw [if_neg same, placed]
      have longer : ran.1.summary.info.encode.length ≤
          (totals.info.encode ++ ran.1.payload ++ body.drop (Info.size + totals.length.toNat)).length := by
        simp
      rw [overlay_of_length_le longer, Info.length_encode, List.append_assoc, List.append_assoc,
        List.drop_left' (Info.length_encode _)]
  · split
    all_goals simp [fillings]

section

variable {providers : List Provider} {body : Bytes} {totals : Summary}
  (probed : (probeAll providers).1 = totals) (something : totals.count ≠ 0 ∧ totals.length ≠ 0)
  (fits : Info.size + totals.length.toNat ≤ body.length) (word : body.length ≤ maxSize)

include probed something fits word

theorem aggregate_filled :
    let outcome := aggregate (.ok providers) body
    let area := (body.drop Info.size).take totals.length.toNat
    let taking := turns area providers
    ∃ w : Writer, Filled { payload := area } w taking ∧ w.payload.length = totals.length.toNat ∧
      outcome.result = .ok () ∧
      outcome.body = w.summary.info.encode ++ w.payload ++ body.drop (Info.size + totals.length.toNat) ∧
      fillings outcome.events = taking.zipIdx.map (fun turn => (turn.2, turn.1.room.length)) := by
  intro outcome area taking
  obtain ⟨reply, asked⟩ := fillAll_eq providers fits
  obtain ⟨filled, each⟩ := Writer.appendFrom_filled providers 0 (w := { payload := area }) (Nat.zero_le _)
  have size : (Writer.appendFrom 0 { payload := area } providers).1.payload.length = totals.length.toNat := by
    rw [filled.length]
    simp only [area, List.length_take, List.length_drop]
    omega
  have head : ¬ body.length < Info.size := by omega
  have published : ¬ ((probeAll providers).1.count = 0 ∨ (probeAll providers).1.length = 0) := by
    rw [probed]
    exact not_or.mpr something
  have reached : outcome = ⟨.ok (), (fillAll providers totals (overlay body totals.info.encode)).1,
      (probeAll providers).2 ++ (fillAll providers totals (overlay body totals.info.encode)).2⟩ := by
    simp only [outcome, aggregate]
    rw [if_neg head, if_neg published, probed, if_neg (by omega), if_neg (by omega)]
  rw [reached]
  refine ⟨_, filled, size, rfl, reply size, ?_⟩
  rw [fillings_append, probeAll, fillings_probeFrom, List.nil_append, asked]
  exact each

/-- A reply is at one with itself, whatever the providers do. Each is asked once, for no more than is left
behind what was accepted before; what is accepted stands back to back behind the two words, which tell its
number and its length, and nothing is written past the totals. -/
theorem aggregate_consistent :
    let outcome := aggregate (.ok providers) body
    let taking := turns ((body.drop Info.size).take totals.length.toNat) providers
    outcome.result = .ok () ∧
      fillings outcome.events = taking.zipIdx.map (fun turn => (turn.2, turn.1.room.length)) ∧
      taking.length = providers.length ∧
      (∀ before t after, taking = before ++ t :: after →
        (∃ provider, providers[before.length]? = some provider ∧ t = provider.turn t.room) ∧
        t.room.length + claimed before = totals.length.toNat ∧
        (t.accepted = true ↔ t.report.result = .ok () ∧ t.report.summary.length.toNat ≤ t.room.length) ∧
        (t.accepted = true →
          (outcome.body.drop (Info.size + claimed before)).take t.report.summary.length.toNat =
            t.left.take t.report.summary.length.toNat)) ∧
      Info.decode? outcome.body =
        some ⟨UInt64.ofNat (min (counted taking) maxSize), UInt64.ofNat (claimed taking)⟩ ∧
      claimed taking ≤ totals.length.toNat ∧
      outcome.body.length = body.length ∧
      outcome.body.drop (Info.size + totals.length.toNat) = body.drop (Info.size + totals.length.toNat) := by
  intro outcome taking
  obtain ⟨w, filled, size, result, reply, asked⟩ := aggregate_filled probed something fits word
  have area : ((body.drop Info.size).take totals.length.toNat).length = totals.length.toNat := by
    simp
    omega
  have start : w.cursor = claimed taking := by simpa using filled.cursor
  have front : w.payload.take (claimed taking) = taking.flatMap Turn.descriptors := by
    simpa [start] using filled.front
  have within : claimed taking ≤ w.payload.length := start ▸ filled.within
  have behind : outcome.body.drop Info.size = w.payload ++ body.drop (Info.size + totals.length.toNat) := by
    rw [reply, List.append_assoc, List.drop_left' (by simp)]
  refine ⟨result, asked, ?_, ?_, ?_, size ▸ within, length_aggregate _ _, ?_⟩
  · exact length_turns _ _
  · intro before t after split
    obtain ⟨has, room⟩ := turns_split providers _ split
    rw [area] at room
    refine ⟨has, room, t.accepted_iff, fun accepted => ?_⟩
    have length : t.report.summary.length.toNat = t.taken := (if_pos accepted).symm
    have order : taking.flatMap Turn.descriptors =
        before.flatMap Turn.descriptors ++ (t.descriptors ++ after.flatMap Turn.descriptors) := by
      rw [split, List.flatMap_append, List.flatMap_cons]
    have behindIt : claimed before + t.taken ≤ claimed taking := by
      rw [split, claimed_append, claimed_cons]
      omega
    rw [length]
    calc (outcome.body.drop (Info.size + claimed before)).take t.taken
      _ = ((w.payload ++ body.drop (Info.size + totals.length.toNat)).drop (claimed before)).take t.taken := by
        rw [← List.drop_drop, behind]
      _ = (w.payload.drop (claimed before)).take t.taken := by
        rw [List.drop_append_of_le_length (by omega), List.take_append_of_le_length (by simp; omega)]
      _ = ((w.payload.take (claimed taking)).drop (claimed before)).take t.taken := by
        rw [List.drop_take, List.take_take, Nat.min_eq_left (by omega)]
      _ = t.descriptors := by
        rw [front, order, List.drop_left' (length_gathered before), List.take_left' t.length_descriptors]
  · have info : w.summary.info = ⟨UInt64.ofNat (min (counted taking) maxSize), UInt64.ofNat (claimed taking)⟩ := by
      have count : w.count = UInt64.ofNat (min (counted taking) maxSize) := by
        have sum := filled.count
        rw [show ((0 : UInt64).toNat) = 0 from rfl, Nat.zero_add] at sum
        rw [← sum, UInt64.ofNat_toNat]
      rw [Summary.info, Writer.summary, count, start]
    rw [reply, info, List.append_assoc]
    exact Info.decode?_encode_append _ _
  · rw [← List.drop_drop, behind, ← size, List.drop_left]

end

open Rehearsal in
/-- One provider writes over all of its room and then claims little of it, one fails after writing, one
claims more than there is, and one was not counted on. -/
theorem aggregate_consistent_scribbling :
    let offering (count : UInt64) : Report := ⟨⟨4, count⟩, .error .bufferTooSmall⟩
    let absent : Report := ⟨{}, .error .notFound⟩
    let providers :=
      [provider (offering 1) (List.replicate 8 0xAA) (some 2) 5 (.ok ()),
        provider (offering 1) (List.replicate 8 0xBB) none 1 (.error .deviceError),
        provider absent (List.replicate 8 0xCC) (some 9) 1 (.ok ()),
        provider absent [1, 2, 3] none 0xFFFFFFFFFFFFFFFF (.ok ())]
    let outcome := aggregate (.ok providers) (zeros 28)
    (probeAll providers).1 = ⟨8, 2⟩ ∧ outcome.result = .ok () ∧
      fillings outcome.events = [(0, 8), (1, 6), (2, 6), (3, 6)] ∧
      Info.decode? outcome.body = some ⟨0xFFFFFFFFFFFFFFFF, 5⟩ ∧
      (outcome.body.drop 18).take 3 = [1, 2, 3] ∧ outcome.body.drop 24 = zeros 4 := by
  intro offering absent providers outcome
  have probed : (probeAll providers).1 = ⟨8, 2⟩ := by decide
  obtain ⟨ok, asked, _, each, info, _, _, beyond⟩ :=
    aggregate_consistent probed (by decide) (by decide : Info.size + 8 ≤ (zeros 28).length) (by decide)
  let first := (provider (offering 1) (List.replicate 8 0xAA) (some 2) 5 (.ok ())).turn (zeros 8)
  let second := (provider (offering 1) (List.replicate 8 0xBB) none 1 (.error .deviceError)).turn (first.left.drop 2)
  let third := (provider absent (List.replicate 8 0xCC) (some 9) 1 (.ok ())).turn second.left
  let last := (provider absent [1, 2, 3] none 0xFFFFFFFFFFFFFFFF (.ok ())).turn third.left
  have placed := (each [first, second, third] last [] rfl).2.2.2 (by decide +kernel)
  have words : claimed [first, second, third] = 2 := by decide +kernel
  have length : last.report.summary.length.toNat = 3 := by decide +kernel
  have bytes : last.left.take 3 = [1, 2, 3] := by decide +kernel
  rw [words, length, bytes] at placed
  exact ⟨probed, ok, asked.trans (by decide +kernel), info.trans (by decide +kernel), placed, beyond⟩

end StandaloneMm.ErrorSource
