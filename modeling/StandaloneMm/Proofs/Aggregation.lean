import StandaloneMm.ErrorSource.Aggregation
import StandaloneMm.Proofs.BodyHandler
import StandaloneMm.Rehearsal.Handlers

/-! Aggregating the descriptors of providers that keep to their contract. Probing adds up what they
offer, and filling puts their descriptors back to back in the order of registration. -/
namespace StandaloneMm

open Journal

theorem length_overlayAt (old : Bytes) (offset : Nat) (fresh : Bytes) :
    (overlayAt old offset fresh).length = old.length := by
  simp [overlayAt]
  omega

namespace ErrorSource

theorem quiet_probe (index : Nat) (level : Level) :
    Quiet [.probe index, .log level .hest] := ⟨rfl, rfl⟩

theorem quiet_probeFrom (index : Nat) (totals : Summary) (providers : List Provider) :
    Quiet (probeFrom index totals providers).2 := by
  induction providers generalizing index totals with
  | nil => exact quiet_nil
  | cons provider rest ih =>
    unfold probeFrom
    split
    · exact quiet_append (quiet_probe index .trace) (ih _ _)
    · exact quiet_append (quiet_probe index .warn) (ih _ _)

theorem Writer.quiet_append (w : Writer) (index : Nat) (provider : Provider) :
    Quiet (w.append index provider).2 := by
  unfold Writer.append
  dsimp only
  split
  · split
    · exact ⟨rfl, rfl⟩
    · exact ⟨rfl, rfl⟩
  · exact ⟨rfl, rfl⟩

theorem Writer.quiet_appendFrom (index : Nat) (w : Writer) (providers : List Provider) :
    Quiet (w.appendFrom index providers).2 := by
  induction providers generalizing index w with
  | nil => exact quiet_nil
  | cons provider rest ih => exact Journal.quiet_append (w.quiet_append index provider) (ih _ _)

theorem quiet_fillAll (providers : List Provider) (totals : Summary) (body : Bytes) :
    Quiet (fillAll providers totals body).2 := by
  let area := (body.drop Info.size).take totals.length.toNat
  have filled := Writer.quiet_appendFrom 0 { payload := area } providers
  unfold fillAll
  dsimp only
  split
  · exact quiet_append filled (quiet_log .debug .hest)
  · exact quiet_append filled (quiet_append (quiet_log .error .hest) (quiet_log .debug .hest))

theorem length_fillAll (providers : List Provider) (totals : Summary) (body : Bytes) :
    (fillAll providers totals body).1.length = body.length := by
  unfold fillAll
  dsimp only
  split
  · exact length_overlayAt _ _ _
  · rw [length_overlay, length_overlayAt]

theorem quiet_aggregate (published : Except Error (List Provider)) (body : Bytes) :
    Quiet (aggregate published body).events := by
  unfold aggregate
  split
  · exact quiet_log ..
  cases published with
  | error e => exact quiet_log ..
  | ok providers =>
    have probed := quiet_probeFrom 0 {} providers
    dsimp only
    split
    · exact quiet_append probed (quiet_log ..)
    split
    · exact probed
    split
    · exact quiet_append probed (quiet_log ..)
    · exact quiet_append probed (quiet_fillAll providers _ _)

theorem length_aggregate (published : Except Error (List Provider)) (body : Bytes) :
    (aggregate published body).body.length = body.length := by
  unfold aggregate
  split
  · rfl
  cases published with
  | error e => rfl
  | ok providers =>
    dsimp only
    split
    · rfl
    split
    · exact length_overlay _ _
    split
    · exact length_overlay _ _
    · rw [length_fillAll, length_overlay]

/-- The aggregator keeps to its body. -/
def aggregating {ω : Type} (published : Except Error (List Provider)) : BodyHandler ω where
  work own body :=
    let outcome := aggregate published body
    ⟨outcome.result, outcome.body, own, outcome.events⟩
  length _ body := length_aggregate published body
  quiet _ body := quiet_aggregate published body

example {ω : Type} (published : Except Error (List Provider)) :
    (aggregating published : BodyHandler ω).handler = Rehearsal.aggregator published := rfl

/-- A provider that keeps to its contract. Asked for its size it tells it, and whoever has the room
gets its descriptors at the start of it; what else the provider leaves there is open. -/
structure Offer where
  provider : Provider
  descriptors : Bytes
  count : UInt64
  probes : provider.probe = ⟨⟨UInt64.ofNat descriptors.length, count⟩, .error .bufferTooSmall⟩
  fills : ∀ room, descriptors.length ≤ room.length →
    (provider.fill room).1.take descriptors.length = descriptors ∧
      (provider.fill room).2 = ⟨⟨UInt64.ofNat descriptors.length, count⟩, .ok ()⟩

namespace Offer

/-- A provider that writes the same descriptors each time. -/
def scripted (descriptors : Bytes) (count : UInt64) : Offer where
  provider := Rehearsal.provider ⟨⟨UInt64.ofNat descriptors.length, count⟩, .error .bufferTooSmall⟩
    descriptors none count (.ok ())
  descriptors := descriptors
  count := count
  probes := rfl
  fills room large := by
    have written : (overlay room descriptors).take descriptors.length = descriptors := by
      rw [overlay_of_length_le large, List.take_left]
    simp only [Rehearsal.provider, written, Nat.min_eq_left large, Option.getD_none, true_and]

/-- The descriptors of all offers, back to back. -/
def gathered (offers : List Offer) : Bytes := offers.flatMap descriptors

/-- The sum of their counts. -/
def counted : List Offer → Nat
  | [] => 0
  | o :: offers => o.count.toNat + counted offers

variable (o : Offer) (offers : List Offer)

@[simp] theorem gathered_cons : gathered (o :: offers) = o.descriptors ++ gathered offers := rfl

@[simp] theorem counted_cons : counted (o :: offers) = o.count.toNat + counted offers := rfl

end Offer

theorem toNat_length {n : Nat} (fits : n ≤ maxSize) : (UInt64.ofNat n).toNat = n := by
  simp only [maxSize] at fits
  exact UInt64.toNat_ofNat_of_lt' (by simp [UInt64.size]; omega)

theorem sum?_of_fits {a b : UInt64} (fits : a.toNat + b.toNat ≤ maxSize) :
    sum? a b = some (a + b) ∧ (a + b).toNat = a.toNat + b.toNat := by
  refine ⟨by rw [sum?, if_pos fits], ?_⟩
  simp only [maxSize] at fits
  rw [UInt64.toNat_add]
  omega

theorem Offer.add? (o : Offer) (totals : Summary)
    (lengths : totals.length.toNat + o.descriptors.length ≤ maxSize)
    (counts : totals.count.toNat + o.count.toNat ≤ maxSize) :
    ∃ more, totals.add? o.provider.probe = some more ∧
      more.length.toNat = totals.length.toNat + o.descriptors.length ∧
      more.count.toNat = totals.count.toNat + o.count.toNat := by
  have size := toNat_length (n := o.descriptors.length) (by omega)
  obtain ⟨length, lengthNat⟩ := sum?_of_fits (a := totals.length) (b := UInt64.ofNat o.descriptors.length)
    (by rw [size]; exact lengths)
  obtain ⟨count, countNat⟩ := sum?_of_fits counts
  rw [size] at lengthNat
  refine ⟨⟨_, _⟩, ?_, lengthNat, countNat⟩
  simp only [Summary.add?, o.probes, length, count]
  rfl

/-- Probing adds up the offers, as long as the sums stay words. -/
theorem probeFrom_offers (offers : List Offer) (index : Nat) (totals : Summary)
    (lengths : totals.length.toNat + (Offer.gathered offers).length ≤ maxSize)
    (counts : totals.count.toNat + Offer.counted offers ≤ maxSize) :
    let final := (probeFrom index totals (offers.map Offer.provider)).1
    final.length.toNat = totals.length.toNat + (Offer.gathered offers).length ∧
      final.count.toNat = totals.count.toNat + Offer.counted offers := by
  induction offers generalizing index totals with
  | nil => exact ⟨rfl, rfl⟩
  | cons o rest ih =>
    simp only [Offer.gathered_cons, Offer.counted_cons, List.length_append] at lengths counts ⊢
    obtain ⟨more, added, length, count⟩ := o.add? totals (by omega) (by omega)
    obtain ⟨lengthAfter, countAfter⟩ := ih (index + 1) more (by omega) (by omega)
    simp only [List.map_cons, probeFrom, added]
    exact ⟨by omega, by omega⟩

namespace Writer

theorem append_offer (w : Writer) (index : Nat) (o : Offer)
    (room : w.cursor + o.descriptors.length ≤ w.payload.length) (word : o.descriptors.length ≤ maxSize)
    (counts : w.count.toNat + o.count.toNat ≤ maxSize) :
    let next := (w.append index o.provider).1
    next.payload.take next.cursor = w.payload.take w.cursor ++ o.descriptors ∧
      next.payload.length = w.payload.length ∧ next.cursor = w.cursor + o.descriptors.length ∧
      next.count.toNat = w.count.toNat + o.count.toNat := by
  intro next
  have behind : o.descriptors.length ≤ (w.payload.drop w.cursor).length := by simp; omega
  obtain ⟨written, told⟩ := o.fills (w.payload.drop w.cursor) behind
  let left := (o.provider.fill (w.payload.drop w.cursor)).1
  have size := toNat_length word
  obtain ⟨count, countNat⟩ := sum?_of_fits counts
  have appended : next =
      { payload := w.payload.take w.cursor ++ overlay (w.payload.drop w.cursor) left
        cursor := w.cursor + o.descriptors.length
        count := w.count + o.count } := by
    simp only [next, Writer.append, told, size, if_pos behind, addCount, count, Option.getD_some, left]
  have long : o.descriptors.length ≤ left.length := by
    have cut : (left.take o.descriptors.length).length = o.descriptors.length := congrArg List.length written
    rw [List.length_take] at cut
    omega
  have front : (overlay (w.payload.drop w.cursor) left).take o.descriptors.length = o.descriptors := by
    have within : o.descriptors.length ≤ (left.take (w.payload.drop w.cursor).length).length := by
      rw [List.length_take]
      omega
    rw [overlay, List.take_append_of_le_length within, List.take_take, Nat.min_eq_left behind]
    exact written
  rw [appended]
  refine ⟨?_, by simp; omega, rfl, countNat⟩
  have past : w.cursor + o.descriptors.length = (w.payload.take w.cursor).length + o.descriptors.length := by
    simp
    omega
  rw [past, List.take_length_add_append, front]

/-- Filling lays the descriptors back to back behind what is there. -/
theorem appendFrom_offers (offers : List Offer) (index : Nat) (w : Writer)
    (room : w.cursor + (Offer.gathered offers).length ≤ w.payload.length)
    (word : w.payload.length ≤ maxSize)
    (counts : w.count.toNat + Offer.counted offers ≤ maxSize) :
    let final := (w.appendFrom index (offers.map Offer.provider)).1
    final.payload.take final.cursor = w.payload.take w.cursor ++ Offer.gathered offers ∧
      final.payload.length = w.payload.length ∧
      final.cursor = w.cursor + (Offer.gathered offers).length ∧
      final.count.toNat = w.count.toNat + Offer.counted offers := by
  -- What lies in front of the cursor is final, and every offer is added to it.
  induction offers generalizing index w with
  | nil => exact ⟨by simp [appendFrom, Offer.gathered], rfl, rfl, rfl⟩
  | cons o rest ih =>
    simp only [Offer.gathered_cons, Offer.counted_cons, List.length_append] at room counts ⊢
    obtain ⟨front, length, cursor, count⟩ := w.append_offer index o (by omega) (by omega) (by omega)
    obtain ⟨frontAfter, lengthAfter, cursorAfter, countAfter⟩ :=
      ih (index + 1) (w.append index o.provider).1 (by omega) (by omega) (by omega)
    simp only [List.map_cons, appendFrom]
    refine ⟨?_, by omega, by omega, by omega⟩
    rw [frontAfter, front, List.append_assoc]

end Writer

/-- Offers whose sums are words. -/
structure Representable (offers : List Offer) : Prop where
  lengths : (Offer.gathered offers).length ≤ maxSize
  counts : Offer.counted offers ≤ maxSize

/-- The totals of some offers, as they stand in front of their descriptors. -/
def Offer.totals (offers : List Offer) : Info :=
  ⟨UInt64.ofNat (counted offers), UInt64.ofNat (gathered offers).length⟩

variable {offers : List Offer}

theorem info_eq_totals {totals : Summary} (length : totals.length.toNat = (Offer.gathered offers).length)
    (count : totals.count.toNat = Offer.counted offers) : totals.info = Offer.totals offers := by
  rw [Summary.info, Offer.totals, ← length, ← count, UInt64.ofNat_toNat, UInt64.ofNat_toNat]

section

variable (representable : Representable offers)

include representable

theorem probeAll_offers : ∃ totals events, probeAll (offers.map Offer.provider) = (totals, events) ∧
    totals.length.toNat = (Offer.gathered offers).length ∧ totals.count.toNat = Offer.counted offers := by
  obtain ⟨length, count⟩ := probeFrom_offers offers 0 {} (by simpa using representable.lengths)
    (by simpa using representable.counts)
  exact ⟨_, _, rfl, by simpa using length, by simpa using count⟩

theorem fillAll_offers {totals : Summary} {body : Bytes}
    (length : totals.length.toNat = (Offer.gathered offers).length)
    (count : totals.count.toNat = Offer.counted offers)
    (room : Info.size + (Offer.gathered offers).length ≤ body.length) :
    (fillAll (offers.map Offer.provider) totals body).1 = body.take Info.size ++ Offer.gathered offers ++
      body.drop (Info.size + (Offer.gathered offers).length) := by
  let area := (body.drop Info.size).take totals.length.toNat
  have sized : area.length = (Offer.gathered offers).length := by
    simp only [area, List.length_take, List.length_drop]
    omega
  obtain ⟨front, lengthAfter, cursor, countAfter⟩ := Writer.appendFrom_offers offers 0 { payload := area }
    (by simpa using Nat.le_of_eq sized.symm) (by rw [sized]; exact representable.lengths)
    (by simpa using representable.counts)
  let final := (Writer.appendFrom 0 { payload := area } (offers.map Offer.provider)).1
  have cursorAt : final.cursor = (Offer.gathered offers).length := by simpa using cursor
  have filled : final.payload = Offer.gathered offers := by
    have all : final.payload.length ≤ final.cursor := by
      rw [cursorAt, ← sized]
      exact Nat.le_of_eq lengthAfter
    have whole : final.payload.take final.cursor = Offer.gathered offers := by simpa using front
    rwa [List.take_of_length_le all] at whole
  have kept : final.summary = totals := by
    have sameLength : final.summary.length = totals.length := by
      rw [Writer.summary, cursorAt, ← length, UInt64.ofNat_toNat]
    have sameCount : final.summary.count = totals.count := by
      have counted : final.count.toNat = Offer.counted offers := by simpa using countAfter
      exact UInt64.toNat_inj.mp (counted.trans count.symm)
    cases totals
    exact congr (congrArg Summary.mk sameLength) sameCount
  have laid : overlayAt body Info.size (Offer.gathered offers) = body.take Info.size ++ Offer.gathered offers ++
      body.drop (Info.size + (Offer.gathered offers).length) := by
    rw [overlayAt, overlay_of_length_le (by simp; omega), List.drop_drop, List.append_assoc]
  unfold fillAll
  dsimp only
  rw [if_pos kept]
  exact (congrArg (overlayAt body Info.size) filled).trans laid

theorem aggregate_nothing (body : Bytes)
    (nothing : (Offer.gathered offers).length = 0 ∨ Offer.counted offers = 0)
    (head : Info.size ≤ body.length) :
    let outcome := aggregate (located (offers.map Offer.provider)) body
    outcome.result = .error .notFound ∧ outcome.body = body := by
  obtain ⟨totals, events, probed, length, count⟩ := probeAll_offers representable
  have zero : totals.count = 0 ∨ totals.length = 0 := by
    rcases nothing with empty | uncounted
    · exact .inr (UInt64.toNat_inj.mp (length.trans empty))
    · exact .inl (UInt64.toNat_inj.mp (count.trans uncounted))
  unfold aggregate
  rw [if_neg (Nat.not_lt.mpr head)]
  unfold located
  split
  next missing => exact ⟨rfl, rfl⟩
  next found =>
    split at found
    · cases found
    · cases found
      rw [probed]
      dsimp only
      rw [if_pos zero]
      exact ⟨rfl, rfl⟩

theorem aggregate_something (body : Bytes) (lengths : 0 < (Offer.gathered offers).length)
    (counts : 0 < Offer.counted offers) (head : Info.size ≤ body.length) (word : body.length ≤ maxSize) :
    let outcome := aggregate (located (offers.map Offer.provider)) body
    let announcing := (Offer.totals offers).encode ++ body.drop Info.size
    ∃ totals : Summary, totals.length.toNat = (Offer.gathered offers).length ∧
      totals.count.toNat = Offer.counted offers ∧
      (body.length < Info.size + (Offer.gathered offers).length →
        outcome.result = .error .bufferTooSmall ∧ outcome.body = announcing) ∧
      (Info.size + (Offer.gathered offers).length ≤ body.length → outcome.result = .ok () ∧
        outcome.body = (fillAll (offers.map Offer.provider) totals announcing).1) := by
  intro outcome announcing
  obtain ⟨totals, events, probed, length, count⟩ := probeAll_offers representable
  have published : ¬ (offers.map Offer.provider).isEmpty = true := by
    intro none
    rw [List.isEmpty_iff, List.map_eq_nil_iff] at none
    rw [none] at lengths
    exact absurd lengths (by decide)
  have something : ¬ (totals.count = 0 ∨ totals.length = 0) := by
    rintro (zero | zero)
    · rw [← count, zero] at counts
      exact absurd counts (by decide)
    · rw [← length, zero] at lengths
      exact absurd lengths (by decide)
  have laid : overlay body totals.info.encode = announcing := by
    rw [overlay_of_length_le (by simpa using head), info_eq_totals length count, Info.length_encode]
  have eq : outcome = if maxSize < Info.size + totals.length.toNat then
      ⟨.error .bufferTooSmall, announcing, events⟩
    else if body.length < Info.size + totals.length.toNat then
      ⟨.error .bufferTooSmall, announcing, events ++ [.log .info .hest]⟩
    else ⟨.ok (), (fillAll (offers.map Offer.provider) totals announcing).1,
      events ++ (fillAll (offers.map Offer.provider) totals announcing).2⟩ := by
    simp only [outcome, aggregate, if_neg (Nat.not_lt.mpr head), located, if_neg published, probed,
      if_neg something, laid]
  rw [length] at eq
  refine ⟨totals, length, count, fun short => ?_, fun room => ?_⟩
  · rw [eq, if_pos short]
    split
    · exact ⟨rfl, rfl⟩
    · exact ⟨rfl, rfl⟩
  · rw [eq, if_neg (by omega), if_neg (Nat.not_lt.mpr room)]
    exact ⟨rfl, rfl⟩

theorem aggregate_without_room (body : Bytes) (lengths : 0 < (Offer.gathered offers).length)
    (counts : 0 < Offer.counted offers) (head : Info.size ≤ body.length) (word : body.length ≤ maxSize)
    (short : body.length < Info.size + (Offer.gathered offers).length) :
    let outcome := aggregate (located (offers.map Offer.provider)) body
    outcome.result = .error .bufferTooSmall ∧
      outcome.body = (Offer.totals offers).encode ++ body.drop Info.size := by
  obtain ⟨_, _, _, announces, _⟩ := aggregate_something representable body lengths counts head word
  exact announces short

theorem aggregate_with_room (body : Bytes) (lengths : 0 < (Offer.gathered offers).length)
    (counts : 0 < Offer.counted offers) (word : body.length ≤ maxSize)
    (room : Info.size + (Offer.gathered offers).length ≤ body.length) :
    let outcome := aggregate (located (offers.map Offer.provider)) body
    outcome.result = .ok () ∧ outcome.body = (Offer.totals offers).encode ++ Offer.gathered offers ++
      body.drop (Info.size + (Offer.gathered offers).length) := by
  obtain ⟨totals, length, count, _, fills⟩ :=
    aggregate_something representable body lengths counts (by omega) word
  obtain ⟨success, filled⟩ := fills room
  refine ⟨success, filled.trans ?_⟩
  let announcing := (Offer.totals offers).encode ++ body.drop Info.size
  have front : announcing.take Info.size = (Offer.totals offers).encode := List.take_left' (by simp)
  have behind : announcing.drop (Info.size + (Offer.gathered offers).length) =
      body.drop (Info.size + (Offer.gathered offers).length) := by
    rw [← List.drop_drop, List.drop_left' (by simp), List.drop_drop]
  rw [fillAll_offers representable length count (by simp; omega), front, behind]

end

end ErrorSource

end StandaloneMm
