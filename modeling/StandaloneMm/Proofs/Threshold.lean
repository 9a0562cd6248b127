import StandaloneMm.Proofs.Filling

/-! The size from which on a request for descriptors is served. Probing is a fold over the reports of the
providers in plain numbers; a body with less room than the sums ask for is told them and nothing else
becomes of it, and one with that much is filled. -/
namespace StandaloneMm.ErrorSource

/-- Sums of what providers report, as numbers of any size. -/
structure Tally where
  length : Nat := 0
  count : Nat := 0
  deriving DecidableEq

/-- A report that there was no buffer counts as a whole, or not at all if it takes a sum past a word. -/
def Tally.take (t : Tally) (report : Report) : Tally :=
  match report.result with
  | .error .bufferTooSmall =>
    let length := t.length + report.summary.length.toNat
    let count := t.count + report.summary.count.toNat
    if length ≤ maxSize ∧ count ≤ maxSize then ⟨length, count⟩ else t
  | _ => t

def tally (providers : List Provider) : Tally := (providers.map Provider.probe).foldl Tally.take {}

/-- The two words of these sums over the start of a body. -/
def Tally.announce (t : Tally) (body : Bytes) : Bytes :=
  littleEndian 8 t.count ++ littleEndian 8 t.length ++ body.drop Info.size

def Tally.summary (t : Tally) : Summary := ⟨UInt64.ofNat t.length, UInt64.ofNat t.count⟩

def Summary.tally (s : Summary) : Tally := ⟨s.length.toNat, s.count.toNat⟩

@[simp] theorem Summary.summary_tally (s : Summary) : s.tally.summary = s := by
  simp [tally, Tally.summary]

theorem Summary.announce_tally (s : Summary) {body : Bytes} (head : Info.size ≤ body.length) :
    s.tally.announce body = overlay body s.info.encode := by
  rw [overlay_of_length_le (by simpa using head), Info.length_encode]
  rfl

theorem Summary.tally_add? (totals : Summary) (report : Report) :
    ((totals.add? report).getD totals).tally = totals.tally.take report := by
  by_cases told : report.result = .error .bufferTooSmall
  · simp only [Summary.add?, Tally.take, told]
    by_cases lengths : totals.length.toNat + report.summary.length.toNat ≤ maxSize
    · by_cases counts : totals.count.toNat + report.summary.count.toNat ≤ maxSize
      · obtain ⟨length, lengthNat⟩ := sum?_of_fits lengths
        obtain ⟨count, countNat⟩ := sum?_of_fits counts
        simp [length, count, Summary.tally, lengthNat, countNat, lengths, counts]
      · simp [sum?, Summary.tally, lengths, counts]
    · simp [sum?, Summary.tally, lengths]
  · have skipped : totals.add? report = none := by
      unfold Summary.add?
      split
      · contradiction
      · rfl
    have same : totals.tally.take report = totals.tally := by
      unfold Tally.take
      split
      · contradiction
      · rfl
    rw [skipped, same, Option.getD_none]

theorem probeFrom_tally (providers : List Provider) (index : Nat) (totals : Summary) :
    (probeFrom index totals providers).1.tally =
      (providers.map Provider.probe).foldl Tally.take totals.tally := by
  induction providers generalizing index totals with
  | nil => rfl
  | cons provider rest ih =>
    have added := totals.tally_add? provider.probe
    rw [List.map_cons, List.foldl_cons, ← added]
    unfold probeFrom
    split
    next more taken =>
      rw [taken]
      exact ih _ _
    next skipped =>
      rw [skipped]
      exact ih _ _

theorem probeAll_tally (providers : List Provider) : (probeAll providers).1.tally = tally providers :=
  probeFrom_tally providers 0 {}

/-- The providers that were asked for their size, in order. -/
def probings (events : List Event) : List Nat :=
  events.filterMap fun event => match event with
    | .probe provider => some provider
    | _ => none

theorem probings_append (a b : List Event) : probings (a ++ b) = probings a ++ probings b :=
  List.filterMap_append

theorem probings_probeFrom (index : Nat) (totals : Summary) (providers : List Provider) :
    probings (probeFrom index totals providers).2 = List.range' index providers.length := by
  induction providers generalizing index totals with
  | nil => rfl
  | cons provider rest ih =>
    unfold probeFrom
    split
    · exact congrArg (index :: ·) (ih _ _)
    · exact congrArg (index :: ·) (ih _ _)

theorem probings_probeAll (providers : List Provider) :
    probings (probeAll providers).2 = List.range providers.length := by
  rw [probeAll, probings_probeFrom, List.range_eq_range']

theorem Writer.probings_append (w : Writer) (index : Nat) (provider : Provider) :
    probings (w.append index provider).2 = [] := by
  unfold Writer.append
  dsimp only
  split
  · split
    · rfl
    · rfl
  · rfl

theorem Writer.probings_appendFrom (providers : List Provider) (index : Nat) (w : Writer) :
    probings (w.appendFrom index providers).2 = [] := by
  induction providers generalizing index w with
  | nil => rfl
  | cons provider rest ih =>
    have first := w.probings_append index provider
    have later := ih (index + 1) (w.append index provider).1
    simp only [appendFrom, ErrorSource.probings_append, first, later, List.append_nil]

theorem probings_fillAll (providers : List Provider) (totals : Summary) (body : Bytes) :
    probings (fillAll providers totals body).2 = [] := by
  unfold fillAll
  dsimp only
  split
  all_goals
    rw [probings_append, Writer.probings_appendFrom]
    rfl

/-- A request that ends with an error: the providers that were probed on the way, the body that it leaves,
and nobody has written any descriptors. -/
structure TurnedAway (outcome : Outcome) (error : Error) (body : Bytes) (probed : List Nat) : Prop where
  result : outcome.result = .error error
  body : outcome.body = body
  probings : probings outcome.events = probed
  fillings : fillings outcome.events = []

/-- A request that reaches the second pass: it starts from the announcing body, and every provider has its
turn. -/
structure Served (outcome : Outcome) (providers : List Provider) (body : Bytes) : Prop where
  result : outcome.result = .ok ()
  body : outcome.body =
    (fillAll providers (tally providers).summary ((tally providers).announce body)).1
  probings : probings outcome.events = List.range providers.length
  fillings : (fillings outcome.events).map Prod.fst = List.range providers.length

section

variable {published : Except Error (List Provider)} {providers : List Provider} {body : Bytes}

theorem aggregate_headless (short : body.length < Info.size) :
    TurnedAway (aggregate published body) .invalidParameter body [] := by
  unfold aggregate
  rw [if_pos short]
  exact ⟨rfl, rfl, rfl, rfl⟩

variable (head : Info.size ≤ body.length)

include head

theorem aggregate_unlocated (e : Error) : TurnedAway (aggregate (.error e) body) .notFound body [] := by
  simp only [aggregate, if_neg (Nat.not_lt.mpr head)]
  exact ⟨rfl, rfl, rfl, rfl⟩

theorem aggregate_unpublished (nothing : (tally providers).length = 0 ∨ (tally providers).count = 0) :
    TurnedAway (aggregate (.ok providers) body) .notFound body (List.range providers.length) := by
  rw [← probeAll_tally] at nothing
  have zero : (probeAll providers).1.count = 0 ∨ (probeAll providers).1.length = 0 := by
    rcases nothing with length | count
    · exact .inr (UInt64.toNat_inj.mp length)
    · exact .inl (UInt64.toNat_inj.mp count)
  simp only [aggregate, if_neg (Nat.not_lt.mpr head), if_pos zero]
  refine ⟨rfl, rfl, ?_, ?_⟩
  · rw [probings_append, probings_probeAll]
    exact List.append_nil _
  · rw [fillings_append, probeAll, fillings_probeFrom]
    rfl

variable (lengths : 0 < (tally providers).length) (counts : 0 < (tally providers).count)

include lengths counts

/-- With something to tell, the two words are written before the room is looked at. -/
theorem aggregate_published : aggregate (.ok providers) body =
    let announcing := (tally providers).announce body
    let required := Info.size + (tally providers).length
    if maxSize < required then ⟨.error .bufferTooSmall, announcing, (probeAll providers).2⟩
    else if body.length < required then
      ⟨.error .bufferTooSmall, announcing, (probeAll providers).2 ++ [.log .info .hest]⟩
    else
      let (body, more) := fillAll providers (tally providers).summary announcing
      ⟨.ok (), body, (probeAll providers).2 ++ more⟩ := by
  rw [← probeAll_tally] at lengths counts
  have something : ¬ ((probeAll providers).1.count = 0 ∨ (probeAll providers).1.length = 0) := by
    rintro (zero | zero)
    · exact absurd (congrArg UInt64.toNat zero) (Nat.ne_of_gt counts)
    · exact absurd (congrArg UInt64.toNat zero) (Nat.ne_of_gt lengths)
  rw [← probeAll_tally, Summary.summary_tally, Summary.announce_tally _ head]
  simp only [aggregate, if_neg (Nat.not_lt.mpr head), if_neg something]
  rfl

theorem aggregate_short (short : body.length < Info.size + (tally providers).length) :
    TurnedAway (aggregate (.ok providers) body) .bufferTooSmall ((tally providers).announce body)
      (List.range providers.length) := by
  rw [aggregate_published head lengths counts]
  dsimp only
  split
  · exact ⟨rfl, rfl, probings_probeAll providers, fillings_probeFrom ..⟩
  · refine ⟨rfl, rfl, ?_, ?_⟩
    · rw [probings_append, probings_probeAll]
      exact List.append_nil _
    · rw [fillings_append, probeAll, fillings_probeFrom]
      rfl

theorem aggregate_served (word : body.length ≤ maxSize)
    (room : Info.size + (tally providers).length ≤ body.length) :
    Served (aggregate (.ok providers) body) providers body := by
  let filled := fillAll providers (tally providers).summary ((tally providers).announce body)
  have reached : aggregate (.ok providers) body = ⟨.ok (), filled.1, (probeAll providers).2 ++ filled.2⟩ := by
    rw [aggregate_published head lengths counts]
    dsimp only
    rw [if_neg (by omega), if_neg (by omega)]
  have asked : (fillings (aggregate (.ok providers) body).events).map Prod.fst =
      List.range providers.length := by
    rw [← probeAll_tally] at lengths counts room
    obtain ⟨_, _, _, _, _, asked⟩ := aggregate_filled rfl
      ⟨fun zero => absurd (congrArg UInt64.toNat zero) (Nat.ne_of_gt counts),
        fun zero => absurd (congrArg UInt64.toNat zero) (Nat.ne_of_gt lengths)⟩ room word
    rw [asked, List.map_map]
    change (List.zipIdx _).map Prod.snd = _
    rw [List.zipIdx_map_snd, length_turns, List.range_eq_range']
  refine ⟨by rw [reached], by rw [reached], ?_, asked⟩
  rw [reached, probings_append, probings_probeAll, probings_fillAll, List.append_nil]

end

/-- Who comes with too little room learns how much it takes, and nothing else happens. -/
theorem aggregate_threshold (published : Except Error (List Provider)) (body : Bytes)
    (word : body.length ≤ maxSize) :
    let outcome := aggregate published body
    (body.length < Info.size → TurnedAway outcome .invalidParameter body []) ∧
      (Info.size ≤ body.length → (∃ e, published = .error e) ∨ published = located [] →
        TurnedAway outcome .notFound body []) ∧
      ∀ providers, published = .ok providers →
        let sums := tally providers
        let everyone := List.range providers.length
        (Info.size ≤ body.length → sums.length = 0 ∨ sums.count = 0 →
          TurnedAway outcome .notFound body everyone) ∧
        (0 < sums.length → 0 < sums.count → Info.size + sums.length ≤ body.length →
          Served outcome providers body) ∧
        (outcome.result = .error .bufferTooSmall ↔ 0 < sums.length ∧ 0 < sums.count ∧
          Info.size ≤ body.length ∧ body.length < Info.size + sums.length) ∧
        (outcome.result = .error .bufferTooSmall →
          TurnedAway outcome .bufferTooSmall (sums.announce body) everyone ∧
          ∀ retry : Bytes, retry.length = Info.size + sums.length → retry.length ≤ maxSize →
            Served (aggregate published retry) providers retry) := by
  intro outcome
  refine ⟨aggregate_headless, fun head missing => ?_, ?_⟩
  · rcases missing with ⟨e, rfl⟩ | rfl
    · exact aggregate_unlocated head e
    · exact aggregate_unlocated head .notFound
  rintro providers rfl sums everyone
  have small : outcome.result = .error .bufferTooSmall ↔ 0 < sums.length ∧ 0 < sums.count ∧
      Info.size ≤ body.length ∧ body.length < Info.size + sums.length := by
    refine ⟨fun told => ?_, fun ⟨lengths, counts, head, short⟩ => ?_⟩
    · by_cases head : Info.size ≤ body.length
      case neg => cases (aggregate_headless (Nat.lt_of_not_le head)).result.symm.trans told
      by_cases nothing : sums.length = 0 ∨ sums.count = 0
      case pos => cases (aggregate_unpublished head nothing).result.symm.trans told
      have lengths : 0 < sums.length := by omega
      have counts : 0 < sums.count := by omega
      by_cases room : Info.size + sums.length ≤ body.length
      case pos => cases (aggregate_served head lengths counts word room).result.symm.trans told
      exact ⟨lengths, counts, head, Nat.lt_of_not_le room⟩
    · exact (aggregate_short head lengths counts short).result
  refine ⟨fun head nothing => aggregate_unpublished head nothing, fun lengths counts room => ?_, small,
    fun told => ?_⟩
  · exact aggregate_served (by omega) lengths counts word room
  · obtain ⟨lengths, counts, head, short⟩ := small.mp told
    refine ⟨aggregate_short head lengths counts short, fun retry exactly fits => ?_⟩
    exact aggregate_served (by omega) lengths counts fits (Nat.le_of_eq exactly.symm)

open Rehearsal in
/-- The second report would take the length past a word and the third one the count, so neither counts, and
the fourth provider does not answer as asked. -/
theorem aggregate_threshold_skipping :
    let offering (length count : UInt64) : Report := ⟨⟨length, count⟩, .error .bufferTooSmall⟩
    let providers := [offering 4 1, offering 0xFFFFFFFFFFFFFFFF 1, offering 1 0xFFFFFFFFFFFFFFFF,
      ⟨⟨16, 4⟩, .ok ()⟩, offering 8 2].map fun report => provider report [] none 0 (.ok ())
    let outcome := aggregate (.ok providers) (zeros 20)
    outcome.result = .error .bufferTooSmall ∧
      outcome.body = littleEndian 8 3 ++ littleEndian 8 12 ++ zeros 4 ∧
      probings outcome.events = [0, 1, 2, 3, 4] ∧ fillings outcome.events = [] ∧
      Served (aggregate (.ok providers) (zeros 28)) providers (zeros 28) := by
  intro offering providers outcome
  obtain ⟨_, _, asked⟩ := aggregate_threshold (.ok providers) (zeros 20) (by decide)
  obtain ⟨_, _, small, told⟩ := asked providers rfl
  have sums : tally providers = ⟨12, 3⟩ := by decide +kernel
  rw [sums] at small told
  obtain ⟨turned, retried⟩ := told (small.mpr (by decide))
  exact ⟨turned.result, turned.body, turned.probings, turned.fillings,
    retried (zeros 28) (by decide) (by decide)⟩

end StandaloneMm.ErrorSource
