import StandaloneMm.Proofs.Discovery
import StandaloneMm.Proofs.Lending

/-! A discovery over a manager that has no pages lent. It takes four requests whatever comes of it. A query
for the hosted service puts the receive page into the hands of the normal world also if it counts
nobody, and a discovery that fails takes its pages back without handing that one over first. -/
namespace StandaloneMm

open Journal

variable {ω : Type}

namespace Manager

open Discovery

/-- Requests that the manager has answered in this way. Of the manager itself nothing changes but its list
of calls, the pages that it has been lent and who has the receive page. -/
structure Made (m after : Machine ω) (steps : List (Registers × Registers)) (scratch : Option ScratchPages)
    (rxHeld : Bool) : Prop where
  session : after.session = m.session
  traffic : traffic after.journal = traffic m.journal ++ recorded steps
  manager : after.manager = { m.manager with
    calls := m.manager.calls ++ steps.map (·.1.x0), scratch := scratch, rxHeld := rxHeld }

namespace Made

variable {m middle after : Machine ω} {steps more : List (Registers × Registers)}
  {scratch scratch' : Option ScratchPages} {held held' : Bool}

theorem trans (first : Made m middle steps scratch held) (second : Made middle after more scratch' held') :
    Made m after (steps ++ more) scratch' held' where
  session := second.session.trans first.session
  traffic := by rw [second.traffic, first.traffic, recorded_append, List.append_assoc]
  manager := by rw [second.manager, first.manager, List.map_append, List.append_assoc]

theorem thenLog (made : Made m after steps scratch held) (level : Level) (target : Target) :
    Made m (after.log level target) steps scratch held where
  session := made.session
  traffic := (traffic_noted after notes_log).trans made.traffic
  manager := made.manager

theorem thenStore (made : Made m after steps scratch held) (memory : Memory) :
    Made m { after with memory := memory } steps scratch held :=
  ⟨made.session, made.traffic, made.manager⟩

theorem scratched (made : Made m after steps scratch held) : after.manager.scratch = scratch := by
  rw [made.manager]

theorem holds (made : Made m after steps scratch held) : after.manager.rxHeld = held := by
  rw [made.manager]

end Made

theorem made_trap (loop : EventLoop ω) (m : Machine ω) (call : Registers) {ret : Registers} {memory : Memory}
    {scratch : Option ScratchPages} {held : Bool}
    (answered : handle loop call (m.record (.call call)) = (ret, { m.record (.call call) with
      memory := memory
      manager := { m.manager with
        calls := m.manager.calls ++ [call.x0], scratch := scratch, rxHeld := held } })) :
    (m.trap (monitor loop) call).1 = ret ∧ (m.trap (monitor loop) call).2.memory = memory ∧
      Made m (m.trap (monitor loop) call).2 [(call, ret)] scratch held := by
  have trapped : m.trap (monitor loop) call = _ :=
    congrArg (fun run => (run.1, run.2.record (.ret run.1))) answered
  rw [trapped]
  refine ⟨rfl, rfl, rfl, ?_, rfl⟩
  simp [Machine.record, Machine.append, traffic, recorded]

theorem made_onManager (loop : EventLoop ω) (m : Machine ω) (call : Registers)
    (run : Manager → Registers × Manager) (concerns : ∀ m, answer loop call m = onManager m run)
    {ret : Registers} {scratch : Option ScratchPages} {held : Bool}
    (ran : run { m.manager with calls := m.manager.calls ++ [call.x0] } = (ret, { m.manager with
      calls := m.manager.calls ++ [call.x0], scratch := scratch, rxHeld := held })) :
    (m.trap (monitor loop) call).1 = ret ∧ Made m (m.trap (monitor loop) call).2 [(call, ret)] scratch held := by
  have answered : handle loop call (m.record (.call call)) = (ret, { m.record (.call call) with
      memory := m.memory
      manager := { m.manager with
        calls := m.manager.calls ++ [call.x0], scratch := scratch, rxHeld := held } }) := by
    have entered :
        run { (m.record (.call call)).manager with calls := m.manager.calls ++ [call.x0] } = _ := ran
    rw [handle, concerns, onManager]
    exact congrArg (fun run => (run.1, { m.record (.call call) with manager := run.2 })) entered
  obtain ⟨answer, _, made⟩ := made_trap loop m call answered
  exact ⟨answer, made⟩

/-- The answer to a query by a caller that has lent its pages. -/
def queried (s : Manager) (service : Guid) : Registers :=
  if s.rxHeld then FfaStatus.busy.refusal
  else if service.words = serviceGuid.words then success s.partitionCount
  else FfaStatus.invalidParameters.refusal

/-- A query for this service is answered by a partition. -/
def Finds (s : Manager) (service : Guid) : Prop :=
  s.rxHeld = false ∧ service.words = serviceGuid.words ∧ s.partitionCount ≠ 0

instance (s : Manager) (service : Guid) : Decidable (Finds s service) :=
  inferInstanceAs (Decidable (_ ∧ _))

theorem hostedService_eq : hostedService = serviceGuid := rfl

theorem namesService_infoRequest (service : Guid) :
    namesService (infoRequest service) = decide (service.words = serviceGuid.words) := by
  simp [namesService, infoRequest, hostedService_eq]

theorem finds_iff {s : Manager} {service : Guid} :
    Finds s service ↔ (refused (queried s service) || (queried s service).x2 = 0) = false := by
  by_cases held : s.rxHeld = true
  · simp [Finds, queried, held, refused, FfaStatus.refusal]
  · by_cases named : service.words = serviceGuid.words
    · have other : FunctionId.ffaSuccess32 ≠ FunctionId.ffaError := by decide
      simp [Finds, queried, held, named, refused, success, other]
    · simp [Finds, queried, held, named, refused, FfaStatus.refusal]

theorem partitionInfo_infoRequest {m : Machine ω} {pages : ScratchPages} (service : Guid)
    (lent : m.manager.scratch = some pages) :
    ∃ memory, partitionInfo (infoRequest service) m = (queried m.manager service, { m with
        memory := memory
        manager := { m.manager with
          rxHeld := m.manager.rxHeld || decide (service.words = serviceGuid.words) } }) ∧
      (Finds m.manager service → memory.load pages.rx.toNat PartitionDescriptor.size = hosted.encode) := by
  have answered : partitionInfo (infoRequest service) m =
      if m.manager.rxHeld then (FfaStatus.busy.refusal, m)
      else if service.words = serviceGuid.words then (success m.manager.partitionCount, { m with
        memory := m.memory.store pages.rx.toNat hosted.encode, manager := { m.manager with rxHeld := true } })
      else (FfaStatus.invalidParameters.refusal, m) := by
    simp only [partitionInfo, lent, namesService_infoRequest, Bool.not_eq_true', decide_eq_false_iff_not, ite_not]
  have refused (stays : (m.manager.rxHeld || decide (service.words = serviceGuid.words)) = m.manager.rxHeld) :
      m = { m with manager := { m.manager with
        rxHeld := m.manager.rxHeld || decide (service.words = serviceGuid.words) } } := by rw [stays]
  by_cases held : m.manager.rxHeld = true
  · refine ⟨m.memory, ?_, fun finds => absurd (held.symm.trans finds.1) (by decide)⟩
    rw [answered, queried, if_pos held, if_pos held]
    exact congrArg _ (refused (by simp [held]))
  by_cases named : service.words = serviceGuid.words
  · refine ⟨m.memory.store pages.rx.toNat hosted.encode, ?_, fun _ => Memory.load_store ..⟩
    simp [answered, queried, held, named]
  · refine ⟨m.memory, ?_, fun finds => absurd finds.2.1 named⟩
    rw [answered, queried, if_neg held, if_neg held, if_neg named, if_neg named]
    exact congrArg _ (refused (by simp [named]))

section

variable (loop : EventLoop ω) {m : Machine ω} {pages : ScratchPages}

theorem trap_idRequest (m : Machine ω) : (m.trap (monitor loop) idRequest).1 = success normalWorldId.toUInt64 ∧
    Made m (m.trap (monitor loop) idRequest).2 [(idRequest, success normalWorldId.toUInt64)]
      m.manager.scratch m.manager.rxHeld := by
  obtain ⟨answer, _, made⟩ := made_trap loop m idRequest rfl
  exact ⟨answer, made⟩

theorem trap_mapRequest (pages : ScratchPages) (unlent : m.manager.scratch = none) :
    (m.trap (monitor loop) (mapRequest pages)).1 = success 0 ∧
      Made m (m.trap (monitor loop) (mapRequest pages)).2 [(mapRequest pages, success 0)] (some pages)
        m.manager.rxHeld := by
  refine made_onManager loop m _ (mapPages (mapRequest pages)) (fun _ => rfl) ?_
  simp only [mapPages, unlent]
  rfl

theorem trap_rxReleaseRequest (m : Machine ω) :
    (m.trap (monitor loop) (rxReleaseRequest normalWorldId)).1 = success 0 ∧
    Made m (m.trap (monitor loop) (rxReleaseRequest normalWorldId)).2 [(rxReleaseRequest normalWorldId, success 0)]
      m.manager.scratch false := by
  obtain ⟨answer, _, made⟩ := made_trap loop m (rxReleaseRequest normalWorldId) rfl
  exact ⟨answer, made⟩

theorem trap_unmapRequest (lent : m.manager.scratch = some pages) :
    (m.trap (monitor loop) (unmapRequest normalWorldId)).1 = success 0 ∧
    Made m (m.trap (monitor loop) (unmapRequest normalWorldId)).2 [(unmapRequest normalWorldId, success 0)]
      none m.manager.rxHeld := by
  refine made_onManager loop m _ (unmapPages (unmapRequest normalWorldId)) (fun _ => rfl) ?_
  have owner : (unmapRequest normalWorldId).x1 = normalWorldId.toUInt64 <<< 16 := rfl
  simp only [unmapPages, owner, lent, Option.isSome_some, and_self, if_true]

theorem trap_infoRequest (service : Guid) (lent : m.manager.scratch = some pages) :
    let asked := m.trap (monitor loop) (infoRequest service)
    asked.1 = queried m.manager service ∧
      Made m asked.2 [(infoRequest service, queried m.manager service)] (some pages)
        (m.manager.rxHeld || decide (service.words = serviceGuid.words)) ∧
      (Finds m.manager service →
        asked.2.memory.load pages.rx.toNat PartitionDescriptor.size = hosted.encode) := by
  intro asked
  let called := m.record (.call (infoRequest service))
  let entered : Machine ω := { called with
    manager := { m.manager with calls := m.manager.calls ++ [(infoRequest service).x0] } }
  obtain ⟨memory, answered, left⟩ := partitionInfo_infoRequest (m := entered) service lent
  have handled : handle loop (infoRequest service) called = _ := answered
  obtain ⟨answer, stored, made⟩ := made_trap loop m _ handled
  rw [← lent]
  exact ⟨answer, made, fun finds => stored ▸ left finds⟩

end

end Manager

namespace Discovery

open Manager (Made Finds queried success monitor hosted normalWorldId)

section

variable (loop : EventLoop ω) {m : Machine ω} {pages : ScratchPages}

def opening (pages : ScratchPages) : List (Registers × Registers) :=
  [(idRequest, success normalWorldId.toUInt64), (mapRequest pages, success 0)]

theorem lent_made (pages : ScratchPages) (unlent : m.manager.scratch = none) :
    let granted := lent (monitor loop) pages m
    refused granted.1 = false ∧ Made m granted.2 (opening pages) (some pages) m.manager.rxHeld := by
  intro granted
  obtain ⟨_, naming⟩ := Manager.trap_idRequest loop m
  have blank := (naming.thenLog .debug .ffa).thenStore
    (blanked pages (m.trap (monitor loop) idRequest).2.memory)
  obtain ⟨accepted, lends⟩ := Manager.trap_mapRequest loop pages (blank.scratched.trans unlent)
  rw [blank.holds] at lends
  have answer : granted.1 = success 0 := accepted
  rw [answer]
  exact ⟨rfl, blank.trans lends⟩

/-- The page that is left behind by a query without a result is not handed back. -/
theorem query_made (service : Guid) (lent : m.manager.scratch = some pages) :
    let run := query (monitor loop) pages normalWorldId service m
    if Finds m.manager service then
      run.1 = .ok hosted ∧ Made m run.2 [(infoRequest service, queried m.manager service),
        (rxReleaseRequest normalWorldId, success 0)] (some pages) false
    else
      run.1 = .error .unsupported ∧ Made m run.2 [(infoRequest service, queried m.manager service)] (some pages)
        (m.manager.rxHeld || decide (service.words = serviceGuid.words)) := by
  intro run
  let asked := m.trap (monitor loop) (infoRequest service)
  obtain ⟨answer, made, page⟩ := Manager.trap_infoRequest loop service lent
  have missed : (refused asked.1 || asked.1.x2 = 0) = true ↔ ¬ Finds m.manager service := by
    rw [answer, Manager.finds_iff, Bool.not_eq_false]
  by_cases finds : Finds m.manager service
  · rw [if_pos finds]
    obtain ⟨released, handing⟩ := Manager.trap_rxReleaseRequest loop asked.2
    have handed : refused (asked.2.trap (monitor loop) (rxReleaseRequest normalWorldId)).1 = false := by
      rw [released]
      rfl
    have reached : run = (.ok hosted, (asked.2.trap (monitor loop) (rxReleaseRequest normalWorldId)).2) := by
      have served := mt missed.mp (not_not_intro finds)
      simp only [asked] at served handed
      simp only [run, query, if_neg served, page finds, PartitionDescriptor.decode?_encode, handed]
      rfl
    rw [made.scratched] at handing
    rw [reached]
    exact ⟨rfl, made.trans handing⟩
  · rw [if_neg finds]
    have reached : run = (.error .unsupported, asked.2.log .error .ffa) := if_pos (missed.mpr finds)
    rw [reached]
    exact ⟨rfl, made.thenLog ..⟩

theorem release_made (lent : m.manager.scratch = some pages) :
    Made m (release (monitor loop) ⟨normalWorldId, default, some pages⟩ m).2
      [(unmapRequest normalWorldId, success 0)] none m.manager.rxHeld := by
  obtain ⟨_, made⟩ := Manager.trap_unmapRequest loop lent
  have reached := release_eq (monitor loop) (d := ⟨normalWorldId, default, some pages⟩) rfl m
  dsimp only at reached
  rw [reached]
  exact made.thenLog ..

/-- The requests of a discovery, with their answers: the last one hands the receive page back, or takes back
both pages. -/
def attempt (s : Manager) (pages : ScratchPages) (service : Guid) : List (Registers × Registers) :=
  let last := if Finds s service then rxReleaseRequest normalWorldId else unmapRequest normalWorldId
  opening pages ++ [(infoRequest service, queried s service), (last, success 0)]

/-- A discovery over a manager without lent pages finds its partition, or leaves the manager without lent
pages again. -/
theorem discover_made (pages : ScratchPages) (service : Guid) (unlent : m.manager.scratch = none) :
    let run := discover (monitor loop) pages service m
    let served := Finds m.manager service
    run.1 = (if served then .ok ⟨normalWorldId, hosted, some pages⟩ else .error .unsupported) ∧
      Made m run.2 (attempt m.manager pages service) (if served then some pages else none)
        (if served then false else m.manager.rxHeld || decide (service.words = serviceGuid.words)) := by
  intro run served
  obtain ⟨accepted, lends⟩ := lent_made loop pages unlent
  let granted := (lent (monitor loop) pages m).2.log .debug .ffa
  have opened : Made m granted (opening pages) (some pages) m.manager.rxHeld := lends.thenLog ..
  have accepted' : ¬ refused (lent (monitor loop) pages m).1 = true := Bool.eq_false_iff.mp accepted
  have reached : run = settled (monitor loop) pages normalWorldId
      (query (monitor loop) pages normalWorldId service granted) :=
    (discover_eq (monitor loop) pages service m).trans (if_neg accepted')
  have same : Finds granted.manager service ↔ Finds m.manager service := by
    rw [opened.manager]
    rfl
  have answers : queried granted.manager service = queried m.manager service := by
    rw [opened.manager]
    rfl
  have decided := query_made loop service opened.scratched
  rw [answers, opened.holds] at decided
  generalize query (monitor loop) pages normalWorldId service granted = found at decided reached
  obtain ⟨result, left⟩ := found
  dsimp only at decided
  by_cases finds : Finds m.manager service
  · rw [if_pos (same.mpr finds)] at decided
    obtain ⟨rfl, asked⟩ := decided
    simp only [served, if_pos finds, reached, attempt, settled]
    exact ⟨trivial, (opened.trans asked).thenLog ..⟩
  · rw [if_neg (mt same.mp finds)] at decided
    obtain ⟨rfl, asked⟩ := decided
    have given := release_made loop asked.scratched
    rw [asked.holds] at given
    simp only [served, if_neg finds, reached, attempt, settled]
    exact ⟨trivial, opened.trans (asked.trans given)⟩

/-- One discovery after the other, each with pages of its own. -/
def discoverAll (monitor : Monitor ω) :
    List (ScratchPages × Guid) → Machine ω → List (Except Error Directory) × Machine ω
  | [], m => ([], m)
  | (pages, service) :: rest, m =>
    let (result, m) := discover monitor pages service m
    let (results, m) := discoverAll monitor rest m
    (result :: results, m)

theorem discoverAll_cons (monitor : Monitor ω) (pages : ScratchPages) (service : Guid)
    (rest : List (ScratchPages × Guid)) (m : Machine ω) :
    (discoverAll monitor ((pages, service) :: rest) m).1 = (discover monitor pages service m).1 ::
        (discoverAll monitor rest (discover monitor pages service m).2).1 ∧
      (discoverAll monitor ((pages, service) :: rest) m).2 =
        (discoverAll monitor rest (discover monitor pages service m).2).2 := ⟨rfl, rfl⟩

/-- Someone has asked for the hosted service. -/
def Named (attempts : List (ScratchPages × Guid)) : Prop := ∃ a ∈ attempts, a.2.words = serviceGuid.words

instance (attempts : List (ScratchPages × Guid)) : Decidable (Named attempts) :=
  inferInstanceAs (Decidable (∃ a ∈ attempts, _))

@[simp] theorem named_cons (a : ScratchPages × Guid) (rest : List (ScratchPages × Guid)) :
    Named (a :: rest) ↔ a.2.words = serviceGuid.words ∨ Named rest := by
  simp [Named]

/-- Discoveries that fail take nothing with them but the receive page. They fail in front of a partition that
serves them only if it is counted as nobody. -/
theorem discoverAll_made (attempts : List (ScratchPages × Guid)) (unlent : m.manager.scratch = none)
    (failed : ∀ result ∈ (discoverAll (monitor loop) attempts m).1, ∃ e, result = .error e) :
    (∃ steps, Made m (discoverAll (monitor loop) attempts m).2 steps none
      (m.manager.rxHeld || decide (Named attempts))) ∧
      (Named attempts → m.manager.rxHeld = true ∨ m.manager.partitionCount = 0) := by
  induction attempts generalizing m with
  | nil =>
    refine ⟨⟨[], rfl, by simp [discoverAll, recorded], ?_⟩, fun named => ?_⟩
    · simp [discoverAll, Named, ← unlent]
    · simp [Named] at named
  | cons a rest ih =>
    obtain ⟨pages, service⟩ := a
    obtain ⟨results, last⟩ := discoverAll_cons (monitor loop) pages service rest m
    rw [results] at failed
    rw [last]
    obtain ⟨e, fails⟩ := failed _ (List.mem_cons_self ..)
    obtain ⟨result, made⟩ := discover_made loop pages service unlent
    have missed : ¬ Finds m.manager service := by
      intro finds
      rw [if_pos finds, fails] at result
      cases result
    rw [if_neg missed, if_neg missed] at made
    obtain ⟨⟨steps, more⟩, counts⟩ :=
      ih made.scratched fun result later => failed result (List.mem_cons_of_mem _ later)
    have count :
        (discover (monitor loop) pages service m).2.manager.partitionCount = m.manager.partitionCount := by
      rw [made.manager]
    rw [made.holds] at more counts
    rw [count] at counts
    refine ⟨⟨attempt m.manager pages service ++ steps, ?_⟩, fun named => ?_⟩
    · have whole := made.trans more
      have held : (m.manager.rxHeld || decide (service.words = serviceGuid.words) || decide (Named rest)) =
          (m.manager.rxHeld || decide (Named ((pages, service) :: rest))) := by simp [Bool.or_assoc]
      rw [held] at whole
      exact whole
    · by_cases taken : m.manager.rxHeld = true
      · exact .inl taken
      have here (asked : service.words = serviceGuid.words) : m.manager.partitionCount = 0 :=
        Classical.byContradiction fun some => missed ⟨Bool.eq_false_iff.mpr taken, asked, some⟩
      rcases (named_cons ..).mp named with asked | later
      · exact .inr (here asked)
      · rcases counts later with held | nobody
        · refine .inr (here ?_)
          simpa [taken] using held
        · exact .inr nobody

end

/-- A manager without lent pages and with the receive page in its own hands, after any discoveries that
failed. It has no pages lent again. If nobody has asked for the hosted service nothing else is changed, and
another discovery is answered as the first would have been. Otherwise the manager counts no partition,
the receive page has not been handed back, and each query from then on is refused as busy. -/
theorem discover_after_failures (loop : EventLoop ω) (attempts : List (ScratchPages × Guid)) (m : Machine ω)
    (unlent : m.manager.scratch = none) (free : m.manager.rxHeld = false)
    (failed : ∀ result ∈ (discoverAll (monitor loop) attempts m).1, ∃ e, result = .error e) :
    let after := (discoverAll (monitor loop) attempts m).2
    (∃ calls, after.manager = { m.manager with
      calls := m.manager.calls ++ calls, rxHeld := decide (Named attempts) }) ∧
      (Named attempts → m.manager.partitionCount = 0) ∧
      ∀ pages service,
        let first := discover (monitor loop) pages service m
        let later := discover (monitor loop) pages service after
        let steps := attempt m.manager pages service
        let refusals := opening pages ++ [(infoRequest service, FfaStatus.busy.refusal),
          (unmapRequest normalWorldId, success 0)]
        traffic first.2.journal = traffic m.journal ++ recorded steps ∧
          (¬ Named attempts →
            later.1 = first.1 ∧ traffic later.2.journal = traffic after.journal ++ recorded steps) ∧
          (Named attempts → later.1 = .error .unsupported ∧ later.2.manager.rxHeld = true ∧
            traffic later.2.journal = traffic after.journal ++ recorded refusals) := by
  intro after
  obtain ⟨⟨steps, made⟩, counts⟩ := discoverAll_made loop attempts unlent failed
  rw [free, Bool.false_or] at made
  refine ⟨⟨steps.map (·.1.x0), ?_⟩, ?_, fun pages service => ?_⟩
  · rw [← unlent] at made
    exact made.manager
  · intro named
    rcases counts named with held | nobody
    · exact absurd (free.symm.trans held) (by decide)
    · exact nobody
  · obtain ⟨result, began⟩ := discover_made loop pages service unlent
    obtain ⟨result', again⟩ := discover_made loop pages service made.scratched
    refine ⟨began.traffic, fun unnamed => ?_, fun named => ?_⟩
    · have alike : after.manager.rxHeld = m.manager.rxHeld ∧
          after.manager.partitionCount = m.manager.partitionCount := by simp [after, made.manager, unnamed, free]
      have finds : Finds after.manager service ↔ Finds m.manager service := by simp only [Finds, alike]
      have steps : attempt after.manager pages service = attempt m.manager pages service := by
        simp only [attempt, finds, queried, alike]
      refine ⟨?_, steps ▸ again.traffic⟩
      by_cases served : Finds m.manager service
      · exact (result'.trans (if_pos (finds.mpr served))).trans (result.trans (if_pos served)).symm
      · exact (result'.trans (if_neg (mt finds.mp served))).trans (result.trans (if_neg served)).symm
    · have held : after.manager.rxHeld = true := by simp [after, made.manager, named]
      have missed : ¬ Finds after.manager service := fun finds => absurd (held.symm.trans finds.1) (by decide)
      have steps : attempt after.manager pages service = opening pages ++
          [(infoRequest service, FfaStatus.busy.refusal), (unmapRequest normalWorldId, success 0)] := by
        simp only [attempt, if_neg missed, queried, if_pos held]
      refine ⟨result'.trans (if_neg missed), ?_, steps ▸ again.traffic⟩
      rw [again.holds, if_neg missed, held, Bool.true_or]

section

def unattended : EventLoop Unit :=
  { abi := .ffa true, buffer := .identityMapped 0x1000 0x40, handlers := ⟨[]⟩ }

def scratch : ScratchPages := ⟨0x2000, 0x3000⟩

/-- A query for a service that is not hosted is no hindrance to the next one. -/
theorem discover_after_failures_of_another :
    let m : Machine Unit := { rest := () }
    let failed := discoverAll (monitor unattended) [(scratch, EventGroup.endOfDxe)] m
    failed.1 = [.error .unsupported] ∧ failed.2.manager.rxHeld = false ∧
      (discover (monitor unattended) scratch serviceGuid failed.2).1 = .ok ⟨1, hosted, some scratch⟩ := by
  intro m failed
  have unsupported : (discover (monitor unattended) scratch EventGroup.endOfDxe m).1 = .error .unsupported :=
    (discover_made unattended scratch EventGroup.endOfDxe rfl).1.trans (if_neg (by decide))
  have fails : ∀ result ∈ failed.1, ∃ e, result = .error e := by
    intro result member
    exact ⟨_, (List.mem_singleton.mp member).trans unsupported⟩
  have unnamed : ¬ Named [(scratch, EventGroup.endOfDxe)] := by decide
  obtain ⟨⟨calls, left⟩, _, again⟩ :=
    discover_after_failures unattended [(scratch, EventGroup.endOfDxe)] m rfl rfl fails
  obtain ⟨_, alike, _⟩ := again scratch serviceGuid
  obtain ⟨same, _⟩ := alike unnamed
  have found : (discover (monitor unattended) scratch serviceGuid m).1 = .ok ⟨1, hosted, some scratch⟩ :=
    (discover_made unattended scratch serviceGuid rfl).1.trans (if_pos (by decide))
  have free : failed.2.manager.rxHeld = false :=
    (congrArg Manager.rxHeld left).trans (decide_eq_false unnamed)
  exact ⟨congrArg (· :: []) unsupported, free, same.trans found⟩

/-- The hosted service is counted as served by nobody. The receive page stays with the caller, and the same
query is refused when it is made again. -/
theorem discover_holds_receive_page :
    let m : Machine Unit := { manager := { partitionCount := 0 }, rest := () }
    let first := discover (monitor unattended) scratch serviceGuid m
    m.manager.scratch = none ∧ m.manager.rxHeld = false ∧ first.1 = .error .unsupported ∧
      first.2.manager.scratch = none ∧ first.2.manager.rxHeld = true ∧
      (asked (monitor unattended) scratch serviceGuid m).1 = success 0 ∧
      (asked (monitor unattended) scratch serviceGuid first.2).1 = FfaStatus.busy.refusal := by
  intro m first
  refine ⟨rfl, rfl, ?_, ?_, ?_, ?_, ?_⟩
  · rfl
  · rfl
  · rfl
  · rfl
  · rfl

end

end Discovery

end StandaloneMm
