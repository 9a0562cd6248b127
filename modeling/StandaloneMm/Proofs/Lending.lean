import StandaloneMm.Proofs.Conduct
import StandaloneMm.Proofs.Discovery
import StandaloneMm.Rehearsal.Script

/-! The protocol of a discovery, and the pages that are lent for it. The requests are made one after
the other up to the first that fails, and pages that were lent are taken back exactly once: at the end
of a discovery that fails, or whenever the directory that it found gives them up. -/
namespace StandaloneMm

open Journal

variable {ω : Type}

namespace Journal

def recorded (steps : List (Registers × Registers)) : List Event :=
  steps.flatMap fun step => [.call step.1, .ret step.2]

@[simp] theorem recorded_append (a b : List (Registers × Registers)) :
    recorded (a ++ b) = recorded a ++ recorded b := List.flatMap_append

end Journal

namespace Discovery

/-- The requests of a discovery, in order. -/
def protocol (pages : ScratchPages) (service : Guid) (localId : UInt16) : List Registers :=
  [idRequest, mapRequest pages, infoRequest service, rxReleaseRequest localId]

/-- A request that is refused, or a query that matches no partition. -/
def Fails (step : Registers × Registers) : Prop :=
  step.2.x0 = FunctionId.ffaError ∨
    step.1.x0 = FunctionId.ffaPartitionInfoGet ∧ step.2.x2 = 0

theorem fails_iff_refused {request answer : Registers}
    (other : request.x0 ≠ FunctionId.ffaPartitionInfoGet) :
    Fails (request, answer) ↔ refused answer = true := by
  simp [Fails, refused, other]

theorem fails_infoRequest {service : Guid} {answer : Registers} :
    Fails (infoRequest service, answer) ↔ (refused answer || answer.x2 = 0) = true := by
  have named : (infoRequest service).x0 = FunctionId.ffaPartitionInfoGet := rfl
  simp [Fails, refused, named]

/-- The steps that are taken on some requests: each one is made unless the one before it failed. -/
inductive Taken : List Registers → List (Registers × Registers) → Prop where
  | done : Taken [] []
  | stop {request answer : Registers} {rest : List Registers} :
      Fails (request, answer) → Taken (request :: rest) [(request, answer)]
  | step {request answer : Registers} {rest : List Registers} {steps : List (Registers × Registers)} :
      ¬ Fails (request, answer) → Taken rest steps →
      Taken (request :: rest) ((request, answer) :: steps)

namespace Taken

variable {requests : List Registers} {steps : List (Registers × Registers)}

theorem inOrder (taken : Taken requests steps) : steps.map Prod.fst <+: requests := by
  induction taken with
  | done => exact List.prefix_rfl
  | stop _ => simp
  | step _ _ ih => simpa using ih

theorem stops (taken : Taken requests steps) : ∀ step ∈ steps.dropLast, ¬ Fails step := by
  induction taken with
  | done => exact nofun
  | stop _ => exact nofun
  | @step request answer rest steps accepted behind ih =>
    cases behind with
    | done => exact nofun
    | stop | step =>
      intro step member
      rcases List.mem_cons.mp member with rfl | later
      · exact accepted
      · exact ih step later

theorem completes (taken : Taken requests steps) (accepted : ∀ step ∈ steps, ¬ Fails step) :
    steps.map Prod.fst = requests := by
  induction taken with
  | done => rfl
  | stop fails => exact absurd fails (accepted _ (List.mem_singleton_self _))
  | step _ _ ih =>
    have rest := ih fun step member => accepted step (List.mem_cons_of_mem _ member)
    simp [rest]

end Taken

/-- A run that takes these steps on some requests. It comes to a result just if none of them fails. -/
structure Ran {α : Type} (requests : List Registers) (steps : List (Registers × Registers))
    (m after : Machine ω) (result : Except Error α) (good : α → Prop) : Prop where
  taken : Taken requests steps
  journal : traffic after.journal = traffic m.journal ++ recorded steps
  ends : (∃ found, result = .ok found ∧ good found ∧ ∀ step ∈ steps, ¬ Fails step) ∨
    (result = .error .unsupported ∧ ∃ step ∈ steps, Fails step)

namespace Ran

variable {α β : Type} {request answer : Registers} {rest requests : List Registers}
  {steps : List (Registers × Registers)} {m middle after : Machine ω} {result : Except Error α} {good : α → Prop}

theorem stop (fails : Fails (request, answer))
    (made : traffic after.journal = traffic m.journal ++ recorded [(request, answer)]) :
    Ran (request :: rest) [(request, answer)] m after (.error .unsupported : Except Error α) good where
  taken := .stop fails
  journal := made
  ends := .inr ⟨rfl, _, List.mem_singleton_self _, fails⟩

theorem last {found : α} (accepted : ¬ Fails (request, answer))
    (made : traffic after.journal = traffic m.journal ++ recorded [(request, answer)]) (holds : good found) :
    Ran [request] [(request, answer)] m after (.ok found) good where
  taken := .step accepted .done
  journal := made
  ends := by
    refine .inl ⟨found, rfl, holds, fun step member => ?_⟩
    obtain rfl := List.mem_singleton.mp member
    exact accepted

theorem cons (accepted : ¬ Fails (request, answer))
    (made : traffic middle.journal = traffic m.journal ++ recorded [(request, answer)])
    (ran : Ran rest steps middle after result good) :
    Ran (request :: rest) ((request, answer) :: steps) m after result good where
  taken := .step accepted ran.taken
  journal := by
    rw [ran.journal, made, List.append_assoc]
    rfl
  ends := by
    rcases ran.ends with ⟨found, ok, holds, none⟩ | ⟨error, step, member, fails⟩
    · refine .inl ⟨found, ok, holds, fun step member => ?_⟩
      rcases List.mem_cons.mp member with rfl | later
      · exact accepted
      · exact none step later
    · exact .inr ⟨error, step, List.mem_cons_of_mem _ member, fails⟩

theorem map {f : α → β} {fine : β → Prop} (ran : Ran requests steps m after result good)
    (holds : ∀ found, good found → fine (f found)) : Ran requests steps m after (result.map f) fine where
  taken := ran.taken
  journal := ran.journal
  ends := by
    rcases ran.ends with ⟨found, rfl, fits, none⟩ | ⟨rfl, fails⟩
    · exact .inl ⟨f found, rfl, holds found fits, none⟩
    · exact .inr ⟨rfl, fails⟩

end Ran

section

variable {monitor : Monitor ω} (passive : monitor.Passive)

include passive

theorem traffic_step (m : Machine ω) (request : Registers) :
    traffic (m.trap monitor request).2.journal =
      traffic m.journal ++ recorded [(request, (m.trap monitor request).1)] :=
  passive.traffic_trap m request

/-- What a query finds is what it left in the page. The page is read before it is handed back. -/
theorem query_ran (pages : ScratchPages) (localId : UInt16) (service : Guid) (m : Machine ω) :
    let asked := m.trap monitor (infoRequest service)
    let run := query monitor pages localId service m
    ∃ steps, Ran [infoRequest service, rxReleaseRequest localId] ((infoRequest service, asked.1) :: steps)
      m run.2 run.1 fun remote =>
        remote.encode = asked.2.memory.load pages.rx.toNat PartitionDescriptor.size := by
  intro asked run
  have made := traffic_step passive m (infoRequest service)
  by_cases missed : (refused asked.1 || asked.1.x2 = 0) = true
  · have ended : run = (.error .unsupported, asked.2.log .error .ffa) := if_pos missed
    rw [ended]
    exact ⟨[], .stop (fails_infoRequest.mpr missed) ((traffic_noted _ notes_log).trans made)⟩
  have accepted : ¬ Fails (infoRequest service, asked.1) := mt fails_infoRequest.mp missed
  have room : PartitionDescriptor.size ≤ (asked.2.memory.load pages.rx.toNat PartitionDescriptor.size).length := by
    simp
  obtain ⟨remote, read, bytes⟩ := PartitionDescriptor.decode?_of_size_le room
  rw [List.take_of_length_le (by simp)] at bytes
  let handed := asked.2.trap monitor (rxReleaseRequest localId)
  have release := traffic_step passive asked.2 (rxReleaseRequest localId)
  have other : (rxReleaseRequest localId).x0 ≠ FunctionId.ffaPartitionInfoGet :=
    (by decide : FunctionId.ffaRxRelease ≠ FunctionId.ffaPartitionInfoGet)
  have reached : run =
      if refused handed.1 then (.error .unsupported, handed.2.log .error .ffa) else (.ok remote, handed.2) := by
    simp only [run, query, asked, handed] at missed read ⊢
    rw [if_neg missed, read]
  rw [reached]
  refine ⟨[(rxReleaseRequest localId, handed.1)], .cons accepted made ?_⟩
  by_cases kept : refused handed.1 = true
  · rw [if_pos kept]
    exact .stop ((fails_iff_refused other).mpr kept) ((traffic_noted _ notes_log).trans release)
  · rw [if_neg kept]
    exact .last (mt (fails_iff_refused other).mp kept) release bytes

end

theorem release_eq (monitor : Monitor ω) {d : Directory} {pages : ScratchPages} (lent : d.pages = some pages)
    (m : Machine ω) :
    let taken := m.trap monitor (unmapRequest d.localId)
    release monitor d m =
      ({ d with pages := none }, taken.2.log (if refused taken.1 then .error else .debug) .ffa) := by
  simp only [release, lent]

theorem release_lent {monitor : Monitor ω} (passive : monitor.Passive) {d : Directory}
    {pages : ScratchPages} (lent : d.pages = some pages)
    (m : Machine ω) :
    let run := release monitor d m
    (∃ answer, traffic run.2.journal = traffic m.journal ++ recorded [(unmapRequest d.localId, answer)]) ∧
      run.1 = { d with pages := none } := by
  intro run
  have ran : run = _ := release_eq monitor lent m
  rw [ran]
  exact ⟨⟨_, (traffic_noted _ notes_log).trans (traffic_step passive m _)⟩, rfl⟩

/-- Takes the pages back again and again. -/
def releaseRepeatedly (monitor : Monitor ω) : Nat → Directory → Machine ω → Directory × Machine ω
  | 0, d, m => (d, m)
  | n + 1, d, m =>
    let (d, m) := release monitor d m
    releaseRepeatedly monitor n d m

theorem releaseRepeatedly_spent (monitor : Monitor ω) (n : Nat) {d : Directory} (spent : d.pages = none)
    (m : Machine ω) : releaseRepeatedly monitor n d m = (d, m) := by
  induction n with
  | zero => rfl
  | succ n ih =>
    have idle : release monitor d m = (d, m) := by simp only [release, spent]
    simp only [releaseRepeatedly, idle]
    exact ih

def lent (monitor : Monitor ω) (pages : ScratchPages) (m : Machine ω) : Registers × Machine ω :=
  let named := (m.trap monitor idRequest).2.log .debug .ffa
  { named with memory := blanked pages named.memory }.trap monitor (mapRequest pages)

def asked (monitor : Monitor ω) (pages : ScratchPages) (service : Guid) (m : Machine ω) :
    Registers × Machine ω :=
  ((lent monitor pages m).2.log .debug .ffa).trap monitor (infoRequest service)

/-- What a discovery makes of its query: pages that were lent for nothing are taken back. -/
def settled (monitor : Monitor ω) (pages : ScratchPages) (localId : UInt16)
    (found : Except Error PartitionDescriptor × Machine ω) : Except Error Directory × Machine ω :=
  match found with
  | (.ok remote, m) => (.ok ⟨localId, remote, some pages⟩, m.log .info .ffa)
  | (.error e, m) => (.error e, (release monitor ⟨localId, default, some pages⟩ m).2)

theorem discover_eq (monitor : Monitor ω) (pages : ScratchPages) (service : Guid) (m : Machine ω) :
    discover monitor pages service m =
      let named := m.trap monitor idRequest
      let granted := lent monitor pages m
      if refused named.1 then (.error .unsupported, named.2.log .error .ffa)
      else if refused granted.1 then (.error .unsupported, granted.2.log .error .ffa)
      else settled monitor pages named.1.x2.toUInt16
        (query monitor pages named.1.x2.toUInt16 service (granted.2.log .debug .ffa)) := rfl

def Lends (pages : ScratchPages) (steps : List (Registers × Registers)) : Prop :=
  ∃ answer, (mapRequest pages, answer) ∈ steps ∧ answer.x0 ≠ FunctionId.ffaError

theorem lends_cons {pages : ScratchPages} {request answer : Registers} {steps : List (Registers × Registers)}
    (other : request ≠ mapRequest pages) : Lends pages ((request, answer) :: steps) ↔ Lends pages steps := by
  simp [Lends, other.symm]

theorem lends_singleton {pages : ScratchPages} {answer : Registers} :
    Lends pages [(mapRequest pages, answer)] ↔ refused answer = false := by
  simp [Lends, refused]

/-- What a directory says of the endpoints, if a query came to it. -/
structure Describes (pages : ScratchPages) (localId : UInt16) (received : Memory) (d : Directory) : Prop where
  localId : d.localId = localId
  remote : d.remote.encode = received.load pages.rx.toNat PartitionDescriptor.size
  pages : d.pages = some pages

/-- What is done behind the steps of a discovery that comes to this result. -/
structure CleanedUp (pages : ScratchPages) (localId : UInt16) (steps cleanup : List (Registers × Registers))
    (result : Except Error Directory) : Prop where
  back : Lends pages steps → ∀ e, result = .error e → ∃ answer, cleanup = [(unmapRequest localId, answer)]
  idle : ¬ Lends pages steps ∨ (∃ d, result = .ok d) → cleanup = []

section

variable {monitor : Monitor ω} (passive : monitor.Passive)

include passive

theorem traffic_lent (pages : ScratchPages) (m : Machine ω) :
    traffic (lent monitor pages m).2.journal = traffic (m.trap monitor idRequest).2.journal ++
      recorded [(mapRequest pages, (lent monitor pages m).1)] := by
  let named := (m.trap monitor idRequest).2
  let blank := { named.log .debug .ffa with memory := blanked pages named.memory }
  have noted : traffic blank.journal = traffic named.journal := traffic_noted named notes_log
  have lending := traffic_step passive blank (mapRequest pages)
  rw [noted] at lending
  exact lending

theorem traffic_asked (pages : ScratchPages) (service : Guid) (m : Machine ω) :
    traffic (asked monitor pages service m).2.journal = traffic m.journal ++
      recorded [(idRequest, (m.trap monitor idRequest).1), (mapRequest pages, (lent monitor pages m).1),
        (infoRequest service, (asked monitor pages service m).1)] := by
  let granted := lent monitor pages m
  have noted : traffic (granted.2.log .debug .ffa).journal = traffic granted.2.journal := traffic_noted _ notes_log
  have query := traffic_step passive (granted.2.log .debug .ffa) (infoRequest service)
  rw [noted, traffic_lent passive pages m, traffic_step passive m idRequest, List.append_assoc,
    List.append_assoc] at query
  exact query

theorem settled_ran (pages : ScratchPages) (localId : UInt16) (found : Except Error PartitionDescriptor × Machine ω)
    {steps : List (Registers × Registers)} (lends : Lends pages steps) :
    let run := settled monitor pages localId found
    run.1 = found.1.map (fun remote => ⟨localId, remote, some pages⟩) ∧
      ∃ cleanup, traffic run.2.journal = traffic found.2.journal ++ recorded cleanup ∧
        CleanedUp pages localId steps cleanup run.1 := by
  obtain ⟨result, left⟩ := found
  cases result with
  | ok remote =>
    refine ⟨rfl, [], (traffic_noted left notes_log).trans (List.append_nil _).symm, fun _ _ => nofun, fun _ => rfl⟩
  | error e =>
    obtain ⟨⟨answer, made⟩, _⟩ := release_lent passive (d := ⟨localId, default, some pages⟩) rfl left
    refine ⟨rfl, [(unmapRequest localId, answer)], made, fun _ _ _ => ⟨answer, rfl⟩, ?_⟩
    rintro (none | ⟨d, ok⟩)
    · exact absurd lends none
    · cases ok

/-- The steps of a discovery, and what it does behind them. -/
theorem discover_ran (pages : ScratchPages) (service : Guid) (m : Machine ω) :
    let named := m.trap monitor idRequest
    let localId := named.1.x2.toUInt16
    let asked := asked monitor pages service m
    let run := discover monitor pages service m
    ∃ rest left cleanup, Ran (protocol pages service localId) ((idRequest, named.1) :: rest) m left run.1
        (fun d => Describes pages localId asked.2.memory d ∧
          traffic asked.2.journal = traffic m.journal ++ recorded (((idRequest, named.1) :: rest).take 3)) ∧
      traffic run.2.journal = traffic left.journal ++ recorded cleanup ∧
      CleanedUp pages localId ((idRequest, named.1) :: rest) cleanup run.1 := by
  intro named localId asked run
  have made := traffic_step passive m idRequest
  have fresh : idRequest.x0 ≠ FunctionId.ffaPartitionInfoGet :=
    (by decide : FunctionId.ffaIdGet ≠ FunctionId.ffaPartitionInfoGet)
  have other : idRequest ≠ mapRequest pages := by
    intro same
    exact absurd (congrArg Registers.x0 same) (by decide : FunctionId.ffaIdGet ≠ FunctionId.ffaRxtxMap)
  have idle {steps : List (Registers × Registers)} {result : Except Error Directory} (none : ¬ Lends pages steps) :
      CleanedUp pages localId steps [] result := ⟨fun lends => absurd lends none, fun _ => rfl⟩
  have reached : run = _ := discover_eq monitor pages service m
  by_cases nameless : refused named.1 = true
  · have noted : traffic (named.2.log .error .ffa).journal = traffic named.2.journal := traffic_noted _ notes_log
    rw [reached, if_pos nameless]
    refine ⟨[], _, [], .stop ((fails_iff_refused fresh).mpr nameless) (noted.trans made),
      (List.append_nil _).symm, idle ?_⟩
    rw [lends_cons other]
    exact nofun
  have accepted : ¬ Fails (idRequest, named.1) := mt (fails_iff_refused fresh).mp nameless
  let granted := lent monitor pages m
  have lending := traffic_lent passive pages m
  have fresh' : (mapRequest pages).x0 ≠ FunctionId.ffaPartitionInfoGet :=
    (by decide : FunctionId.ffaRxtxMap ≠ FunctionId.ffaPartitionInfoGet)
  by_cases kept : refused granted.1 = true
  · have noted : traffic (granted.2.log .error .ffa).journal = traffic granted.2.journal := traffic_noted _ notes_log
    rw [reached, if_neg nameless, if_pos kept]
    refine ⟨[(mapRequest pages, granted.1)], _, [],
      .cons accepted made (.stop ((fails_iff_refused fresh').mpr kept) (noted.trans lending)),
      (List.append_nil _).symm, idle ?_⟩
    rw [lends_cons other, lends_singleton]
    simp [kept]
  have served : ¬ Fails (mapRequest pages, granted.1) := mt (fails_iff_refused fresh').mp kept
  let found := query monitor pages localId service (granted.2.log .debug .ffa)
  have noted : traffic (granted.2.log .debug .ffa).journal = traffic granted.2.journal := traffic_noted _ notes_log
  obtain ⟨steps, ran⟩ := query_ran passive pages localId service (granted.2.log .debug .ffa)
  have whole := Ran.cons accepted made (Ran.cons served (noted.trans lending) ran)
  have lends : Lends pages
      ((idRequest, named.1) :: (mapRequest pages, granted.1) :: (infoRequest service, asked.1) :: steps) :=
    ⟨granted.1, by simp, fun refuses => kept (decide_eq_true refuses)⟩
  obtain ⟨result, cleanup, behind, cleaned⟩ := settled_ran passive pages localId found lends
  have settles : run = settled monitor pages localId found := by
    rw [reached, if_neg nameless, if_neg kept]
  rw [settles]
  refine ⟨_, found.2, cleanup, ?_, behind, cleaned⟩
  rw [result]
  exact whole.map fun remote bytes => ⟨⟨rfl, bytes, rfl⟩, traffic_asked passive pages service m⟩

/-- A discovery makes its requests in order and stops at the first that fails; it finds a partition just
if none does. Pages that were lent are taken back once, behind a failure at once and otherwise when the
directory gives them up. The directory names the endpoints by the first answer and by what the query left
in the page, before the page was handed back. -/
theorem discover_balanced (pages : ScratchPages) (service : Guid) (m : Machine ω) :
    let identify : Registers := { x0 := FunctionId.ffaIdGet }
    let lend : Registers := { x0 := FunctionId.ffaRxtxMap, x1 := pages.tx, x2 := pages.rx, x3 := 1 }
    let inquire : Registers := {
      x0 := FunctionId.ffaPartitionInfoGet
      x1 := service.words.w0.toUInt64
      x2 := service.words.w1.toUInt64
      x3 := service.words.w2.toUInt64
      x4 := service.words.w3.toUInt64 }
    let handBack (localId : UInt16) : Registers := { x0 := FunctionId.ffaRxRelease, x1 := localId.toUInt64 }
    let unmap (localId : UInt16) : Registers :=
      { x0 := FunctionId.ffaRxtxUnmap, x1 := localId.toUInt64 <<< 16 }
    let run := discover monitor pages service m
    ∃ (localId : UInt16) (steps cleanup : List (Registers × Registers)),
      let requests := [identify, lend, inquire, handBack localId]
      let lends := ∃ answer, (lend, answer) ∈ steps ∧ answer.x0 ≠ FunctionId.ffaError
      traffic run.2.journal = traffic m.journal ++ recorded (steps ++ cleanup) ∧
      (∃ answer, steps.head? = some (identify, answer) ∧ localId = answer.x2.toUInt16) ∧
      steps.map Prod.fst <+: requests ∧
      (∀ step ∈ steps.dropLast, ¬ Fails step) ∧
      ((∀ step ∈ steps, ¬ Fails step) → steps.map Prod.fst = requests) ∧
      ((∃ d, run.1 = .ok d) ↔ ∀ step ∈ steps, ¬ Fails step) ∧
      (∀ e, run.1 = .error e → e = .unsupported ∧
        (lends → ∃ answer, cleanup = [(unmap localId, answer)])) ∧
      (¬ lends ∨ (∃ d, run.1 = .ok d) → cleanup = []) ∧
      ∀ d, run.1 = .ok d → d.localId = localId ∧ d.mapped = true ∧
        traffic (asked monitor pages service m).2.journal = traffic m.journal ++ recorded (steps.take 3) ∧
        d.remote.encode = (asked monitor pages service m).2.memory.load pages.rx.toNat 8 ∧
        ∀ (later : Machine ω) (n : Nat),
          let spent := releaseRepeatedly monitor (n + 1) d later
          spent.1 = { d with pages := none } ∧ ∃ answer,
            traffic spent.2.journal = traffic later.journal ++ recorded [(unmap localId, answer)] := by
  intro identify lend inquire handBack unmap run
  obtain ⟨rest, left, cleanup, ran, behind, cleaned⟩ := discover_ran passive pages service m
  let first := (idRequest, (m.trap monitor idRequest).1)
  have none_iff : (∃ d, run.1 = .ok d) ↔ ∀ step ∈ first :: rest, ¬ Fails step := by
    rcases ran.ends with ⟨d, ok, _, none⟩ | ⟨error, step, member, fails⟩
    · exact ⟨fun _ => none, fun _ => ⟨d, ok⟩⟩
    · constructor
      · rintro ⟨d, ok⟩
        exact nomatch error.symm.trans ok
      · exact fun none => absurd fails (none step member)
  refine ⟨_, first :: rest, cleanup, ?_, ⟨_, rfl, rfl⟩, ran.taken.inOrder, ran.taken.stops, ran.taken.completes,
    none_iff, fun e error => ⟨?_, fun lends => cleaned.back lends e error⟩, cleaned.idle, fun d ok => ?_⟩
  · rw [behind, ran.journal, recorded_append, List.append_assoc]
  · rcases ran.ends with ⟨d, ok, _⟩ | ⟨unsupported, _⟩
    · exact nomatch error.symm.trans ok
    · exact Except.error.inj (error.symm.trans unsupported)
  · rcases ran.ends with ⟨found, ok', ⟨describes, made⟩, _⟩ | ⟨error, _⟩
    · obtain rfl : found = d := Except.ok.inj (ok'.symm.trans ok)
      have mapped : found.mapped = true := by rw [Directory.mapped, describes.pages]; rfl
      refine ⟨describes.localId, mapped, made, describes.remote, fun later n => ?_⟩
      obtain ⟨⟨answer, taken⟩, spent⟩ := release_lent passive describes.pages later
      have idle := releaseRepeatedly_spent monitor n (d := { found with pages := none }) rfl
        (release monitor found later).2
      have once : releaseRepeatedly monitor (n + 1) found later =
          ({ found with pages := none }, (release monitor found later).2) := by
        rw [← idle, ← spent]
        rfl
      rw [once]
      refine ⟨rfl, answer, ?_⟩
      rw [taken, describes.localId]
      rfl
    · exact nomatch error.symm.trans ok

end

open Rehearsal in
/-- A manager that names the caller by more than sixteen bits and scribbles over the page once it has it
back. -/
theorem discover_balanced_scribbled_over :
    let pages : ScratchPages := ⟨0x2000, 0x3000⟩
    let found : Reply := { ret := Manager.success 1, writes := [⟨.rxPage, Manager.hosted.encode⟩] }
    let scribbles : Reply := { ret := Manager.success 0, writes := [⟨.rxPage, zeros 8⟩] }
    let script : Script :=
      ⟨[{ ret := Manager.success 0x50007 }, { ret := Manager.success 0 }, found, scribbles], none⟩
    let run := discover (Script.nestedMonitor 0) pages serviceGuid { rest := script }
    run.1 = .ok ⟨7, Manager.hosted, some pages⟩ ∧
      (releaseRepeatedly (Script.nestedMonitor 0) 3 ⟨7, Manager.hosted, some pages⟩ run.2).1.pages = none := by
  intro pages found scribbles script run
  have passive : (Script.nestedMonitor 0).Passive := ⟨fun _ _ => rfl, fun _ _ => rfl⟩
  have directory : run.1.toOption = some ⟨7, Manager.hosted, some pages⟩ := by decide +kernel
  have came : run.1 = .ok ⟨7, Manager.hosted, some pages⟩ := by
    cases result : run.1 with
    | error e => rw [result] at directory; cases directory
    | ok d => rw [result] at directory; cases directory; rfl
  obtain ⟨_, _, _, _, _, _, _, _, _, _, _, lasts⟩ := discover_balanced passive pages serviceGuid { rest := script }
  obtain ⟨_, _, _, _, released⟩ := lasts _ came
  exact ⟨came, congrArg Directory.pages (released run.2 2).1⟩

end Discovery

end StandaloneMm
