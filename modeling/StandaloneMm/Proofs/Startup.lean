import StandaloneMm.Proofs.Attempt
import StandaloneMm.Proofs.VersionWord
import StandaloneMm.Session.Lifecycle

/-! A session that comes up against a manager that has just started: which of the two conventions it
settles on, which calls that takes, and what the manager has lent and holds afterwards. -/
namespace StandaloneMm

variable {ω : Type}

namespace Manager

/-- A manager that has just started. One that does not speak FF-A keeps its other answers. -/
def fresh (ffa mm : Version) (speaksFfa : Bool) (partitions : UInt64) : Manager :=
  let offering := { Manager.offering ffa mm with partitionCount := partitions }
  if speaksFfa then offering else offering.withoutFfa

/-- From one machine to another by these calls to the manager, which is then left with these pages, and with
the receive page in the caller's hands or not. The session has no part in it. -/
structure Took (m after : Machine ω) (calls : List Call) (scratch : Option ScratchPages) (rxHeld : Bool) : Prop where
  calls : after.manager.calls = m.manager.calls ++ calls.map Call.id
  scratch : after.manager.scratch = scratch
  rxHeld : after.manager.rxHeld = rxHeld
  count : after.manager.partitionCount = m.manager.partitionCount
  session : after.session = m.session

theorem Took.trans {m middle after : Machine ω} {first second : List Call} {scratch scratch' : Option ScratchPages}
    {held held' : Bool} (early : Took m middle first scratch held) (late : Took middle after second scratch' held') :
    Took m after (first ++ second) scratch' held' where
  calls := by rw [late.calls, early.calls, List.map_append, List.append_assoc]
  scratch := late.scratch
  rxHeld := late.rxHeld
  count := late.count.trans early.count
  session := late.session.trans early.session

theorem Took.of_made {m after : Machine ω} {steps : List (Registers × Registers)} {calls : List Call}
    {scratch : Option ScratchPages} {held : Bool} (made : Made m after steps scratch held)
    (named : steps.map (·.1.x0) = calls.map Call.id) : Took m after calls scratch held where
  calls := by rw [made.manager, named]
  scratch := made.scratched
  rxHeld := made.holds
  count := by rw [made.manager]
  session := made.session

end Manager

namespace Negotiation

def versionCall : Convention → Manager.Call
  | .legacy => .mmVersion
  | .partitionAddressed => .ffaVersion

def offered (s : Manager) : Convention → UInt32
  | .legacy => s.mmVersion
  | .partitionAddressed => s.ffaVersion

theorem judge_pack (asked : Convention) (v : Version) :
    judge asked v.pack.toUInt64 =
      if v.major.toNat % 0x8000 = 1 then
        if asked = .legacy ∨ v.minor ≠ 0 then .agreed else .fallback
      else .incompatible := by
  have first : UInt16.ofNat (v.major.toNat % 0x8000) = 1 ↔ v.major.toNat % 0x8000 = 1 := by
    have small : v.major.toNat % 0x8000 % 0x10000 = v.major.toNat % 0x8000 := by omega
    rw [← UInt16.toNat_inj, UInt16.toNat_ofNat', small]
    rfl
  have later : 1 ≤ v.minor ↔ v.minor ≠ 0 := by
    rw [UInt16.le_iff_toNat_le, ne_eq, ← UInt16.toNat_inj]
    exact Nat.one_le_iff_ne_zero
  simp only [judge_read (Version.ofRegister_pack v), first, later]

theorem negotiate_monitor (loop : EventLoop ω) (asked : Convention) (m : Machine ω) :
    let run := negotiate (Manager.monitor loop) asked m
    run.1 = (judge asked (offered m.manager asked).toUInt64).convention asked ∧
      Manager.Took m run.2 [versionCall asked] m.manager.scratch m.manager.rxHeld := by
  cases asked with
  | legacy | partitionAddressed => exact ⟨rfl, rfl, rfl, rfl, rfl, rfl⟩

end Negotiation

namespace Discovery

open Manager (monitor normalWorldId)

theorem discover_monitor (loop : EventLoop ω) (pages : ScratchPages) {m : Machine ω}
    (unlent : m.manager.scratch = none) (free : m.manager.rxHeld = false) :
    ∃ after,
      if m.manager.partitionCount = 0 then
        discover (monitor loop) pages serviceGuid m = (.error .unsupported, after) ∧
          Manager.Took m after [.idGet, .map, .infoGet, .unmap] none true
      else
        discover (monitor loop) pages serviceGuid m = (.ok ⟨normalWorldId, Manager.hosted, some pages⟩, after) ∧
          Manager.Took m after [.idGet, .map, .infoGet, .rxRelease] (some pages) false := by
  obtain ⟨result, made⟩ := discover_made loop pages serviceGuid unlent
  refine ⟨(discover (monitor loop) pages serviceGuid m).2, ?_⟩
  by_cases nobody : m.manager.partitionCount = 0
  · have missed : ¬ Manager.Finds m.manager serviceGuid := fun finds => finds.2.2 nobody
    simp only [if_neg missed, free, attempt] at result made
    simp only [if_pos nobody]
    exact ⟨Prod.ext result rfl, .of_made made rfl⟩
  · have finds : Manager.Finds m.manager serviceGuid := ⟨free, rfl, nobody⟩
    simp only [if_pos finds, attempt] at result made
    simp only [if_neg nobody]
    exact ⟨Prod.ext result rfl, .of_made made rfl⟩

end Discovery

namespace Lifecycle

/-- What a bring-up came to: the session that it set up, or none, the calls that it took, and what the
manager is left with. -/
structure CameTo (run : Except Error Unit × Machine ω) (session : Except Error Session) (calls : List Manager.Call)
    (scratch : Option ScratchPages) (rxHeld : Bool) : Prop where
  session : run.1.map (fun _ => run.2.session) = session
  calls : run.2.manager.calls = calls.map Manager.Call.id
  scratch : run.2.manager.scratch = scratch
  rxHeld : run.2.manager.rxHeld = rxHeld

theorem CameTo.of_took {m middle after : Machine ω} {result : Except Error Unit} {session : Except Error Session}
    {calls : List Manager.Call} {scratch : Option ScratchPages} {held : Bool} (new : m.manager.calls = [])
    (took : Manager.Took m middle calls scratch held) (same : after.manager = middle.manager)
    (outcome : result.map (fun _ => after.session) = session) : CameTo (result, after) session calls scratch held where
  session := outcome
  calls := by simp [same, took.calls, new]
  scratch := by rw [same, took.scratch]
  rxHeld := by rw [same, took.rxHeld]

section

variable {monitor : Monitor ω} {pages : ScratchPages} {asked convention : Convention} {b : SharedBuffer}
  {m left after : Machine ω} {e : Error}

theorem bringUp_of_unsettled
    (settles : Negotiation.negotiate monitor asked (m.append [.log .info .mmComm, .log .trace .mmComm]) =
      (.error e, left)) :
    bringUp monitor pages ⟨asked, some b⟩ m = (.error e, left) := by
  simp only [bringUp, settles]

variable
  (settles : Negotiation.negotiate monitor asked (m.append [.log .info .mmComm, .log .trace .mmComm]) =
    (.ok convention, left))

include settles

theorem bringUp_of_unestablished (establishes : establish monitor pages convention left = (.error e, after)) :
    bringUp monitor pages ⟨asked, some b⟩ m = (.error e, after) := by
  simp only [bringUp, settles, establishes]

theorem bringUp_of_established {route : Route} {directory : Option Directory}
    (establishes : establish monitor pages convention left = (.ok (route, directory), after)) :
    bringUp monitor pages ⟨asked, some b⟩ m = (.ok (),
      { after with session := { route := route, buffer := b, directory := directory } }.log .info .mmComm) := by
  simp only [bringUp, settles, establishes]

end

theorem bringUp_negotiated (loop : EventLoop ω) (pages : ScratchPages) (asked : Convention) (b : SharedBuffer)
    {start : Machine ω} (new : start.manager.calls = []) (unlent : start.manager.scratch = none)
    (free : start.manager.rxHeld = false) :
    let call := Negotiation.versionCall asked
    let run := bringUp (Manager.monitor loop) pages ⟨asked, some b⟩ start
    match (Negotiation.judge asked (Negotiation.offered start.manager asked).toUInt64).convention asked with
    | .error e => CameTo run (.error e) [call] none false
    | .ok .legacy => CameTo run (.ok { route := .legacy, buffer := b }) [call] none false
    | .ok .partitionAddressed =>
      if start.manager.partitionCount = 0 then
        CameTo run (.error .unsupported) [call, .idGet, .map, .infoGet, .unmap] none true
      else
        CameTo run
          (.ok {
            route := .direct Manager.normalWorldId Manager.hosted
            buffer := b
            directory := some ⟨Manager.normalWorldId, Manager.hosted, some pages⟩ })
          [call, .idGet, .map, .infoGet, .rxRelease] (some pages) false := by
  intro call run
  let opened := start.append [.log .info .mmComm, .log .trace .mmComm]
  have new' : opened.manager.calls = [] := new
  have unlent' : opened.manager.scratch = none := unlent
  have free' : opened.manager.rxHeld = false := free
  obtain ⟨convention, took⟩ := Negotiation.negotiate_monitor loop asked opened
  rw [unlent', free'] at took
  cases negotiated : Negotiation.negotiate (Manager.monitor loop) asked opened with
  | mk result left =>
    rw [negotiated] at convention took
    have settles : (Negotiation.judge asked (Negotiation.offered start.manager asked).toUInt64).convention asked =
        result := convention.symm
    rw [settles]
    cases result with
    | error e =>
      have reached : run = _ := bringUp_of_unsettled negotiated
      rw [reached]
      exact .of_took new' took rfl rfl
    | ok settled =>
      cases settled with
      | legacy =>
        have reached : run = _ := bringUp_of_established negotiated rfl
        rw [reached]
        exact .of_took new' took rfl rfl
      | partitionAddressed =>
        obtain ⟨after, found⟩ := Discovery.discover_monitor loop pages took.scratch took.rxHeld
        have count : left.manager.partitionCount = start.manager.partitionCount := took.count
        rw [count] at found
        by_cases nobody : start.manager.partitionCount = 0
        · simp only [if_pos nobody] at found ⊢
          obtain ⟨missed, asked⟩ := found
          have establishes : establish (Manager.monitor loop) pages .partitionAddressed left =
              (.error .unsupported, after) := by simp only [establish, missed]
          have reached : run = _ := bringUp_of_unestablished negotiated establishes
          rw [reached]
          exact .of_took new' (took.trans asked) rfl rfl
        · simp only [if_neg nobody] at found ⊢
          obtain ⟨found, asked⟩ := found
          have establishes : establish (Manager.monitor loop) pages .partitionAddressed left =
              (.ok (.direct Manager.normalWorldId Manager.hosted,
                some ⟨Manager.normalWorldId, Manager.hosted, some pages⟩), after) := by
            simp only [establish, found]
          have reached : run = _ := bringUp_of_established negotiated establishes
          rw [reached]
          exact .of_took new' (took.trans asked) rfl rfl

/-- How a session comes up is settled by what it asks for and by what the manager offers. The major number
counts as it stands in the word of the version. A discovery that finds nobody gives the pages back, but not
the receive page. -/
theorem bringUp_fresh (loop : EventLoop ω) (pages : ScratchPages) (ffa mm : Version) (speaksFfa : Bool)
    (partitions : UInt64) (asked : Convention) (buffer : Option SharedBuffer) (world : Machine ω) :
    let major (v : Version) := v.major.toNat % 0x8000
    let run := bringUp (Manager.monitor loop) pages ⟨asked, buffer⟩
      { world with manager := Manager.fresh ffa mm speaksFfa partitions }
    (buffer = none → CameTo run (.error .invalidParameter) [] none false) ∧
    ∀ b, buffer = some b →
      (asked = .legacy →
        (major mm = 1 → CameTo run (.ok { route := .legacy, buffer := b }) [.mmVersion] none false) ∧
        (major mm ≠ 1 → CameTo run (.error .unsupported) [.mmVersion] none false)) ∧
      (asked = .partitionAddressed →
        (speaksFfa = false ∨ major ffa ≠ 1 → CameTo run (.error .unsupported) [.ffaVersion] none false) ∧
        (speaksFfa = true → major ffa = 1 →
          (ffa.minor = 0 → CameTo run (.ok { route := .legacy, buffer := b }) [.ffaVersion] none false) ∧
          (ffa.minor ≠ 0 →
            (partitions ≠ 0 →
              CameTo run
                (.ok {
                  route := .direct 1 Manager.hosted
                  buffer := b
                  directory := some ⟨1, Manager.hosted, some pages⟩ })
                [.ffaVersion, .idGet, .map, .infoGet, .rxRelease] (some pages) false) ∧
            (partitions = 0 →
              CameTo run (.error .unsupported) [.ffaVersion, .idGet, .map, .infoGet, .unmap] none true)))) := by
  intro major run
  let start : Machine ω := { world with manager := Manager.fresh ffa mm speaksFfa partitions }
  have new : start.manager.calls = [] := by cases speaksFfa <;> rfl
  have unlent : start.manager.scratch = none := by cases speaksFfa <;> rfl
  have free : start.manager.rxHeld = false := by cases speaksFfa <;> rfl
  have count : start.manager.partitionCount = partitions := by cases speaksFfa <;> rfl
  refine ⟨?_, ?_⟩
  · rintro rfl
    exact ⟨rfl, new, unlent, free⟩
  rintro b rfl
  have came := bringUp_negotiated loop pages asked b new unlent free
  refine ⟨?_, ?_⟩
  · rintro rfl
    have word : Negotiation.offered start.manager .legacy = mm.pack := by cases speaksFfa <;> rfl
    rw [word, Negotiation.judge_pack] at came
    refine ⟨fun first => ?_, fun other => ?_⟩
    · rw [if_pos first, if_pos (Or.inl rfl)] at came
      exact came
    · rw [if_neg other] at came
      exact came
  · rintro rfl
    cases speaksFfa with
    | false =>
      have word : Negotiation.offered start.manager .partitionAddressed = Version.notSupported := rfl
      rw [word, Negotiation.judge_silent Version.ofRegister_notSupported] at came
      exact ⟨fun _ => came, nofun⟩
    | true =>
      have word : Negotiation.offered start.manager .partitionAddressed = ffa.pack := rfl
      rw [word, Negotiation.judge_pack] at came
      refine ⟨?_, fun _ first => ⟨fun zero => ?_, fun later => ?_⟩⟩
      · rintro (silent | other)
        · cases silent
        · rw [if_neg other] at came
          exact came
      · have early : ¬ (Convention.partitionAddressed = .legacy ∨ ffa.minor ≠ 0) := by simp [zero]
        rw [if_pos first, if_neg early] at came
        exact came
      · rw [if_pos first, if_pos (Or.inr later)] at came
        simp only [Negotiation.Verdict.convention, count] at came
        refine ⟨fun somebody => ?_, fun nobody => ?_⟩
        · rw [if_neg somebody] at came
          exact came
        · rw [if_pos nobody] at came
          exact came

end Lifecycle

end StandaloneMm
