import StandaloneMm.Proofs.Conduct
import StandaloneMm.Proofs.Screening

/-! What stays the same about a session through everything that is done with it, and what happens to it
at most once. A session that came up keeps its route and the region that it shares; the region is moved
once at most, and the scratch pages are taken back once at most. -/
namespace StandaloneMm

open Journal

variable {ω : Type}

namespace SharedBuffer.Follows

theorem refl (b : SharedBuffer) : Follows b b := ⟨rfl, rfl, .inl rfl⟩

theorem trans {b middle after : SharedBuffer} (first : Follows b middle) (second : Follows middle after) :
    Follows b after where
  physicalBase := second.physicalBase.trans first.physicalBase
  length := second.length.trans first.length
  moved := by
    rcases second.moved with rfl | ⟨physical, virtual⟩
    · exact first.moved
    · rcases first.moved with rfl | ⟨_, already⟩
      · exact .inr ⟨physical, virtual⟩
      · rw [already] at physical
        contradiction

end SharedBuffer.Follows

theorem SharedBuffer.traffic_remap (convert : Converter) (b : SharedBuffer) :
    traffic (b.remap convert).2 = [] := by
  rcases remap_cases convert b with ⟨_, still⟩ | ⟨_, _, _, still⟩ | ⟨_, _, _, _, moved⟩
  · rw [still]
    rfl
  · rw [still]
    rfl
  · rw [moved]
    rfl

/-- One while the scratch pages are lent, none after. -/
def Session.credit (s : Session) : Nat := if s.mapped then 1 else 0

/-- The directory of a session is the one that its route was taken from. -/
def Session.Addressed (s : Session) : Prop :=
  ∀ d, s.directory = some d → ∃ remote, s.route = .direct d.localId remote

/-- From one state of a session to a later one, with these calls in between. -/
structure Session.Course (s after : Session) (dealings : List Event) : Prop where
  route : after.route = s.route
  buffer : s.buffer.Follows after.buffer
  inUse : after.inUse = s.inUse
  localId : after.directory.map Directory.localId = s.directory.map Directory.localId
  conduct : Conduct s.route s.buffer.physicalBase [] dealings
  balance : unmaps dealings + after.credit = s.credit

namespace Session.Course

variable {s middle after : Session} {first second dealings : List Event}

theorem refl (s : Session) : Course s s [] :=
  ⟨rfl, .refl _, rfl, rfl, .nil _, Nat.zero_add _⟩

theorem trans (left : Course s middle first) (right : Course middle after second) :
    Course s after (first ++ second) where
  route := right.route.trans left.route
  buffer := left.buffer.trans right.buffer
  inUse := right.inUse.trans left.inUse
  localId := right.localId.trans left.localId
  conduct := by
    have conduct := right.conduct
    rw [left.route, left.buffer.physicalBase] at conduct
    exact left.conduct.append (conduct.later _)
  balance := by
    have before := left.balance
    have behind := right.balance
    rw [unmaps_append]
    omega

theorem addressed (course : Course s after dealings) (addressed : s.Addressed) : after.Addressed := by
  intro d found
  have same := course.localId
  rw [found] at same
  obtain ⟨d', found', localId⟩ := Option.map_eq_some_iff.mp same.symm
  obtain ⟨remote, route⟩ := addressed d' found'
  exact ⟨remote, by rw [course.route, route, localId]⟩

end Session.Course

/-- A stretch of a run between operations. -/
def Advance (m after : Machine ω) : Prop :=
  ∃ dealings, traffic after.journal = traffic m.journal ++ dealings ∧
    Session.Course m.session after.session dealings

namespace Advance

variable {m middle after : Machine ω} {events : List Event}

theorem refl (m : Machine ω) : Advance m m := ⟨[], (List.append_nil _).symm, .refl _⟩

theorem trans (left : Advance m middle) (right : Advance middle after) : Advance m after := by
  obtain ⟨first, journal, course⟩ := left
  obtain ⟨second, journal', course'⟩ := right
  exact ⟨first ++ second, by rw [journal', journal, List.append_assoc], course.trans course'⟩

theorem thenNotes (way : Advance m after) (notes : Notes events) : Advance m (after.append events) := by
  obtain ⟨dealings, journal, course⟩ := way
  exact ⟨dealings, (traffic_noted after notes).trans journal, course⟩

theorem addressed (way : Advance m after) (addressed : m.session.Addressed) : after.session.Addressed := by
  obtain ⟨_, _, course⟩ := way
  exact course.addressed addressed

theorem remap (convert : Converter) (m : Machine ω) : Advance m (Lifecycle.remapBuffer convert m) := by
  unfold Lifecycle.remapBuffer
  split
  · exact (refl m).thenNotes notes_log
  · refine ⟨[], ?_, rfl, SharedBuffer.follows_remap convert _, rfl, rfl, .nil _, Nat.zero_add _⟩
    have events := SharedBuffer.traffic_remap convert m.session.buffer
    have appended : traffic (m.journal ++ (m.session.buffer.remap convert).2) =
        traffic m.journal ++ traffic (m.session.buffer.remap convert).2 := traffic_append ..
    rw [events] at appended
    exact appended

end Advance

namespace Monitor.Passive

variable {monitor : Monitor ω} (passive : monitor.Passive) {m : Machine ω}

include passive

theorem communicate (message : Bytes) (capacity : Option UInt64) (m : Machine ω) :
    Advance m (Transport.communicate monitor message capacity m).2 := by
  rcases Transport.communicate_cases monitor message capacity m with
    ⟨refusal, _, refused⟩ | ⟨_, _, denied⟩ | ⟨header, free, _, exchanged⟩
  · rw [refused]
    exact (Advance.refl m).thenNotes (refusal.notes_records capacity)
  · rw [denied]
    exact ((Advance.refl m).thenNotes (Admission.notes_opening capacity)).thenNotes notes_log
  · let ended := Transport.answered monitor message capacity header.total m
    obtain ⟨dealings, called⟩ := passive.callRemote m.session.route m.session.buffer.physicalBase
      (Transport.offered message capacity header.total m)
    obtain ⟨records, notes, concludes⟩ :=
      Transport.concluded_append m.session.route message header.total ended.1 ended.2
    have final : (Transport.communicate monitor message capacity m).2 =
        (Transport.letGo ended.2).append records := by
      rw [exchanged]
      exact concludes
    have held : ended.2.session = { m.session with inUse := true } := called.session
    have back : (Transport.letGo ended.2).session = m.session := by
      simp only [Transport.letGo, held, ← free]
    have journal : traffic (Transport.letGo ended.2).journal = traffic m.journal ++ dealings :=
      called.journal.trans (by rw [Transport.traffic_offered])
    rw [final]
    refine Advance.thenNotes ⟨dealings, journal, ?_⟩ notes
    rw [back]
    exact ⟨rfl, .refl _, rfl, rfl, called.conduct, by rw [called.unmaps, Nat.zero_add]⟩

theorem exitBootServices (addressed : m.session.Addressed) :
    Advance m (Lifecycle.exitBootServices monitor m) := by
  unfold Lifecycle.exitBootServices
  split
  · exact .refl m
  next d found =>
    obtain ⟨remote, direct⟩ := addressed d found
    let taken : Session := { m.session with directory := some { d with pages := none } }
    let noted := { m with session := taken }.log .info .mmComm
    have same : taken.directory.map Directory.localId = m.session.directory.map Directory.localId := by
      rw [found]
      rfl
    have journal : traffic noted.journal = traffic m.journal := traffic_noted { m with session := taken } notes_log
    have before : m.session.mapped = d.pages.isSome := by
      simp only [Session.mapped, found]
      rfl
    have spent : taken.credit = 0 := rfl
    change Advance m (Discovery.release monitor d noted).2
    unfold Discovery.release
    cases lent : d.pages with
    | none =>
      rw [lent] at before
      have credit : m.session.credit = 0 := by rw [Session.credit, before]; rfl
      refine ⟨[], by rw [List.append_nil]; exact journal, rfl, .refl _, rfl, same, .nil _, ?_⟩
      rw [credit]
      rfl
    | some pages =>
      rw [lent] at before
      have credit : m.session.credit = 1 := by rw [Session.credit, before]; rfl
      let call := Discovery.unmapRequest d.localId
      have permits : m.session.route.Permits m.session.buffer.physicalBase call := by
        rw [direct]
        exact .inr (.inr rfl)
      have fresh : call.x0 ≠ FunctionId.ffaRun :=
        (by decide : FunctionId.ffaRxtxUnmap ≠ FunctionId.ffaRun)
      let released := noted.trap monitor call
      have session : released.2.session = taken := passive.session call _
      have made : traffic released.2.journal = traffic m.journal ++ [.call call, .ret released.1] := by
        rw [passive.traffic_trap, journal]
      refine Advance.thenNotes ⟨_, made, ?_⟩ notes_log
      rw [session]
      refine ⟨rfl, .refl _, rfl, same, .single permits (absurd · fresh) _, ?_⟩
      rw [credit, spent]
      rfl

theorem perform (operation : Operation) (addressed : m.session.Addressed) :
    Advance m (operation.perform monitor m).2 := by
  have noted : Noted (Advance m) := fun _ _ notes way => way.thenNotes notes
  have keeps : Channel.Keeps (Transport.communicate monitor) (Advance m) :=
    fun message capacity middle way => way.trans (passive.communicate message capacity middle)
  exact operation.perform_keeps noted keeps (fun convert middle way => way.trans (.remap convert middle))
    (fun _ way => way.trans (passive.exitBootServices (way.addressed addressed))) (fun _ _ way => way) (.refl m)

/-- The calls of a run are those of its operations, one after the other. -/
theorem performAll (operations : List Operation) (addressed : m.session.Addressed) :
    let run := Operation.performAll monitor operations m
    Session.Course m.session run.2.session (run.1.flatMap fun entry => traffic entry.2) := by
  induction operations generalizing m with
  | nil => exact .refl _
  | cons operation rest ih =>
    let first := operation.perform monitor { m with journal := [] }
    let middle := { first.2 with journal := m.journal }
    obtain ⟨dealings, journal, course⟩ : Advance { m with journal := [] } first.2 :=
      passive.perform operation addressed
    have reached : middle.session.Addressed := course.addressed addressed
    have here : traffic first.2.journal = dealings := journal
    change Session.Course m.session (Operation.performAll monitor rest middle).2.session
      (traffic first.2.journal ++
        (Operation.performAll monitor rest middle).1.flatMap fun entry => traffic entry.2)
    rw [here]
    exact course.trans (ih reached)

end Monitor.Passive

namespace Lifecycle

variable {monitor : Monitor ω} {pages : ScratchPages} {configuration : Configuration} {start m : Machine ω}

/-- A session that came up is free and shares the configured buffer, and its directory is the one that
its route was taken from. -/
theorem bringUp_ok (cameUp : bringUp monitor pages configuration start = (.ok (), m)) :
    configuration.buffer = some m.session.buffer ∧ m.session.inUse = false ∧ m.session.Addressed := by
  unfold bringUp at cameUp
  dsimp only at cameUp
  split at cameUp
  · cases cameUp
  next buffer configured =>
    split at cameUp
    · cases cameUp
    next convention settled negotiated =>
      split at cameUp
      · cases cameUp
      next route directory found established =>
        cases cameUp
        refine ⟨configured, rfl, fun d named => ?_⟩
        cases convention with
        | legacy =>
          cases established
          cases named
        | partitionAddressed =>
          unfold establish at established
          dsimp only at established
          split at established
          · cases established
            cases named
            exact ⟨_, rfl⟩
          · cases established

/-- Whatever is done with a session that came up, and whatever the other side answers, the session
keeps its route and the physical place of its buffer, which is free after each operation. Its calls
name that place or the endpoints, a partition is resumed only on the answer that asks for it, and the
pages are taken back and the buffer is moved at most once. -/
theorem performAll_of_bringUp (passive : monitor.Passive)
    (cameUp : bringUp monitor pages configuration start = (.ok (), m)) (operations : List Operation) :
    let run := Operation.performAll monitor operations m
    let dealings := run.1.flatMap fun entry => traffic entry.2
    let buffer := m.session.buffer
    let left := run.2.session
    configuration.buffer = some buffer ∧
      (left.route = m.session.route ∧ left.buffer.length = buffer.length ∧
        left.buffer.physicalBase = buffer.physicalBase ∧ left.inUse = false) ∧
      (∀ call ∈ calls dealings, match m.session.route with
        | .legacy => call = { x0 := FunctionId.mmCommunicate, x2 := buffer.physicalBase }
        | .direct localId remote =>
          call = { x0 := FunctionId.ffaDirectRequest, x1 := (localId.toUInt64 <<< 16) ||| remote.id.toUInt64,
                   x3 := buffer.physicalBase } ∨
          call = { x0 := FunctionId.ffaRun, x1 := remote.id.toUInt64 <<< 16 } ∨
          call = { x0 := FunctionId.ffaRxtxUnmap, x1 := localId.toUInt64 <<< 16 }) ∧
      (∀ before call after, dealings = before ++ .call call :: after → call.x0 = FunctionId.ffaRun →
        ∃ earlier answer, before = earlier ++ [.ret answer] ∧ answer.x0 = FunctionId.ffaInterrupt) ∧
      (calls dealings).countP (·.x0 = FunctionId.ffaRxtxUnmap) ≤ 1 ∧
      (left.buffer = buffer ∨ left.buffer.mode = .virtual) ∧
      ∀ more, left.buffer.mode = .virtual →
        (Operation.performAll monitor more run.2).2.session.buffer = left.buffer := by
  intro run dealings buffer left
  obtain ⟨configured, free, addressed⟩ := bringUp_ok cameUp
  have course : Session.Course m.session left dealings := passive.performAll operations addressed
  have conduct : Conduct m.session.route buffer.physicalBase [] dealings := course.conduct
  refine ⟨configured, ⟨course.route, course.buffer.length, course.buffer.physicalBase, course.inUse.trans free⟩,
    fun call made => ?_, conduct.resumed, ?_, ?_, fun more virtual => ?_⟩
  · have permits := conduct.permitted call made
    cases route : m.session.route with
    | legacy =>
      rw [route] at permits
      exact permits
    | direct localId remote =>
      have vcpu : endpointPair remote.id 0 = remote.id.toUInt64 <<< 16 := UInt64.or_zero
      rw [route] at permits
      rcases permits with requests | resumes | releases
      · exact .inl requests
      · exact .inr (.inl (by rw [← vcpu]; exact resumes))
      · exact .inr (.inr releases)
  · have balance := course.balance
    have lent : m.session.credit ≤ 1 := by
      unfold Session.credit
      split <;> decide
    change unmaps dealings ≤ 1
    omega
  · exact course.buffer.moved.imp_right And.right
  · have continues := passive.performAll more (course.addressed addressed)
    rcases continues.buffer.moved with stays | ⟨physical, _⟩
    · exact stays
    · rw [virtual] at physical
      contradiction

open Rehearsal in
/-- A session between endpoints over a script: it comes up, sends a message that is preempted once, and
leaves the boot environment twice. -/
theorem performAll_of_bringUp_preempted_once :
    let answers : List Registers := [{ x0 := 0x10001 }, Manager.success 1, Manager.success 0]
    let found : Reply := { ret := Manager.success 1, writes := [⟨.rxPage, Manager.hosted.encode⟩] }
    let later : List Registers := [Manager.success 0, { x0 := FunctionId.ffaInterrupt },
      { x0 := FunctionId.ffaDirectResponse }, Manager.success 0]
    let script : Script := ⟨answers.map ({ ret := · }) ++ found :: later.map ({ ret := · }), none⟩
    let monitor := Script.nestedMonitor 0
    let buffer := SharedBuffer.identityMapped 0x1000 0x40
    let up := bringUp monitor ⟨0x2000, 0x3000⟩ { buffer := some buffer } { rest := script }
    let run := Operation.performAll monitor [.communicate (EventGroup.message EventGroup.endOfDxe) none,
      .exitBootServices, .exitBootServices] up.2
    let dealings := run.1.flatMap fun entry => traffic entry.2
    up.1 = .ok () ∧ (calls dealings).map (·.x0) =
        [FunctionId.ffaDirectRequest, FunctionId.ffaRun, FunctionId.ffaRxtxUnmap] ∧
      (calls dealings).countP (·.x0 = FunctionId.ffaRxtxUnmap) ≤ 1 ∧ run.2.session.inUse = false := by
  intro answers found later script monitor buffer up run dealings
  have cameUp : up.1 = .ok () := rfl
  have passive : monitor.Passive := ⟨fun _ _ => rfl, fun _ _ => rfl⟩
  obtain ⟨_, ⟨_, _, _, free⟩, _, _, once, _⟩ := performAll_of_bringUp passive (Prod.ext cameUp rfl)
    [.communicate (EventGroup.message EventGroup.endOfDxe) none, .exitBootServices, .exitBootServices]
  exact ⟨cameUp, by decide +kernel, once, free⟩

end Lifecycle

end StandaloneMm
