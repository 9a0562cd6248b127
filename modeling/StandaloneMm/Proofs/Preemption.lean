import StandaloneMm.Proofs.CarryOver
import StandaloneMm.Proofs.Failure
import StandaloneMm.Proofs.Hosting
import StandaloneMm.Proofs.Records

/-! Preemptions of the partition, which its caller does not get to see. Whatever the partition writes on the
way, a call that is resumed until it is answered ends as if the last reply had come at once, with all
the writes. The older interface knows no preemption, and takes any answer for the last one. -/
namespace StandaloneMm

open Journal

namespace Rehearsal

variable {inner : Inner} {call : Registers} {m : Machine Script} {reply last : Reply} {rest : List Reply}

def received (m : Machine Script) (call : Registers) (reply : Reply) (rest : List Reply) : Machine Script :=
  { m with
    memory := writeAll m.rest.rxPage reply.writes m.memory
    rest := { m.rest with replies := rest }
    journal := m.journal ++ [.call call, .ret reply.ret] }

theorem trap_received (inner : Inner) (lendless : Lendless call) (replies : m.rest.replies = reply :: rest)
    (plain : reply.nested = []) :
    m.trap (Script.monitor inner) call = (reply.ret, received m call reply rest) := by
  have noted (s : Script) : s.noteCall call = s := by
    rw [Script.noteCall, if_neg lendless.1, if_neg lendless.2]
  have answered (s : Script) : s.noteAnswer call reply.ret = s := by
    rw [Script.noteAnswer, if_neg fun maps => lendless.1 maps.1]
  have alone (m : Machine Script) : runInner inner [] m = m := by cases inner <;> rfl
  have next : m.rest.next = (reply, { m.rest with replies := rest }) := by simp only [Script.next, replies]
  simp only [Machine.trap, Script.monitor, answer, Machine.record, Machine.append, noted, next, plain, alone,
    answered, received, writeAll, List.append_assoc, List.cons_append, List.nil_append]

/-- The machine once these replies are taken, but for its journal. -/
def taken (m : Machine Script) (replies rest : List Reply) : Machine Script :=
  { m with
    memory := writeAll m.rest.rxPage (replies.flatMap Reply.writes) m.memory
    rest := { m.rest with replies := rest } }

/-- A call that is resumed until its last reply makes one call more for each preemption. -/
theorem resume_taken (inner : Inner) (remote : PartitionDescriptor) {preemptions : List Reply}
    (preempt : ∀ r ∈ preemptions, Delivery.preempted r.ret = true) (ends : Delivery.preempted last.ret = false)
    (plain : ∀ r ∈ preemptions ++ [last], r.nested = []) {patience : Nat} (patient : preemptions.length ≤ patience)
    (lendless : Lendless call) (replies : m.rest.replies = preemptions ++ last :: rest) :
    let trapped := m.trap (Script.monitor inner) call
    ∃ journal, Transport.resume (Script.monitor inner) remote patience trapped.1 trapped.2 =
        (last.ret, { taken m (preemptions ++ [last]) rest with journal := journal }) ∧
      calls journal =
        calls m.journal ++ call :: List.replicate preemptions.length (Delivery.resumeRequest remote) := by
  -- Each preemption is answered by a call of its own, so the call is general with the machine.
  induction preemptions generalizing m call patience with
  | nil =>
    intro trapped
    have reached : trapped = (last.ret, received m call last rest) :=
      trap_received inner lendless replies (plain last (by simp))
    have written : ([] ++ [last]).flatMap Reply.writes = last.writes := List.append_nil _
    refine ⟨m.journal ++ [.call call, .ret last.ret], ?_, by simp [calls]⟩
    rw [reached, Manager.resume_answered _ _ _ ends, taken, written]
    rfl
  | cons first preemptions ih =>
    intro trapped
    have reached : trapped = (first.ret, received m call first (preemptions ++ last :: rest)) :=
      trap_received inner lendless replies (plain first (by simp))
    obtain ⟨patience, rfl⟩ : ∃ n, patience = n + 1 := Nat.exists_eq_add_one.mpr (Nat.zero_lt_of_lt patient)
    let resumed := (received m call first (preemptions ++ last :: rest)).log .debug .mmComm
    have remaining : resumed.rest.replies = preemptions ++ last :: rest := rfl
    obtain ⟨journal, run, made⟩ := ih (fun r member => preempt r (List.mem_cons_of_mem _ member))
      (fun r member => plain r (List.mem_cons_of_mem _ member)) (Nat.le_of_succ_le_succ patient)
      (resume_lendless remote) remaining
    refine ⟨journal, ?_, ?_⟩
    · have all : writeAll m.rest.rxPage ((first :: preemptions ++ [last]).flatMap Reply.writes) m.memory =
          writeAll m.rest.rxPage ((preemptions ++ [last]).flatMap Reply.writes)
            (writeAll m.rest.rxPage first.writes m.memory) := by
        rw [← writeAll_append]
        rfl
      rw [reached, Transport.resume, if_pos (preempt first (List.mem_cons_self ..)), taken, all]
      exact run
    · rw [made]
      simp [resumed, received, calls, Machine.log, Machine.record, Machine.append, List.replicate_succ]

end Rehearsal

namespace Transport

open Rehearsal Admission Delivery

variable {message : Bytes} {capacity : Option UInt64} {header : MessageHeader} {m : Machine Script}
  {reply last : Reply} {preemptions rest : List Reply} {localId : UInt16} {remote : PartitionDescriptor}

theorem answered_taken (inner : Inner) (message : Bytes) (capacity : Option UInt64) (total : Nat)
    (route : m.session.route = .direct localId remote) (replies : m.rest.replies = preemptions ++ last :: rest)
    (plain : ∀ r ∈ preemptions ++ [last], r.nested = []) (preempt : ∀ r ∈ preemptions, preempted r.ret = true)
    (ends : preempted last.ret = false) :
    ∃ journal, answered (Script.monitor inner) message capacity total m =
        (last.ret, { taken (offered message capacity total m) (preemptions ++ [last]) rest with journal := journal }) ∧
      calls journal = calls m.journal ++ request m.session.route m.session.buffer.physicalBase ::
        List.replicate preemptions.length (resumeRequest remote) := by
  let call := request m.session.route m.session.buffer.physicalBase
  let trapped := (offered message capacity total m).trap (Script.monitor inner) call
  have lendless : Lendless call := request_lendless ..
  have offers : (offered message capacity total m).rest.replies = preemptions ++ last :: rest := replies
  have patient : preemptions.length ≤ trapped.2.rest.replies.length + 1 := by
    cases preemptions with
    | nil => exact Nat.zero_le _
    | cons first more =>
      have received : trapped = _ := trap_received inner lendless offers (plain first (List.mem_cons_self ..))
      simp [received, Rehearsal.received]
  obtain ⟨journal, run, made⟩ := resume_taken inner remote preempt ends plain patient lendless offers
  rw [calls_offered] at made
  have sent : answered (Script.monitor inner) message capacity total m =
      callRemote (Script.monitor inner) (.direct localId remote) call (offered message capacity total m) :=
    congrArg (callRemote _ · call _) route
  exact ⟨journal, sent.trans ((callRemote_of_trap (Prod.eta trapped).symm).trans run), made⟩

/-- The same exchange with all the writes in its last reply. -/
theorem communicate_at_once (inner : Inner) (admitted : Admitted m.session.buffer.length message capacity header)
    (free : m.session.inUse = false) (route : m.session.route = .direct localId remote)
    (replies : m.rest.replies = preemptions ++ last :: rest)
    (plain : ∀ r ∈ preemptions ++ [last], r.nested = []) (preempt : ∀ r ∈ preemptions, preempted r.ret = true)
    (ends : preempted last.ret = false) :
    let atOnce : Reply := { ret := last.ret, writes := (preemptions ++ [last]).flatMap Reply.writes }
    let run := communicate (Script.monitor inner) message capacity m
    let straight := communicate (Script.monitor inner) message capacity
      { m with rest := { m.rest with replies := atOnce :: rest } }
    run.1 = straight.1 ∧ run.2 = { straight.2 with journal := run.2.journal } ∧ run.2.rest.replies = rest ∧
      calls run.2.journal = calls m.journal ++ request m.session.route m.session.buffer.physicalBase ::
        List.replicate preemptions.length (resumeRequest remote) := by
  intro atOnce run straight
  let m' : Machine Script := { m with rest := { m.rest with replies := atOnce :: rest } }
  have route' : m'.session.route = .direct localId remote := route
  have replies' : m'.rest.replies = [] ++ atOnce :: rest := rfl
  obtain ⟨journal, answers, made⟩ := answered_taken inner message capacity header.total route replies plain preempt ends
  obtain ⟨journal', answers', _⟩ := answered_taken inner message capacity header.total route' replies'
    (by simp [atOnce]) nofun ends
  let ended := taken (offered message capacity header.total m) (preemptions ++ [last]) rest
  have written : ([] ++ [atOnce]).flatMap Reply.writes = (preemptions ++ [last]).flatMap Reply.writes :=
    List.append_nil _
  have same : taken (offered message capacity header.total m') ([] ++ [atOnce]) rest = ended := by
    simp only [ended, taken, written]
    rfl
  rw [same] at answers'
  obtain ⟨result, records, notes, concludes, concludes'⟩ := concluded_journal m.session.route message header.total
    last.ret { ended with journal := journal } journal'
  have first : run = (⟨result.1, result.2, capacity⟩, (letGo { ended with journal := journal }).append records) := by
    have reached : run = _ := communicate_answered admitted free answers
    rw [reached, concludes]
  have second : straight =
      (⟨result.1, result.2, capacity⟩, (letGo { ended with journal := journal' }).append records) := by
    have reached : straight = _ := communicate_answered (m := m') admitted free answers'
    exact reached.trans (by rw [concludes'])
  have whole : calls (journal ++ records) = calls journal := by rw [calls_append, notes.calls, List.append_nil]
  rw [first, second]
  exact ⟨rfl, rfl, rfl, whole.trans made⟩

theorem communicate_once (inner : Inner) (admitted : Admitted m.session.buffer.length message capacity header)
    (free : m.session.inUse = false) (route : m.session.route = .legacy)
    (replies : m.rest.replies = reply :: rest) (plain : reply.nested = []) :
    let run := communicate (Script.monitor inner) message capacity m
    let call := request m.session.route m.session.buffer.physicalBase
    Ends (Script.monitor inner) message capacity m reply.ret ∧ run.2.rest.replies = rest ∧
      calls run.2.journal = calls m.journal ++ [call] := by
  intro run call
  let sent := offered message capacity header.total m
  have trapped : sent.trap (Script.monitor inner) call = (reply.ret, received sent call reply rest) :=
    trap_received inner (request_lendless ..) replies plain
  have answers : answered (Script.monitor inner) message capacity header.total m =
      (reply.ret, received sent call reply rest) :=
    (congrArg (callRemote _ · call sent) route).trans trapped
  obtain ⟨records, notes, concludes⟩ := concluded_append m.session.route message header.total reply.ret
    (received sent call reply rest)
  have left : run.2 = (letGo (received sent call reply rest)).append records := by
    have reached : run = _ := communicate_answered admitted free answers
    rw [reached]
    exact concludes
  have journal : run.2.journal = sent.journal ++ [.call call, .ret reply.ret] ++ records := by
    rw [left]
    rfl
  have ends : Ends (Script.monitor inner) message capacity m _ := ends_answered admitted free
  rw [answers] at ends
  refine ⟨ends, by rw [left]; rfl, ?_⟩
  rw [journal, calls_append, calls_append, notes.calls, List.append_nil, calls_offered]
  rfl

/-- A partition that is preempted is resumed by one call for each time, until it has answered. What the
caller gets, and all that the exchange leaves but its journal, is the same as if the last reply had come at
once, with the writes of all of them in order. A session of the older interface makes one call, whatever the
reply to it, and takes a preemption for a status that it does not know. -/
theorem communicate_preempted (inner : Inner) (m : Machine Script) (message : Bytes) (capacity : Option UInt64)
    (free : m.session.inUse = false) {total : Nat}
    (passes : screen m.session.buffer.length message capacity = .ok total) :
    let monitor := Script.monitor inner
    let run := communicate monitor message capacity m
    (∀ localId remote, m.session.route = .direct localId remote →
      ∀ preemptions last rest, m.rest.replies = preemptions ++ last :: rest →
        (∀ r ∈ preemptions ++ [last], r.nested = []) →
        (∀ r ∈ preemptions, r.ret.x0 = FunctionId.ffaInterrupt) → last.ret.x0 ≠ FunctionId.ffaInterrupt →
        let atOnce : Reply := { ret := last.ret, writes := (preemptions ++ [last]).flatMap Reply.writes }
        let straight := communicate monitor message capacity
          { m with rest := { m.rest with replies := atOnce :: rest } }
        let request : Registers := {
          x0 := FunctionId.ffaDirectRequest
          x1 := endpointPair localId remote.id
          x3 := m.session.buffer.physicalBase }
        let resumption : Registers := { x0 := FunctionId.ffaRun, x1 := remote.id.toUInt64 <<< 16 }
        run.1 = straight.1 ∧ run.2 = { straight.2 with journal := run.2.journal } ∧ run.2.rest.replies = rest ∧
          calls run.2.journal = calls m.journal ++ request :: List.replicate preemptions.length resumption) ∧
    (m.session.route = .legacy → ∀ reply rest, m.rest.replies = reply :: rest → reply.nested = [] →
      let request : Registers := { x0 := FunctionId.mmCommunicate, x2 := m.session.buffer.physicalBase }
      run.2.rest.replies = rest ∧ calls run.2.journal = calls m.journal ++ [request] ∧
        (reply.ret.x0 = FunctionId.ffaInterrupt → run.1 =
          ⟨.error (.assertion (.unexpectedStatus FunctionId.ffaInterrupt)), message, capacity⟩)) := by
  intro monitor run
  obtain ⟨header, admitted, rfl⟩ := screen_eq_ok_iff.mp passes
  constructor
  · intro localId remote route preemptions last rest replies plain preempt ends atOnce straight call resumption
    obtain ⟨exchange, left, behind, made⟩ := communicate_at_once inner admitted free route replies plain
      (fun r member => decide_eq_true (preempt r member)) (decide_eq_false ends)
    have resumes : resumeRequest remote = resumption := by simp [resumeRequest, endpointPair, resumption]
    rw [route, resumes] at made
    exact ⟨exchange, left, behind, made⟩
  · intro route reply rest replies plain call
    obtain ⟨ends, behind, made⟩ := communicate_once inner admitted free route replies plain
    rw [route] at made
    refine ⟨behind, made, fun interrupt => ?_⟩
    have fails : succeeded m.session.route reply.ret = false := by
      rw [route, succeeded, interrupt]
      decide
    have fault : faultOfStatus FunctionId.ffaInterrupt = .assertion (.unexpectedStatus FunctionId.ffaInterrupt) := by
      decide
    have exchange := communicate_ends ends fails
    rw [route, failureStatus, interrupt, fault] at exchange
    exact exchange

theorem communicate_preempted_twice :
    let interrupt (writes : List Write) : Reply := { ret := { x0 := FunctionId.ffaInterrupt }, writes := writes }
    let first := interrupt [⟨.address 0x1018, [1, 2]⟩]
    let second := interrupt [⟨.address 0x1019, [9]⟩]
    let last : Reply := { ret := { x0 := FunctionId.ffaDirectResponse }, writes := [⟨.address 0x101A, [3]⟩] }
    let session : Session := { route := .direct 1 Manager.hosted, buffer := .identityMapped 0x1000 0x40 }
    let header := MessageHeader.encode ⟨EventGroup.endOfDxe, 4⟩
    let run := communicate (Script.monitor none) (header ++ zeros 4) none
      { session := session, rest := { replies := [first, second, last] } }
    run.1.message = header ++ [1, 9, 3, 0] ∧
      (calls run.2.journal).map Registers.x0 = [FunctionId.ffaDirectRequest, FunctionId.ffaRun, FunctionId.ffaRun] := by
  intro interrupt first second last session header run
  obtain ⟨direct, _⟩ := communicate_preempted none
    { session := session, rest := { replies := [first, second, last] } } (header ++ zeros 4) none rfl
    rfl
  obtain ⟨same, _, _, made⟩ := direct 1 Manager.hosted rfl [first, second] last [] rfl
    (by simp [first, second, last, interrupt]) (by simp [first, second, interrupt]) (by decide)
  exact ⟨(congrArg Exchange.message same).trans (by decide +kernel), (congrArg (List.map Registers.x0) made).trans rfl⟩

end Transport

end StandaloneMm
