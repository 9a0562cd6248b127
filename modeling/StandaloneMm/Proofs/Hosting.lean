import StandaloneMm.Manager.Calls
import StandaloneMm.Proofs.Service
import StandaloneMm.Session.Transport

/-! The partition manager between a session and a partition of body handlers: what a request does
behind the call, through every preemption that is reported in front of its response. -/
namespace StandaloneMm

open Journal Delivery

variable {ω : Type} {m after : Machine ω}

theorem Excursion.setManager (m : Machine ω) (manager : Manager) :
    Excursion m { m with manager := manager } [] [] := ⟨rfl, rfl, by simp, by simp⟩

theorem Transport.callRemote_of_trap {monitor : Monitor ω} {call answer : Registers} {localId : UInt16}
    {remote : PartitionDescriptor} (trapped : m.trap monitor call = (answer, after)) :
    callRemote monitor (.direct localId remote) call m =
      resume monitor remote (monitor.patience after) answer after := by
  simp only [callRemote, trapped]

namespace Manager

open EventLoop (ofBodyHandlers)

variable {abi : PartitionAbi} {base length : UInt64} (handlers : Registry (BodyHandler ω))

theorem partitionInfo_excursion (call : Registers) (m : Machine ω) :
    Excursion m (partitionInfo call m).2 [] [] := by
  unfold partitionInfo
  split
  · exact Excursion.refl m
  · split
    · exact Excursion.refl m
    · split
      · exact Excursion.refl m
      · exact ⟨rfl, rfl, by simp, by simp⟩

theorem directRequest_excursion (abi : PartitionAbi) (base length : UInt64) (call : Registers)
    (m : Machine ω) :
    ∃ entered, Excursion m (directRequest (ofBodyHandlers abi base length handlers) call m).2 [] entered := by
  unfold directRequest
  split
  · exact ⟨[], Excursion.refl m⟩
  · obtain ⟨completion, after, entered, handled, way⟩ :=
      EventLoop.handleEvent_excursion abi base length handlers
        { x0 := FunctionId.ffaDirectRequest, x1 := call.x1, x3 := call.x3 } m
    simp only [handled]
    exact ⟨entered, by simpa using way.trans (Excursion.setManager after _)⟩

theorem communicate_excursion (abi : PartitionAbi) (base length : UInt64) (call : Registers) (m : Machine ω) :
    ∃ entered, Excursion m (communicate (ofBodyHandlers abi base length handlers) call m).2 [] entered := by
  obtain ⟨completion, after, entered, handled, way⟩ :=
    EventLoop.handleEvent_excursion abi base length handlers
      { x0 := FunctionId.mmCommunicate, x1 := call.x2 } m
  simp only [communicate, handled]
  exact ⟨entered, way⟩

theorem answer_excursion (abi : PartitionAbi) (base length : UInt64) (call : Registers) (m : Machine ω) :
    ∃ entered, Excursion m (answer (ofBodyHandlers abi base length handlers) call m).2 [] entered := by
  cases found : Call.ofId? call.x0 with
  | none => exact ⟨[], by simpa only [answer, found] using Excursion.refl m⟩
  | some known =>
    cases known with
    | infoGet => exact ⟨[], by simpa only [answer, found] using partitionInfo_excursion call m⟩
    | directRequest => simpa only [answer, found] using directRequest_excursion handlers abi base length call m
    | communicate => simpa only [answer, found] using communicate_excursion handlers abi base length call m
    | ffaVersion | mmVersion | idGet =>
      exact ⟨[], by simpa only [answer, found] using Excursion.refl m⟩
    | map | unmap | run | rxRelease =>
      exact ⟨[], by simpa only [answer, found, onManager] using Excursion.setManager m _⟩

theorem handle_excursion (abi : PartitionAbi) (base length : UInt64) (call : Registers) (m : Machine ω) :
    ∃ entered, Excursion m (handle (ofBodyHandlers abi base length handlers) call m).2 [] entered := by
  let listed := { m.manager with calls := m.manager.calls ++ [call.x0] }
  obtain ⟨entered, way⟩ := answer_excursion handlers abi base length call
    { m with manager := listed }
  exact ⟨entered, (Excursion.setManager m listed).trans way⟩

/-- The manager with one more call on its list. -/
def listed (s : Manager) (call : Registers) : Manager := { s with calls := s.calls ++ [call.x0] }

theorem handle_resume (loop : EventLoop ω) (m : Machine ω) :
    handle loop (resumeRequest hosted) m =
      onManager m fun s => resume (resumeRequest hosted) (listed s (resumeRequest hosted)) := rfl

theorem resume_hosted (s : Manager) : resume (resumeRequest hosted) s =
    match s.interruptsRemaining with
    | remaining + 1 => ({ x0 := FunctionId.ffaInterrupt }, { s with interruptsRemaining := remaining })
    | 0 => match s.pending with
      | some response => (response, { s with pending := none })
      | none => (FfaStatus.denied.refusal, s) := rfl

theorem resume_answered (monitor : Monitor ω) (remote : PartitionDescriptor) (patience : Nat)
    {answer : Registers} (ends : preempted answer = false) (m : Machine ω) :
    Transport.resume monitor remote patience answer m = (answer, m) := by
  cases patience with
  | zero => rfl
  | succ patience => simp [Transport.resume, ends]

/-- The machine after one resumption that the manager answers so. -/
def resumed (m : Machine ω) (answer : Registers) (s : Manager) : Machine ω :=
  { m with manager := s }.append
    [.log .debug .mmComm, .call (resumeRequest hosted), .ret answer]

theorem resumed_excursion (m : Machine ω) (answer : Registers) (s : Manager) :
    Excursion m (resumed m answer s) [resumeRequest hosted] [] :=
  ⟨rfl, rfl, by simp [resumed, Machine.append]; rfl, by simp [resumed, Machine.append]; rfl⟩

theorem resume_step (loop : EventLoop ω) (patience : Nat) {m : Machine ω} {answer : Registers}
    {s : Manager} (resumes : resume (resumeRequest hosted) (listed m.manager (resumeRequest hosted)) =
      (answer, s)) :
    Transport.resume (monitor loop) hosted (patience + 1) { x0 := FunctionId.ffaInterrupt } m =
      Transport.resume (monitor loop) hosted patience answer (resumed m answer s) := by
  have interrupted : preempted { x0 := FunctionId.ffaInterrupt } = true := by decide
  have trapped : (m.log .debug .mmComm).trap (monitor loop) (resumeRequest hosted) =
      (answer, resumed m answer s) := by
    simp [Machine.trap, monitor, handle_resume, onManager, Machine.log, Machine.record, Machine.append,
      resumes, resumed]
  rw [Transport.resume, if_pos interrupted, trapped]

/-- The response that waits behind `due` preemptions comes out after `due + 1` resumptions. -/
theorem resume_pending (loop : EventLoop ω) {response : Registers} (ends : preempted response = false)
    (due : Nat) (m : Machine ω) (remaining : m.manager.interruptsRemaining = due)
    (pending : m.manager.pending = some response) :
    ∃ after, Transport.resume (monitor loop) hosted (due + 1) { x0 := FunctionId.ffaInterrupt } m =
        (response, after) ∧ after.memory = m.memory ∧ after.rest = m.rest ∧
      Excursion m after (List.replicate (due + 1) (resumeRequest hosted)) [] := by
  -- The pending response outlives every preemption, so the machine is general and the response is not.
  induction due generalizing m with
  | zero =>
    let emptied := { listed m.manager (resumeRequest hosted) with pending := none }
    have resumes : resume (resumeRequest hosted) (listed m.manager (resumeRequest hosted)) =
        (response, emptied) := by
      simp only [resume_hosted, listed, remaining, pending, emptied]
    refine ⟨resumed m response emptied, ?_, rfl, rfl, resumed_excursion m response emptied⟩
    rw [resume_step loop 0 resumes, resume_answered _ _ _ ends]
  | succ due ih =>
    let fewer := { listed m.manager (resumeRequest hosted) with interruptsRemaining := due }
    have resumes : resume (resumeRequest hosted) (listed m.manager (resumeRequest hosted)) =
        ({ x0 := FunctionId.ffaInterrupt }, fewer) := by
      simp only [resume_hosted, listed, remaining, fewer]
    obtain ⟨after, comes, memory, rest, way⟩ :=
      ih (resumed m { x0 := FunctionId.ffaInterrupt } fewer) rfl pending
    refine ⟨after, ?_, memory, rest, (resumed_excursion m _ fewer).trans way⟩
    rw [resume_step loop (due + 1) resumes, comes]

theorem directRequest_of_handled (loop : EventLoop ω) {call completion : Registers}
    (addressed : call.x1 = endpointPair normalWorldId hosted.id)
    (handled : loop.handleEvent { x0 := FunctionId.ffaDirectRequest, x1 := call.x1, x3 := call.x3 } m =
      (completion, after)) :
    directRequest loop call m = ((deliver (response completion) after.manager).1,
      { after with manager := (deliver (response completion) after.manager).2 }) := by
  unfold directRequest
  rw [if_neg (not_not_intro addressed)]
  simp only [handled]

theorem deliver_at_once (response : Registers) {s : Manager} (none : s.interruptsPerRequest = 0) :
    deliver response s = (response, s) := by
  simp only [deliver, none]

theorem deliver_later (response : Registers) {s : Manager} {due : Nat}
    (some : s.interruptsPerRequest = due + 1) : deliver response s =
      ({ x0 := FunctionId.ffaInterrupt },
        { s with interruptsRemaining := due, pending := Option.some response }) := by
  simp only [deliver, some]

/-- The session is told nothing of the outcome but that there is a response. -/
def directResponse (only : Bool) (status : MmStatus) : Registers :=
  response (EventLoop.completion (.ffa only) status.register)

theorem handle_direct (only : Bool) {header : MessageHeader} (waiting : m.serving = false)
    (read : MessageHeader.decode? (m.memory.load base.toNat length.toNat) = some header)
    (fits : header.total ≤ length.toNat) :
    let start := base.toNat + MessageHeader.size
    let body := m.memory.load start (header.total - MessageHeader.size)
    let done := handlers.work header.recipient m.rest body
    let call := request (.direct normalWorldId hosted) base
    let delivered := deliver (directResponse only (EventLoop.statusOf (Dispatch.settled done.result)))
      (listed m.manager call)
    ∃ after, handle (ofBodyHandlers (.ffa only) base length handlers) call m =
        (delivered.1, { after with manager := delivered.2 }) ∧
      after.memory = m.memory.store start done.body ∧ after.rest = done.rest ∧
      Excursion m after [] (handlers.entered header.recipient body) := by
  intro start body done call delivered
  have named : EventLoop.namedAddress (.ffa only)
    { x0 := FunctionId.ffaDirectRequest, x1 := call.x1, x3 := call.x3 } = base := rfl
  obtain ⟨after, served, serviced⟩ := EventLoop.serve_message handlers
    (m := { m with manager := listed m.manager call }) waiting named read fits
  have handled := EventLoop.handleEvent_of_serve _ served
  refine ⟨after, ?_, serviced.memory, serviced.rest, (Excursion.setManager m _).trans serviced.way⟩
  change directRequest _ call { m with manager := listed m.manager call } = _
  rw [directRequest_of_handled _ rfl handled, serviced.manager]
  rfl

/-- Through any number of preemptions, a direct request ends in a direct response. -/
theorem callRemote_direct (only : Bool) {header : MessageHeader} (waiting : m.serving = false)
    (read : MessageHeader.decode? (m.memory.load base.toNat length.toNat) = some header)
    (fits : header.total ≤ length.toNat) :
    let start := base.toNat + MessageHeader.size
    let body := m.memory.load start (header.total - MessageHeader.size)
    let done := handlers.work header.recipient m.rest body
    let route := Route.direct normalWorldId hosted
    ∃ after, Transport.callRemote (monitor (ofBodyHandlers (.ffa only) base length handlers)) route
        (request route base) m =
          (directResponse only (EventLoop.statusOf (Dispatch.settled done.result)), after) ∧
      after.memory = m.memory.store start done.body ∧ after.rest = done.rest ∧
      Excursion m after
        (request route base :: List.replicate m.manager.interruptsPerRequest (resumeRequest hosted))
        (handlers.entered header.recipient body) := by
  intro start body done route
  let loop := ofBodyHandlers (.ffa only) base length handlers
  let call := request route base
  let result := directResponse only (EventLoop.statusOf (Dispatch.settled done.result))
  have ends : preempted result = false := rfl
  obtain ⟨served, handled, memory, rest, way⟩ :=
    handle_direct handlers only (m := m.record (.call call)) waiting read fits
  have trapped : m.trap (monitor loop) call = ((deliver result (listed m.manager call)).1,
      { served with manager := (deliver result (listed m.manager call)).2 }.record
        (.ret (deliver result (listed m.manager call)).1)) := by
    simp only [Machine.trap, monitor]
    rw [handled]
    rfl
  have out (s : Manager) (answer : Registers) :
      Excursion m ({ served with manager := s }.record (.ret answer)) [call]
        (handlers.entered header.recipient body) := by
    have inside := ((Excursion.call m call).trans way).trans (Excursion.setManager served s)
    rw [List.nil_append, List.append_nil, List.append_nil, List.append_nil] at inside
    exact inside.thenAppend (quiet_ret answer)
  cases often : m.manager.interruptsPerRequest with
  | zero =>
    rw [deliver_at_once result (s := listed m.manager call) often] at trapped
    refine ⟨{ served with manager := listed m.manager call }.record (.ret result),
      (Transport.callRemote_of_trap trapped).trans ?_, memory, rest, out _ _⟩
    exact resume_answered _ _ _ ends _
  | succ due =>
    let holding := { listed m.manager call with interruptsRemaining := due, pending := some result }
    let interrupted : Registers := { x0 := FunctionId.ffaInterrupt }
    rw [deliver_later result (s := listed m.manager call) often] at trapped
    obtain ⟨after, comes, memory', rest', onward⟩ := resume_pending loop ends due
      ({ served with manager := holding }.record (.ret interrupted)) rfl rfl
    have whole := (out holding interrupted).trans onward
    rw [List.append_nil] at whole
    exact ⟨after, (Transport.callRemote_of_trap trapped).trans comes, memory'.trans memory,
      rest'.trans rest, whole⟩

theorem callRemote_legacy {header : MessageHeader} (waiting : m.serving = false)
    (read : MessageHeader.decode? (m.memory.load base.toNat length.toNat) = some header)
    (fits : header.total ≤ length.toNat) :
    let start := base.toNat + MessageHeader.size
    let body := m.memory.load start (header.total - MessageHeader.size)
    let done := handlers.work header.recipient m.rest body
    ∃ after, Transport.callRemote (monitor (ofBodyHandlers .spm base length handlers)) .legacy
        (request .legacy base) m =
          ({ x0 := (EventLoop.statusOf (Dispatch.settled done.result)).register }, after) ∧
      after.memory = m.memory.store start done.body ∧ after.rest = done.rest ∧
      Excursion m after [request .legacy base] (handlers.entered header.recipient body) := by
  intro start body done
  let call := request .legacy base
  let called := m.record (.call call)
  have named : EventLoop.namedAddress .spm { x0 := FunctionId.mmCommunicate, x1 := call.x2 } = base := rfl
  obtain ⟨served, serves, serviced⟩ := EventLoop.serve_message handlers
    (m := { called with manager := listed called.manager call }) waiting named read fits
  have handled := EventLoop.handleEvent_of_serve _ serves
  let status := (EventLoop.statusOf (Dispatch.settled done.result)).register
  have answered : handle (ofBodyHandlers .spm base length handlers) call called =
      ({ x0 := status }, served) := by
    change communicate _ call { called with manager := listed called.manager call } = _
    simp only [communicate, handled]
    rfl
  refine ⟨served.record (.ret { x0 := status }), ?_, serviced.memory, serviced.rest, ?_⟩
  · simp only [Transport.callRemote, Machine.trap, monitor]
    rw [answered]
  · have inside := ((Excursion.call m call).trans (Excursion.setManager called _)).trans serviced.way
    rw [List.nil_append, List.append_nil, List.append_nil] at inside
    exact inside.thenAppend (quiet_ret _)

end Manager

end StandaloneMm
