import StandaloneMm.Secure.EventLoop
import StandaloneMm.Session.Discovery

/-!
A partition manager that hosts one partition: it answers version and discovery calls itself, and
hands requests to the partition's event loop. Preemptions are reported in front of a response that
is already there.
-/
namespace StandaloneMm.Manager

variable {ω : Type}

def normalWorldId : UInt16 := 1

def hosted : PartitionDescriptor := ⟨0x8003, 8, 3⟩

/-- The service that the hosted partition is found by. -/
def hostedService : Guid := ⟨0x378daedc, 0xf06b, 0x4446, 0x831440ab933c87a3⟩

inductive Call where
  | ffaVersion
  | mmVersion
  | idGet
  | map
  | infoGet
  | rxRelease
  | unmap
  | directRequest
  | run
  | communicate
  deriving DecidableEq, Repr

def Call.id : Call → UInt64
  | ffaVersion => FunctionId.ffaVersion
  | mmVersion => FunctionId.mmVersion
  | idGet => FunctionId.ffaIdGet
  | map => FunctionId.ffaRxtxMap
  | infoGet => FunctionId.ffaPartitionInfoGet
  | rxRelease => FunctionId.ffaRxRelease
  | unmap => FunctionId.ffaRxtxUnmap
  | directRequest => FunctionId.ffaDirectRequest
  | run => FunctionId.ffaRun
  | communicate => FunctionId.mmCommunicate

def Call.all : List Call :=
  [ffaVersion, mmVersion, idGet, map, infoGet, rxRelease, unmap, directRequest, run, communicate]

def Call.ofId? (id : UInt64) : Option Call := all.find? (·.id = id)

def success (value : UInt64) : Registers := { x0 := FunctionId.ffaSuccess32, x2 := value }

/-- One pair of pages at a time. -/
def mapPages (call : Registers) (s : Manager) : Registers × Manager :=
  match s.scratch with
  | some _ => (FfaStatus.denied.refusal, s)
  | none => (success 0, { s with scratch := some ⟨call.x1, call.x2⟩ })

def unmapPages (call : Registers) (s : Manager) : Registers × Manager :=
  if call.x1 = normalWorldId.toUInt64 <<< 16 ∧ s.scratch.isSome then
    (success 0, { s with scratch := none })
  else (FfaStatus.invalidParameters.refusal, s)

/-- The words of the query name the hosted service; upper register halves do not count. -/
def namesService (call : Registers) : Bool :=
  let asked : Guid.Words :=
    ⟨call.x1.toUInt32, call.x2.toUInt32, call.x3.toUInt32, call.x4.toUInt32⟩
  asked = hostedService.words

/-- Leaves the descriptor in the receive page, which then belongs to the normal world. -/
def partitionInfo (call : Registers) (m : Machine ω) : Registers × Machine ω :=
  match m.manager.scratch with
  | none => (FfaStatus.denied.refusal, m)
  | some pages =>
    if m.manager.rxHeld then (FfaStatus.busy.refusal, m)
    else if !namesService call then (FfaStatus.invalidParameters.refusal, m)
    else
      let memory := m.memory.store pages.rx.toNat hosted.encode
      let manager := { m.manager with rxHeld := true }
      (success manager.partitionCount, { m with memory := memory, manager := manager })

/-- The response as the normal world sees it. -/
def response (completion : Registers) : Registers where
  x0 := FunctionId.ffaDirectResponse
  x1 := endpointPair hosted.id normalWorldId
  x3 := completion.x3
  x4 := completion.x4

/-- Holds a response back behind the preemptions that are due. -/
def deliver (response : Registers) (s : Manager) : Registers × Manager :=
  match s.interruptsPerRequest with
  | 0 => (response, s)
  | due + 1 =>
    ({ x0 := FunctionId.ffaInterrupt },
      { s with interruptsRemaining := due, pending := some response })

def directRequest (loop : EventLoop ω) (call : Registers) (m : Machine ω) :
    Registers × Machine ω :=
  if call.x1 ≠ endpointPair normalWorldId hosted.id then (FfaStatus.invalidParameters.refusal, m)
  else
    let event := { x0 := FunctionId.ffaDirectRequest, x1 := call.x1, x3 := call.x3 }
    let (completion, m) := loop.handleEvent event m
    let (answer, manager) := deliver (response completion) m.manager
    (answer, { m with manager := manager })

def resume (call : Registers) (s : Manager) : Registers × Manager :=
  if call.x1 ≠ endpointPair hosted.id 0 then (FfaStatus.invalidParameters.refusal, s)
  else match s.interruptsRemaining with
  | remaining + 1 =>
    ({ x0 := FunctionId.ffaInterrupt }, { s with interruptsRemaining := remaining })
  | 0 =>
    match s.pending with
    | some response => (response, { s with pending := none })
    | none => (FfaStatus.denied.refusal, s)

/-- Hands a request of the older interface to the partition and relays its status. -/
def communicate (loop : EventLoop ω) (call : Registers) (m : Machine ω) :
    Registers × Machine ω :=
  let event := { x0 := FunctionId.mmCommunicate, x1 := call.x2 }
  let (completion, m) := loop.handleEvent event m
  ({ x0 := completion.x1 }, m)

/-- Runs a call that concerns the manager alone. -/
def onManager (m : Machine ω) (run : Manager → Registers × Manager) : Registers × Machine ω :=
  let (answer, manager) := run m.manager
  (answer, { m with manager := manager })

def answer (loop : EventLoop ω) (call : Registers) (m : Machine ω) : Registers × Machine ω :=
  match Call.ofId? call.x0 with
  | some .ffaVersion => ({ x0 := m.manager.ffaVersion.toUInt64 }, m)
  | some .mmVersion => ({ x0 := m.manager.mmVersion.toUInt64 }, m)
  | some .idGet => (success normalWorldId.toUInt64, m)
  | some .map => onManager m (mapPages call)
  | some .infoGet => partitionInfo call m
  | some .rxRelease => (success 0, { m with manager := { m.manager with rxHeld := false } })
  | some .unmap => onManager m (unmapPages call)
  | some .directRequest => directRequest loop call m
  | some .run => onManager m (resume call)
  | some .communicate => communicate loop call m
  | none => (FfaStatus.notSupported.refusal, m)

/-- Every call is entered in the manager's list before it is answered. -/
def handle (loop : EventLoop ω) (call : Registers) (m : Machine ω) : Registers × Machine ω :=
  let manager := { m.manager with calls := m.manager.calls ++ [call.x0] }
  answer loop call { m with manager := manager }

def monitor (loop : EventLoop ω) : Monitor ω where
  call := handle loop
  patience := fun m => m.manager.interruptsRemaining + 1

end StandaloneMm.Manager
