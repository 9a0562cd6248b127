import StandaloneMm.Abi
import StandaloneMm.Machine

/-!
Finding the partition that serves a service. Two scratch pages are lent to the partition manager,
which leaves the descriptor in the second one; the page is handed back once the descriptor is read,
and the pair stays lent until it is released. A query that fails takes the pages back at once.
-/
namespace StandaloneMm.Discovery

variable {ω : Type}

/-- The service that the normal world asks for. -/
def serviceGuid : Guid := ⟨0x378daedc, 0xf06b, 0x4446, 0x831440ab933c87a3⟩

def idRequest : Registers := { x0 := FunctionId.ffaIdGet }

def mapRequest (pages : ScratchPages) : Registers :=
  { x0 := FunctionId.ffaRxtxMap, x1 := pages.tx, x2 := pages.rx, x3 := scratchPageCount }

def infoRequest (service : Guid) : Registers :=
  let words := service.words
  { x0 := FunctionId.ffaPartitionInfoGet
    x1 := words.w0.toUInt64
    x2 := words.w1.toUInt64
    x3 := words.w2.toUInt64
    x4 := words.w3.toUInt64 }

def rxReleaseRequest (localId : UInt16) : Registers :=
  { x0 := FunctionId.ffaRxRelease, x1 := localId.toUInt64 }

def unmapRequest (localId : UInt16) : Registers :=
  { x0 := FunctionId.ffaRxtxUnmap, x1 := localId.toUInt64 <<< 16 }

def refused (answer : Registers) : Bool := answer.x0 = FunctionId.ffaError

/-- Takes the lent pages back. Whatever the manager answers, they are not released again. What becomes of
their memory is not modelled: it is freed if the manager agrees, and left to it for good if not. -/
def release (monitor : Monitor ω) (d : Directory) (m : Machine ω) : Directory × Machine ω :=
  match d.pages with
  | none => (d, m)
  | some _ =>
    let (answer, m) := m.trap monitor (unmapRequest d.localId)
    ({ d with pages := none }, m.log (if refused answer then .error else .debug) .ffa)

/-- Asks for the descriptor and copies it out before the receive page is handed back. -/
def query (monitor : Monitor ω) (pages : ScratchPages) (localId : UInt16) (service : Guid)
    (m : Machine ω) : Except Error PartitionDescriptor × Machine ω :=
  let (answer, m) := m.trap monitor (infoRequest service)
  if refused answer || answer.x2 = 0 then (.error .unsupported, m.log .error .ffa)
  else match PartitionDescriptor.decode?
      (m.memory.load pages.rx.toNat PartitionDescriptor.size) with
  | none => (.error .unsupported, m)
  | some remote =>
    let (answer, m) := m.trap monitor (rxReleaseRequest localId)
    if refused answer then (.error .unsupported, m.log .error .ffa) else (.ok remote, m)

def blanked (pages : ScratchPages) (memory : Memory) : Memory :=
  (memory.store pages.tx.toNat (zeros pageSize)).store pages.rx.toNat (zeros pageSize)

/-- Finds the partition behind a service, lending it these pages, which start out blank. -/
def discover (monitor : Monitor ω) (pages : ScratchPages) (service : Guid) (m : Machine ω) :
    Except Error Directory × Machine ω :=
  let (answer, m) := m.trap monitor idRequest
  if refused answer then (.error .unsupported, m.log .error .ffa) else
  let localId := answer.x2.toUInt16
  let m := m.log .debug .ffa
  let m := { m with memory := blanked pages m.memory }
  let (answer, m) := m.trap monitor (mapRequest pages)
  if refused answer then (.error .unsupported, m.log .error .ffa) else
  let m := m.log .debug .ffa
  match query monitor pages localId service m with
  | (.ok remote, m) => (.ok ⟨localId, remote, some pages⟩, m.log .info .ffa)
  | (.error e, m) =>
    let (_, m) := release monitor ⟨localId, default, some pages⟩ m
    (.error e, m)

end StandaloneMm.Discovery
