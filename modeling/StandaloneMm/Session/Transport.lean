import StandaloneMm.Machine
import StandaloneMm.Session.Admission
import StandaloneMm.Session.Delivery

/-!
One exchange with the partition: screen the message, take the shared buffer for its whole length,
copy the request in, call and resume, copy the reply out, and give the buffer back. The buffer is
given back after a failed assertion too.
-/
namespace StandaloneMm.Transport

open Admission Delivery

variable {ω : Type}

/-- Resumes the partition as long as it reports a preemption, at most `patience` times. -/
def resume (monitor : Monitor ω) (remote : PartitionDescriptor) :
    (patience : Nat) → Registers → Machine ω → Registers × Machine ω
  | 0, answer, m => (answer, m)
  | patience + 1, answer, m =>
    if preempted answer then
      let (answer, m) := (m.log .debug .mmComm).trap monitor (resumeRequest remote)
      resume monitor remote patience answer m
    else (answer, m)

/-- The call and what it takes to see it through. Only direct messages can be preempted. -/
def callRemote (monitor : Monitor ω) (route : Route) (registers : Registers) (m : Machine ω) :
    Registers × Machine ω :=
  let (answer, m) := m.trap monitor registers
  match route with
  | .legacy => (answer, m)
  | .direct _ remote => resume monitor remote (monitor.patience m) answer m

def hold (m : Machine ω) : Machine ω := { m with session := { m.session with inUse := true } }

def letGo (m : Machine ω) : Machine ω := { m with session := { m.session with inUse := false } }

def marshal (request : Bytes) (m : Machine ω) : Machine ω :=
  { m with memory := m.memory.store m.session.buffer.currentBase.toNat request }

def converse (monitor : Monitor ω) (message : Bytes) (total : Nat) (m : Machine ω) :
    (Except Fault Unit × Bytes) × Machine ω :=
  let m := (marshal (message.take total) (hold m)).append
    [.log .debug .mmComm, .log .debug .mmComm]
  let route := m.session.route
  let (answer, m) := callRemote monitor route (request route m.session.buffer.physicalBase) m
  let m := letGo m
  match classify route answer with
  | .error fault => ((.error fault, message), m.append (failureRecords fault))
  | .ok _ =>
    let receipt := receive m.memory m.session.buffer message total
    ((receipt.result.mapError .error, receipt.message), m.append receipt.records)

/-- Sends a message to its recipient in the partition and receives the reply in place. -/
def communicate (monitor : Monitor ω) (message : Bytes) (capacity : Option UInt64)
    (m : Machine ω) : Exchange × Machine ω :=
  let length := m.session.buffer.length
  match screen length message capacity with
  | .error refusal => (refusal.exchange length message capacity,
      m.append (refusal.records capacity))
  | .ok total =>
    let m := m.append (opening capacity)
    if m.session.inUse then
      (⟨.error (.error .accessDenied), message, capacity⟩, m.log .error .mmComm)
    else
      let ((result, message), m) := converse monitor message total m
      (⟨result, message, capacity⟩, m)

end StandaloneMm.Transport
