import StandaloneMm.Secure.Compatibility
import StandaloneMm.Secure.Dispatch

/-!
The partition's side of a call. An event names the shared buffer; the message in it goes to its
handler, and the completion of one event is the wait for the next. While a handler runs, every
other event is denied.
-/
namespace StandaloneMm

structure EventLoop (ω : Type) where
  abi : PartitionAbi
  buffer : SharedBuffer
  handlers : Registry (Handler ω)

namespace EventLoop

variable {ω : Type}

def statusOf : Except Error Unit → MmStatus
  | .ok _ => .success
  | .error .invalidParameter => .invalidParams
  | .error .accessDenied => .denied
  | .error .outOfResources => .noMemory
  | .error _ => .notSupported

def initCode : Except Error Unit → Int
  | .error .unsupported => MmStatus.notSupported.code
  | .error .invalidParameter => MmStatus.invalidParams.code
  | .error .notFound => -7
  | _ => MmStatus.success.code

def completion (abi : PartitionAbi) (status : UInt64) : Registers :=
  match abi with
  | .ffa _ =>
    { x0 := FunctionId.ffaDirectResponse, x3 := FunctionId.spEventComplete, x4 := status }
  | .spm => { x0 := FunctionId.spEventComplete, x1 := status }

/-- The call that completes initialization; a manager spoken to in FF-A alone takes no status. -/
def initialCompletion (abi : PartitionAbi) (init : Except Error Unit) : Registers :=
  match abi with
  | .ffa true => { x0 := FunctionId.ffaMsgWait }
  | .ffa false | .spm => completion abi (UInt64.ofInt (initCode init))

def namedAddress (abi : PartitionAbi) (event : Registers) : UInt64 :=
  match abi with
  | .ffa _ => event.x3
  | .spm => event.x1

/-- Serves one event: only one at a time, and only in the partition's own buffer. -/
def serve (loop : EventLoop ω) (event : Registers) (m : Machine ω) :
    Except Error Unit × Machine ω :=
  if m.serving then (.error .accessDenied, m)
  else if namedAddress loop.abi event ≠ loop.buffer.physicalBase then
    (.error .accessDenied, m.log .error .stmm)
  else
    match Dispatch.dispatch loop.handlers loop.buffer.span { m with serving := true } with
    | (.ok _, m) => (.ok (), { m with serving := false })
    | (.error e, m) => (.error e, { m with serving := false }.log .warn .stmm)

def handleEvent (loop : EventLoop ω) (event : Registers) (m : Machine ω) :
    Registers × Machine ω :=
  let (result, m) := loop.serve event m
  (completion loop.abi (statusOf result).register, m)

/-- Completes the previous event, waits for the next one and handles it. -/
def step (loop : EventLoop ω) (monitor : Monitor ω) (previous : Registers) (m : Machine ω) :
    Registers × Machine ω :=
  let (event, m) := m.trap monitor previous
  loop.handleEvent event m

/-- Serves the next `events` events and makes the call that waits for one more. -/
def run (loop : EventLoop ω) (monitor : Monitor ω) :
    (events : Nat) → Registers → Machine ω → Machine ω
  | 0, previous, m => m.record (.call previous)
  | events + 1, previous, m =>
    let (next, m) := loop.step monitor previous m
    run loop monitor events next m

end EventLoop
end StandaloneMm
