import StandaloneMm.Manager.State

/-!
The state of a run: memory that both worlds reach, the normal world's session, the manager between
the worlds, whether the partition is serving an event, the journal, and a part `ω` of its own for
whoever plays the other side. A `Monitor` is that other side: it answers calls.
-/
namespace StandaloneMm

structure Machine (ω : Type) where
  memory : Memory := Memory.blank
  session : Session := default
  manager : Manager := {}
  /-- The partition is inside an event; another one must wait for its completion. -/
  serving : Bool := false
  journal : List Event := []
  rest : ω

/-- The world that a call traps into. -/
structure Monitor (ω : Type) where
  call : Registers → Machine ω → Registers × Machine ω
  /-- Bounds how often in a row a resumed partition can still report that it was preempted. -/
  patience : Machine ω → Nat

namespace Machine

variable {ω : Type}

def append (m : Machine ω) (events : List Event) : Machine ω :=
  { m with journal := m.journal ++ events }

def record (m : Machine ω) (event : Event) : Machine ω := m.append [event]

def log (m : Machine ω) (level : Level) (target : Target) : Machine ω :=
  m.record (.log level target)

/-- One call: the journal shows its registers before and its answer after what it caused. -/
def trap (m : Machine ω) (monitor : Monitor ω) (registers : Registers) :
    Registers × Machine ω :=
  let (ret, m) := monitor.call registers (m.record (.call registers))
  (ret, m.record (.ret ret))

/-- Runs an operation on a journal of its own and gives that journal beside its answer. -/
def observe {α : Type} (m : Machine ω) (run : Machine ω → α × Machine ω) :
    (α × List Event) × Machine ω :=
  let (answer, after) := run { m with journal := [] }
  ((answer, after.journal), { after with journal := m.journal })

end Machine
end StandaloneMm
