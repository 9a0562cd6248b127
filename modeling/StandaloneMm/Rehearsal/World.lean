import StandaloneMm.Manager.Calls
import StandaloneMm.Rehearsal.Handlers

/-!
Both worlds on one machine: a session whose calls go to a manager that hosts a partition with
scripted handlers.
-/
namespace StandaloneMm.Rehearsal

structure World where
  abi : PartitionAbi
  /-- The buffer as the partition sees it. -/
  secure : SharedBuffer
  handlers : List HandlerScript

namespace World

/-- Operations of a handler run on the session that waits for it. -/
def perform (loop : EventLoop Unit) : List Operation → Machine Unit →
    List (Answer × List Event) × Machine Unit :=
  Operation.performAll (Manager.monitor loop)

/-- The partition; its handlers never run inside one another. -/
def loop (w : World) : EventLoop Unit := reentrantLoop w.abi w.secure w.handlers perform 2

def monitor (w : World) : Monitor Unit := Manager.monitor w.loop

def setInterrupts (count : Nat) (m : Machine Unit) : Machine Unit :=
  { m with manager := { m.manager with interruptsPerRequest := count } }

end World
end StandaloneMm.Rehearsal
