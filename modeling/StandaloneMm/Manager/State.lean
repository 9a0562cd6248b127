import StandaloneMm.Registers
import StandaloneMm.Session.State
import StandaloneMm.Version

/-!
What a partition manager remembers between calls: the answers it was set up with, the pages lent
to it, who owns the receive page, and the preemptions still to be reported.
-/
namespace StandaloneMm

structure Manager where
  /-- The answer to the FF-A version call. -/
  ffaVersion : UInt32 := Version.notSupported
  /-- The answer to the MM version call. -/
  mmVersion : UInt32 := Version.notSupported
  partitionCount : UInt64 := 1
  /-- Function identifiers in the order of the calls. -/
  calls : List UInt64 := []
  scratch : Option ScratchPages := none
  /-- The receive page belongs to the normal world until it is released. -/
  rxHeld : Bool := false
  /-- Preemptions reported before each direct response. -/
  interruptsPerRequest : Nat := 0
  interruptsRemaining : Nat := 0
  /-- The response that waits behind the preemptions. -/
  pending : Option Registers := none
  deriving DecidableEq, Repr, Inhabited

namespace Manager

def offering (ffa mm : Version) : Manager := { ffaVersion := ffa.pack, mmVersion := mm.pack }

def withoutFfa (m : Manager) : Manager := { m with ffaVersion := Version.notSupported }

end Manager
end StandaloneMm
