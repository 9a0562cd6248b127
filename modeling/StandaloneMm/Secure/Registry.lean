import StandaloneMm.Journal

/-!
Handlers by recipient. The entries stand in the order of registration, with at most one for each
recipient, so that looking one up is a partial map.
-/
namespace StandaloneMm

structure Registry (η : Type) where
  entries : List (Guid × η) := []

namespace Registry

variable {η : Type}

def find? (r : Registry η) (recipient : Guid) : Option η :=
  (r.entries.find? (·.1 = recipient)).map (·.2)

def contains (r : Registry η) (recipient : Guid) : Bool := r.entries.any (·.1 = recipient)

def size (r : Registry η) : Nat := r.entries.length

def isEmpty (r : Registry η) : Bool := r.entries.isEmpty

/-- A recipient has one handler; a second one is refused and the first stays. -/
def register (r : Registry η) (recipient : Guid) (handler : η) : Except Error (Registry η) :=
  if r.contains recipient then .error .alreadyStarted
  else .ok ⟨r.entries ++ [(recipient, handler)]⟩

def unregister (r : Registry η) (recipient : Guid) : Except Error (Registry η) :=
  if r.contains recipient then .ok ⟨r.entries.eraseP (·.1 = recipient)⟩ else .error .notFound

def registerRecord {α : Type} : Except Error α → Event
  | .ok _ => .log .info .stmm
  | .error _ => .log .error .stmm

end Registry
end StandaloneMm
