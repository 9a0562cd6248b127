import StandaloneMm.ErrorSource.Collection
import StandaloneMm.Session.Lifecycle

/-!
Everything that can be done with a session that is up, as data: a run is a list of operations, and
the same operations can be run from inside a call.
-/
namespace StandaloneMm

inductive Errand where
  | signal (group : Guid)
  | collect
  | append (table : ErrorSource.Table)

def Errand.run {ω : Type} (channel : Channel ω) (errand : Errand) (m : Machine ω) :
    Answer × Machine ω :=
  match errand with
  | signal group =>
    let (result, m) := EventGroup.signal channel group m
    (.finished result, m)
  | collect =>
    let (result, m) := ErrorSource.collect channel m
    (.collected result, m)
  | append table =>
    let (result, m) := ErrorSource.append channel table m
    (.finished result, m)

inductive Operation where
  | communicate (message : Bytes) (capacity : Option UInt64)
  | errand (e : Errand)
  | remap (convert : Converter)
  | exitBootServices
  | read (span : Span)
  | write (base : Nat) (data : Bytes)
  | snapshot
  | describe

namespace Operation

variable {ω : Type}

def perform (monitor : Monitor ω) (operation : Operation) (m : Machine ω) :
    Answer × Machine ω :=
  match operation with
  | communicate message capacity =>
    let (exchange, m) := Transport.communicate monitor message capacity m
    (.exchanged exchange, m)
  | errand e => e.run (Transport.communicate monitor) m
  | remap convert => (.finished (.ok ()), Lifecycle.remapBuffer convert m)
  | exitBootServices =>
    let m := Lifecycle.exitBootServices monitor m
    (.mapped m.session.mapped, m)
  | read span => (.bytes (m.memory.loadSpan span), m)
  | write base data => (.finished (.ok ()), { m with memory := m.memory.store base data })
  | snapshot => (.snapshot m.session.snapshot, m)
  | describe => (.text (m.session.text m.memory), m)

/-- Runs operations one after the other, each on a journal of its own. -/
def performAll (monitor : Monitor ω) : List Operation → Machine ω →
    List (Answer × List Event) × Machine ω
  | [], m => ([], m)
  | operation :: rest, m =>
    let (entry, m) := m.observe (operation.perform monitor)
    let (entries, m) := performAll monitor rest m
    (entry :: entries, m)

end Operation
end StandaloneMm
