import StandaloneMm.Session.Discovery
import StandaloneMm.Session.Negotiation
import StandaloneMm.Session.Transport

/-!
The life of a session: it comes up once with a convention that never changes, follows the operating
system into its address space, and takes its scratch pages back when the boot environment ends.
-/
namespace StandaloneMm.Lifecycle

variable {ω : Type}

def establish (monitor : Monitor ω) (pages : ScratchPages) (convention : Convention)
    (m : Machine ω) : Except Error (Route × Option Directory) × Machine ω :=
  match convention with
  | .legacy => (.ok (.legacy, none), m)
  | .partitionAddressed =>
    match Discovery.discover monitor pages Discovery.serviceGuid m with
    | (.ok directory, m) =>
      (.ok (.direct directory.localId directory.remote, some directory), m)
    | (.error e, m) => (.error e, m)

/-- Brings a session up, or leaves none. Without a buffer no call is made. -/
def bringUp (monitor : Monitor ω) (pages : ScratchPages) (configuration : Configuration)
    (m : Machine ω) : Except Error Unit × Machine ω :=
  let m := m.append [.log .info .mmComm, .log .trace .mmComm]
  match configuration.buffer with
  | none => (.error .invalidParameter, m.log .error .mmComm)
  | some buffer =>
    match Negotiation.negotiate monitor configuration.convention m with
    | (.error e, m) => (.error e, m)
    | (.ok convention, m) =>
      match establish monitor pages convention m with
      | (.error e, m) => (.error e, m)
      | (.ok (route, directory), m) =>
        let session := { route := route, buffer := buffer, directory := directory }
        (.ok (), { m with session := session }.log .info .mmComm)

/-- Follows a change of the address space, unless an exchange holds the buffer. -/
def remapBuffer (convert : Converter) (m : Machine ω) : Machine ω :=
  if m.session.inUse then m.log .error .mmComm
  else
    let (buffer, events) := m.session.buffer.remap convert
    { m with session := { m.session with buffer := buffer } }.append events

/-- Takes the scratch pages back; a session without them has nothing to do. -/
def exitBootServices (monitor : Monitor ω) (m : Machine ω) : Machine ω :=
  match m.session.directory with
  | none => m
  | some directory =>
    let taken := { directory with pages := none }
    let m := { m with session := { m.session with directory := some taken } }.log .info .mmComm
    (Discovery.release monitor directory m).2

end StandaloneMm.Lifecycle
