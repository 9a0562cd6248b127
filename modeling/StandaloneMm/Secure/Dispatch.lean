import StandaloneMm.Machine
import StandaloneMm.Secure.Registry

/-!
Handing a message to its handler. The message is checked against the buffer it lies in, and the
handler is given the body alone, which is both its request and the room for its reply.
-/
namespace StandaloneMm

/-- Works on a message body in place. -/
abbrev Handler (ω : Type) := Span → Machine ω → Except Error Unit × Machine ω

namespace Handler

variable {ω : Type}

/-- A handler that only reads and rewrites the body it is given. -/
def onBody (act : Bytes → Except Error Unit × Bytes) : Handler ω := fun span m =>
  let body := m.memory.loadSpan span
  let (result, left) := act body
  (result, { m with memory := m.memory.store span.base (overlay body left) })

end Handler

namespace Dispatch

variable {ω : Type}

/-- A handler that asks for more room has left the size it needs in its reply, so its message
counts as handled. -/
def settle (outcome : Except Error Unit × Machine ω) : Except Error Unit × Machine ω :=
  match outcome with
  | (.error .bufferTooSmall, m) => (.ok (), m.log .debug .stmm)
  | (result, m) => (result, m)

/-- Enters the handler of a message with the body that the header declares. -/
def enter (handler : Handler ω) (recipient : Guid) (body : Span) (m : Machine ω) :
    Except Error Unit × Machine ω :=
  let m := m.append [.log .debug .stmm, .handler recipient (m.memory.loadSpan body)]
  settle (handler body m)

def dispatch (handlers : Registry (Handler ω)) (buffer : Span) (m : Machine ω) :
    Except Error Unit × Machine ω :=
  match MessageHeader.read (m.memory.load buffer.base (min MessageHeader.size buffer.length)) with
  | .error e => (.error e, m)
  | .ok header =>
    if buffer.length < header.total then (.error .invalidParameter, m.log .error .stmm)
    else match handlers.find? header.recipient with
    | none => (.error .notFound, m.log .warn .stmm)
    | some handler =>
      let body := ⟨buffer.base + MessageHeader.size, header.total - MessageHeader.size⟩
      enter handler header.recipient body m

end Dispatch
end StandaloneMm
