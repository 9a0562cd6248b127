import StandaloneMm.Session.Channel

/-!
A channel that answers messages from a script instead of carrying them anywhere.
-/
namespace StandaloneMm.Rehearsal

structure CourierReply where
  result : Except Error Unit
  data : Bytes := []
  /-- Where in the message the data goes; by default behind the header. -/
  offset : Nat := MessageHeader.size

/-- The replies still to come; the last one is given again and again. -/
structure Courier where
  replies : List CourierReply := []

def Courier.next (c : Courier) : CourierReply × Courier :=
  match c.replies with
  | [] => ({ result := .ok () }, c)
  | [last] => (last, c)
  | reply :: rest => (reply, ⟨rest⟩)

def Courier.channel : Channel Courier := fun message capacity m =>
  let (reply, courier) := m.rest.next
  let exchange :=
    { result := reply.result.mapError .error
      message := overlayAt message reply.offset reply.data
      capacity := capacity }
  (exchange, { m with rest := courier }.record (.communicate message capacity))

end StandaloneMm.Rehearsal
