import StandaloneMm.Proofs.Confinement
import StandaloneMm.Proofs.Exchange

/-! What a successful answer makes of the caller's message. The partition may leave any bytes in the
buffer, so the size that they declare can lie on either side of the request, of the message and of
the buffer. -/
namespace StandaloneMm.Transport

open Admission Delivery

variable {ω : Type} {monitor : Monitor ω} {m after : Machine ω} {message : Bytes}
  {capacity : Option UInt64} {header : MessageHeader} {answer : Registers}

theorem communicate_of_succeeded (confined : monitor.Confined)
    (admitted : Admitted m.session.buffer.length message capacity header)
    (free : m.session.inUse = false)
    (success : succeeded m.session.route (answered monitor message capacity header.total m).1 = true) :
    let left := (answered monitor message capacity header.total m).2
    let receipt := outcome (left.memory.loadSpan m.session.buffer.span) message header.total
    communicate monitor message capacity m =
      (⟨receipt.result.mapError .error, receipt.message, capacity⟩,
        (letGo left).append receipt.records) := by
  intro left receipt
  have held : Held m.session.buffer (offered message capacity header.total m) := ⟨rfl, rfl⟩
  have buffer : left.session.buffer = m.session.buffer := (confined.callRemote _ _ held).2
  have sized := MessageHeader.size_le_total header
  have holdsHeader : MessageHeader.size ≤ left.session.buffer.length.toNat := by
    rw [buffer]
    exact Nat.le_trans sized admitted.inBuffer
  have concludes := concluded_of_succeeded success holdsHeader sized admitted.inMessage
  rw [buffer] at concludes
  rw [communicate_answered admitted free (Prod.eta _).symm, concludes]

/-- A reply is copied as far as it declares itself, if it fits the buffer and the message; of one
that fits the buffer alone the caller gets the header. The request is wiped in every case, and no
other byte of the message changes. -/
theorem communicate_reply (m : Machine ω) (message : Bytes) (capacity : Option UInt64)
    (confined : monitor.Confined) (declares : MessageHeader.decode? message = some header)
    (passes : screen m.session.buffer.length message capacity =
      .ok (MessageHeader.size + header.length.toNat))
    (free : m.session.inUse = false)
    (success : succeeded m.session.route
      (answered monitor message capacity (MessageHeader.size + header.length.toNat) m).1 = true) :
    let sent := MessageHeader.size + header.length.toNat
    let left := (answered monitor message capacity sent m).2.memory.loadSpan m.session.buffer.span
    let reply := min (MessageHeader.size + ofLittleEndian ((left.drop 16).take 8)) maxSize
    let buffer := m.session.buffer.length.toNat
    let exchange := (communicate monitor message capacity m).1
    exchange.capacity = capacity ∧
      (buffer < reply → exchange.result = .error (.error .aborted) ∧
        exchange.message = zeros sent ++ message.drop sent) ∧
      (reply ≤ buffer → message.length < reply → exchange.result = .error (.error .bufferTooSmall) ∧
        exchange.message =
          left.take MessageHeader.size ++ zeros (sent - MessageHeader.size) ++ message.drop sent) ∧
      (reply ≤ buffer → reply ≤ message.length → exchange.result = .ok () ∧
        exchange.message = left.take reply ++ zeros (sent - reply) ++ message.drop (max reply sent)) := by
  intro sent left reply buffer exchange
  obtain ⟨same, admitted, total⟩ := screen_eq_ok_iff.mp passes
  obtain rfl : same = header := Option.some.inj (admitted.read.symm.trans declares)
  rw [total] at success
  have exchanged := congrArg Prod.fst (communicate_of_succeeded confined admitted free success)
  rw [← total] at exchanged
  have received : exchange = ⟨(outcome left message sent).result.mapError .error,
    (outcome left message sent).message, capacity⟩ := exchanged
  have room : left.length = buffer := Memory.length_load ..
  have size : declared left = reply := rfl
  rw [received]
  refine ⟨rfl, fun long => ?_, fun fits overfull => ?_, fun fits whole => ?_⟩
  · rw [outcome, size, room, if_pos long]
    exact ⟨rfl, rfl⟩
  · rw [outcome, size, room, if_neg (Nat.not_lt.mpr fits), if_pos overfull]
    exact ⟨rfl, rfl⟩
  · rw [outcome, size, room, if_neg (Nat.not_lt.mpr fits), if_neg (Nat.not_lt.mpr whole)]
    exact ⟨rfl, rfl⟩

open Rehearsal in
theorem communicate_reply_of_two_bytes :
    let buffer := SharedBuffer.identityMapped 0x1000 0x40
    let lengthField : Write := ⟨.address 0x1010, [2]⟩
    let script : Script := { replies := [{ ret := {}, writes := [lengthField] }] }
    let m : Machine Script := { session := { route := .legacy, buffer := buffer }, rest := script }
    let header (length : UInt64) := MessageHeader.encode ⟨EventGroup.endOfDxe, length⟩
    let exchange := (communicate (Script.nestedMonitor 0) (header 1 ++ [7]) none m).1
    exchange.result = .error (.error .bufferTooSmall) ∧ exchange.message = header 2 ++ [0] := by
  intro buffer lengthField script m header exchange
  have declares : MessageHeader.decode? (header 1 ++ [7]) = some ⟨EventGroup.endOfDxe, 1⟩ := by
    decide +kernel
  have received := communicate_reply m (header 1 ++ [7]) none (Monitor.Confined.script 0) declares rfl rfl
    (by decide +kernel)
  obtain ⟨_, _, overfull, _⟩ := received
  obtain ⟨refused, kept⟩ := overfull (by decide +kernel) (by decide +kernel)
  exact ⟨refused, kept.trans (by decide +kernel)⟩

end StandaloneMm.Transport
