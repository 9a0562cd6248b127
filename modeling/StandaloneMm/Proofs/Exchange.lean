import StandaloneMm.Proofs.Codec
import StandaloneMm.Proofs.Memory
import StandaloneMm.Session.Transport

/-! An exchange from the session's side: which messages pass the checks, and what an admitted one
does, given how the call that carries it ends. -/
namespace StandaloneMm

namespace Admission

/-- A message that passes every check. -/
structure Admitted (bufferLength : UInt64) (message : Bytes) (capacity : Option UInt64)
    (header : MessageHeader) : Prop where
  read : MessageHeader.decode? message = some header
  nonempty : header.length ≠ 0
  inBuffer : header.total ≤ bufferLength.toNat
  inMessage : header.total ≤ message.length
  inCapacity : ∀ c ∈ capacity, c ≠ 0 ∧ c ≤ bufferLength ∧ header.total ≤ c.toNat

variable {bufferLength : UInt64} {message : Bytes} {capacity : Option UInt64} {header : MessageHeader}

theorem Admitted.screen (admitted : Admitted bufferLength message capacity header) :
    screen bufferLength message capacity = .ok header.total := by
  have inRange : ¬ capacity.any (fun c => c = 0 || bufferLength < c) = true := by
    cases capacity with
    | none => simp
    | some c =>
      have room := admitted.inCapacity c rfl
      simpa using ⟨room.1, room.2.1⟩
  have large : ¬ capacity.any (·.toNat < header.total) = true := by
    cases capacity with
    | none => simp
    | some c => simpa using (admitted.inCapacity c rfl).2.2
  have fit : ¬ (header.length = 0 ∨ bufferLength.toNat < header.total) := by
    rintro (empty | tooLong)
    · exact admitted.nonempty empty
    · exact absurd admitted.inBuffer (Nat.not_le.mpr tooLong)
  simp only [Admission.screen, admitted.read, if_neg inRange, if_neg large, if_neg fit,
    if_neg (Nat.not_lt.mpr admitted.inMessage)]

theorem admitted_of_screen {total : Nat} (screened : screen bufferLength message capacity = .ok total) :
    ∃ header, Admitted bufferLength message capacity header ∧ total = header.total := by
  unfold screen at screened
  cases read : MessageHeader.decode? message with
  | none => simp [read] at screened
  | some header =>
    simp only [read] at screened
    split at screened
    · contradiction
    next inRange =>
    split at screened
    · contradiction
    next large =>
    split at screened
    · contradiction
    next fit =>
    split at screened
    · contradiction
    next whole =>
    have room : ∀ c ∈ capacity, c ≠ 0 ∧ c ≤ bufferLength ∧ header.total ≤ c.toNat := by
      rintro c ⟨⟩
      have bounds : c ≠ 0 ∧ c ≤ bufferLength := by simpa using inRange
      exact ⟨bounds.1, bounds.2, by simpa using large⟩
    refine ⟨header, ⟨read, ?_, ?_, by omega, room⟩, (Except.ok.inj screened).symm⟩
    · exact fun empty => fit (Or.inl empty)
    · exact Nat.not_lt.mp fun tooLong => fit (Or.inr tooLong)

theorem screen_eq_ok_iff {total : Nat} : screen bufferLength message capacity = .ok total ↔
    ∃ header, Admitted bufferLength message capacity header ∧ total = header.total := by
  constructor
  · exact admitted_of_screen
  · rintro ⟨header, admitted, rfl⟩
    exact admitted.screen

theorem admitted_of_fits (read : MessageHeader.decode? message = some header)
    (nonempty : 0 < header.length.toNat)
    (fits : MessageHeader.size + header.length.toNat ≤ min bufferLength.toNat message.length)
    (room : ∀ c ∈ capacity, MessageHeader.size + header.length.toNat ≤ c.toNat ∧ c ≤ bufferLength) :
    header.total = MessageHeader.size + header.length.toNat ∧
      Admitted bufferLength message capacity header := by
  have word := bufferLength.toNat_lt
  have total : header.total = MessageHeader.size + header.length.toNat := by
    simp only [MessageHeader.total, maxSize]
    omega
  refine ⟨total, read, ?_, by omega, by omega, ?_⟩
  · rintro empty
    rw [empty] at nonempty
    exact absurd nonempty (by decide)
  · intro c given
    obtain ⟨large, bounded⟩ := room c given
    refine ⟨?_, bounded, by omega⟩
    rintro rfl
    exact absurd large (by simp [MessageHeader.size])

end Admission

namespace MessageHeader

theorem size_le_total (h : MessageHeader) : size ≤ h.total := by
  simp only [total, size, maxSize]; omega

end MessageHeader

namespace Transport

open Admission Delivery

variable {ω : Type}

/-- The machine that the request of an exchange is made on. -/
def offered (message : Bytes) (capacity : Option UInt64) (total : Nat) (m : Machine ω) : Machine ω :=
  (marshal (message.take total) (hold (m.append (opening capacity)))).append
    [.log .debug .mmComm, .log .debug .mmComm]

/-- The answer that ends the call, and the machine as it leaves it. -/
def answered (monitor : Monitor ω) (message : Bytes) (capacity : Option UInt64) (total : Nat)
    (m : Machine ω) : Registers × Machine ω :=
  callRemote monitor m.session.route (request m.session.route m.session.buffer.physicalBase)
    (offered message capacity total m)

variable {monitor : Monitor ω} {message : Bytes} {capacity : Option UInt64} {header : MessageHeader}
  {m after : Machine ω} {answer : Registers}

/-- What an admitted message comes to once the call has ended. -/
def concluded (route : Route) (message : Bytes) (total : Nat) (answer : Registers) (after : Machine ω) :
    (Except Fault Unit × Bytes) × Machine ω :=
  match classify route answer with
  | .error fault => ((.error fault, message), (letGo after).append (failureRecords fault))
  | .ok _ =>
    let receipt := receive after.memory after.session.buffer message total
    ((receipt.result.mapError .error, receipt.message), (letGo after).append receipt.records)

theorem communicate_answered (admitted : Admitted m.session.buffer.length message capacity header)
    (free : m.session.inUse = false)
    (ended : answered monitor message capacity header.total m = (answer, after)) :
    communicate monitor message capacity m =
      let ((result, message), m) := concluded m.session.route message header.total answer after
      (⟨result, message, capacity⟩, m) := by
  have whole : converse monitor message header.total (m.append (opening capacity)) =
      concluded m.session.route message header.total
        (answered monitor message capacity header.total m).1
        (answered monitor message capacity header.total m).2 := rfl
  have notInUse : ¬ (m.append (opening capacity)).session.inUse = true := by
    simpa [Machine.append] using free
  rw [ended] at whole
  simp only [communicate, admitted.screen, if_neg notInUse, whole]

theorem communicate_refused {refusal : Refusal}
    (turned : screen m.session.buffer.length message capacity = .error refusal) :
    communicate monitor message capacity m =
      (refusal.exchange m.session.buffer.length message capacity, m.append (refusal.records capacity)) := by
  simp only [communicate, turned]

theorem communicate_denied {total : Nat}
    (screened : screen m.session.buffer.length message capacity = .ok total) (held : m.session.inUse = true) :
    communicate monitor message capacity m =
      (⟨.error (.error .accessDenied), message, capacity⟩,
        (m.append (opening capacity)).log .error .mmComm) := by
  have inUse : (m.append (opening capacity)).session.inUse = true := held
  simp only [communicate, screened, if_pos inUse]

theorem communicate_cases (monitor : Monitor ω) (message : Bytes) (capacity : Option UInt64) (m : Machine ω) :
    (∃ refusal, screen m.session.buffer.length message capacity = .error refusal ∧
      communicate monitor message capacity m =
        (refusal.exchange m.session.buffer.length message capacity, m.append (refusal.records capacity))) ∨
    (m.session.inUse = true ∧ (∃ total, screen m.session.buffer.length message capacity = .ok total) ∧
      communicate monitor message capacity m = (⟨.error (.error .accessDenied), message, capacity⟩,
        (m.append (opening capacity)).log .error .mmComm)) ∨
    ∃ header, m.session.inUse = false ∧ Admitted m.session.buffer.length message capacity header ∧
      communicate monitor message capacity m =
        let ended := answered monitor message capacity header.total m
        let ((result, message), m) := concluded m.session.route message header.total ended.1 ended.2
        (⟨result, message, capacity⟩, m) := by
  cases screened : screen m.session.buffer.length message capacity with
  | error refusal => exact .inl ⟨refusal, rfl, communicate_refused screened⟩
  | ok total =>
    by_cases held : m.session.inUse = true
    · exact .inr (.inl ⟨held, ⟨total, rfl⟩, communicate_denied screened held⟩)
    · obtain ⟨header, admitted, _⟩ := screen_eq_ok_iff.mp screened
      have free := Bool.eq_false_iff.mpr held
      exact .inr (.inr ⟨header, free, admitted, communicate_answered admitted free (Prod.eta _).symm⟩)

end Transport

theorem drop_wiped (message : Bytes) (total n : Nat) :
    (zeros total ++ message.drop total).drop n = zeros (total - n) ++ message.drop (max n total) := by
  rw [List.drop_append, length_zeros, List.drop_drop, zeros, List.drop_replicate, zeros]
  congr 2
  omega

namespace Delivery

/-- The size that a reply declares, by the length field in the buffer. -/
def declared (reply : Bytes) : Nat :=
  min (MessageHeader.size + ofLittleEndian ((reply.drop 16).take 8)) maxSize

/-- What the bytes in the buffer make of the caller's message. -/
def outcome (reply message : Bytes) (total : Nat) : Receipt :=
  if reply.length < declared reply then ⟨.error .aborted, zeros total ++ message.drop total⟩
  else if message.length < declared reply then
    ⟨.error .bufferTooSmall, reply.take MessageHeader.size ++ zeros (total - MessageHeader.size) ++
      message.drop total⟩
  else
    ⟨.ok (), reply.take (declared reply) ++ zeros (total - declared reply) ++
      message.drop (max (declared reply) total)⟩

theorem declared_eq_total {reply : Bytes} {h : MessageHeader}
    (read : MessageHeader.decode? reply = some h) : declared reply = h.total := by
  rw [declared, MessageHeader.total, MessageHeader.length_of_decode? read]

theorem receive_eq_outcome (memory : Memory) {buffer : SharedBuffer} {message : Bytes} {total : Nat}
    (holdsHeader : MessageHeader.size ≤ buffer.length.toNat) (header : MessageHeader.size ≤ total)
    (whole : total ≤ message.length) :
    receive memory buffer message total = outcome (memory.loadSpan buffer.span) message total := by
  let reply := memory.loadSpan buffer.span
  have room : reply.length = buffer.length.toNat := Memory.length_load ..
  have long : MessageHeader.size ≤ reply.length := by omega
  obtain ⟨h, found⟩ := MessageHeader.decode?_isSome long
  have front : MessageHeader.read (memory.load buffer.currentBase.toNat
      (min MessageHeader.size buffer.length.toNat)) = .ok h :=
    (Memory.read_front ..).trans (MessageHeader.read_of_decode? found)
  have size : declared reply = h.total := declared_eq_total found
  have wiped : overlay message (zeros total) = zeros total ++ message.drop total := by
    rw [overlay_of_length_le (by simpa using whole), length_zeros]
  simp only [receive, outcome, front, wiped]
  rw [show memory.loadSpan buffer.span = reply from rfl, size, room]
  by_cases long : buffer.length.toNat < h.total
  · rw [if_pos long, if_pos long]
  rw [if_neg long, if_neg long]
  by_cases overfull : message.length < h.total
  · rw [if_pos overfull, if_pos overfull, overlay_of_length_le (by simp; omega), MessageHeader.length_encode,
      MessageHeader.encode_of_decode? found, drop_wiped, Nat.max_eq_right header, List.append_assoc]
  · have copied : memory.load buffer.currentBase.toNat h.total = reply.take h.total := by
      have within := Memory.take_load memory buffer.currentBase.toNat buffer.length.toNat h.total
      rw [Nat.min_eq_left (Nat.not_lt.mp long)] at within
      exact within.symm
    have length : (reply.take h.total).length = h.total := by simp; omega
    rw [if_neg overfull, if_neg overfull, copied, overlay_of_length_le (by simp; omega), length, drop_wiped,
      List.append_assoc]

end Delivery

theorem Transport.concluded_of_succeeded {ω : Type} {route : Route} {answer : Registers} {after : Machine ω}
    {message : Bytes} {total : Nat} (success : Delivery.succeeded route answer = true)
    (holdsHeader : MessageHeader.size ≤ after.session.buffer.length.toNat)
    (sized : MessageHeader.size ≤ total) (whole : total ≤ message.length) :
    let receipt := Delivery.outcome (after.memory.loadSpan after.session.buffer.span) message total
    concluded route message total answer after =
      ((receipt.result.mapError .error, receipt.message), (letGo after).append receipt.records) := by
  have verdict : Delivery.classify route answer = .ok () := by rw [Delivery.classify, if_pos success]
  simp only [concluded, verdict, Delivery.receive_eq_outcome after.memory holdsHeader sized whole]

end StandaloneMm
