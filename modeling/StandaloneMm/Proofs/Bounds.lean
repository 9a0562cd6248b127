import StandaloneMm.Proofs.Exchange

/-! An exchange with a guard at every access to part of a slice. The guarded accesses fail on a range
that leaves the slice or that does not match the data, and the exchange made of them never does:
it is the exchange without guards. -/
namespace StandaloneMm

namespace Slice

/-- The bytes of a range, if the range lies in the slice. -/
def get? (slice : Bytes) (first last : Nat) : Option Bytes :=
  if first ≤ last ∧ last ≤ slice.length then some ((slice.take last).drop first) else none

def set? (slice : Bytes) (n : Nat) (data : Bytes) : Option Bytes :=
  if n ≤ slice.length ∧ data.length = n then some (data ++ slice.drop n) else none

def store? (memory : Memory) (slice : Span) (n : Nat) (data : Bytes) : Option Memory :=
  if n ≤ slice.length ∧ data.length = n then some (memory.store slice.base data) else none

variable {slice data : Bytes} {first last n : Nat}

theorem get?_eq (ordered : first ≤ last) (inside : last ≤ slice.length) :
    get? slice first last = some ((slice.take last).drop first) := if_pos ⟨ordered, inside⟩

theorem get?_front (inside : n ≤ slice.length) : get? slice 0 n = some (slice.take n) :=
  get?_eq (Nat.zero_le n) inside

theorem set?_eq_overlay (inside : n ≤ slice.length) (length : data.length = n) :
    set? slice n data = some (overlay slice data) := by
  rw [set?, if_pos ⟨inside, length⟩, overlay_of_length_le (by rw [length]; exact inside), length]

theorem store?_eq (memory : Memory) {span : Span} (inside : n ≤ span.length) (length : data.length = n) :
    store? memory span n data = some (memory.store span.base data) := if_pos ⟨inside, length⟩

end Slice

theorem MessageHeader.write_of_length_le (h : MessageHeader) {message : Bytes}
    (long : size ≤ message.length) : h.write message = .ok (overlay message h.encode) :=
  if_neg (Nat.not_lt.mpr long)

namespace Delivery

/-- Takes the reply out of the buffer under guard. -/
def receive? (memory : Memory) (buffer : SharedBuffer) (message : Bytes) (total : Nat) : Option Receipt := do
  let contents := memory.loadSpan buffer.span
  let wiped ← Slice.set? message total (zeros total)
  match MessageHeader.read contents with
  | .error e => return ⟨.error e, wiped⟩
  | .ok reply =>
    if contents.length < reply.total then return ⟨.error .aborted, wiped⟩
    else if message.length < reply.total then
      match reply.write wiped with
      | .error e => return ⟨.error e, wiped⟩
      | .ok left => return ⟨.error .bufferTooSmall, left⟩
    else
      let left ← Slice.set? wiped reply.total (← Slice.get? contents 0 reply.total)
      return ⟨.ok (), left⟩

/-- However long the reply declares itself, its range is compared with both slices before it is used. -/
theorem receive?_eq (memory : Memory) (buffer : SharedBuffer) {message : Bytes} {total : Nat}
    (sized : MessageHeader.size ≤ total) (whole : total ≤ message.length) :
    receive? memory buffer message total = some (receive memory buffer message total) := by
  let contents := memory.loadSpan buffer.span
  have room : contents.length = buffer.length.toNat := Memory.length_load ..
  have front : MessageHeader.read (memory.load buffer.currentBase.toNat
      (min MessageHeader.size buffer.length.toNat)) = MessageHeader.read contents := Memory.read_front ..
  have wiped := Slice.set?_eq_overlay whole (length_zeros total)
  rw [receive?, receive, wiped, front]
  simp only [Option.bind_eq_bind, Option.bind_some]
  rw [show memory.loadSpan buffer.span = contents from rfl, room]
  cases MessageHeader.read contents with
  | error e => rfl
  | ok reply =>
    dsimp only
    by_cases long : buffer.length.toNat < reply.total
    · rw [if_pos long, if_pos long]
      rfl
    rw [if_neg long, if_neg long]
    by_cases overfull : message.length < reply.total
    · have written : reply.write (overlay message (zeros total)) = .ok _ :=
        reply.write_of_length_le (by simp; omega)
      rw [if_pos overfull, if_pos overfull, written]
      rfl
    · have copied : contents.take reply.total = memory.load buffer.currentBase.toNat reply.total := by
        have within := Memory.take_load memory buffer.currentBase.toNat buffer.length.toNat reply.total
        rwa [Nat.min_eq_left (Nat.not_lt.mp long)] at within
      have taken : Slice.get? contents 0 reply.total = some _ := Slice.get?_front (by omega)
      rw [if_neg overfull, if_neg overfull, taken, copied, Option.bind_some,
        Slice.set?_eq_overlay (by simp; omega) (Memory.length_load ..)]
      rfl

end Delivery

namespace Transport

open Admission Delivery

variable {ω : Type}

def marshal? (message : Bytes) (total : Nat) (m : Machine ω) : Option (Machine ω) := do
  let request ← Slice.get? message 0 total
  let memory ← Slice.store? m.memory m.session.buffer.span total request
  return { m with memory := memory }

/-- The part of the body that is put on record when a request is made. -/
def preview? (message : Bytes) (total : Nat) : Option Bytes :=
  Slice.get? message MessageHeader.size (min total (MessageHeader.size + 64))

/-- What an admitted message comes to once the call has ended, with the reply taken under guard. -/
def concluded? (route : Route) (message : Bytes) (total : Nat) (answer : Registers) (after : Machine ω) :
    Option ((Except Fault Unit × Bytes) × Machine ω) := do
  match classify route answer with
  | .error fault => return ((.error fault, message), (letGo after).append (failureRecords fault))
  | .ok _ =>
    let receipt ← receive? after.memory after.session.buffer message total
    return ((receipt.result.mapError .error, receipt.message), (letGo after).append receipt.records)

def converse? (monitor : Monitor ω) (message : Bytes) (total : Nat) (m : Machine ω) :
    Option ((Except Fault Unit × Bytes) × Machine ω) := do
  let m ← marshal? message total (hold m)
  let _ ← preview? message total
  let m := m.append [.log .debug .mmComm, .log .debug .mmComm]
  let route := m.session.route
  let (answer, after) := callRemote monitor route (request route m.session.buffer.physicalBase) m
  concluded? route message total answer after

/-- An exchange that stops with no result at the first access outside a slice. -/
def communicate? (monitor : Monitor ω) (message : Bytes) (capacity : Option UInt64) (m : Machine ω) :
    Option (Exchange × Machine ω) :=
  let length := m.session.buffer.length
  match screen length message capacity with
  | .error refusal => some (refusal.exchange length message capacity, m.append (refusal.records capacity))
  | .ok total =>
    let m := m.append (opening capacity)
    if m.session.inUse then
      some (⟨.error (.error .accessDenied), message, capacity⟩, m.log .error .mmComm)
    else do
      let ((result, message), m) ← converse? monitor message total m
      return (⟨result, message, capacity⟩, m)

variable {message : Bytes} {capacity : Option UInt64} {header : MessageHeader} {m : Machine ω}

theorem marshal?_eq (admitted : Admitted m.session.buffer.length message capacity header) :
    marshal? message header.total m = some (marshal (message.take header.total) m) := by
  have inside : header.total ≤ m.session.buffer.span.length := admitted.inBuffer
  have length : (message.take header.total).length = header.total := by
    rw [List.length_take, Nat.min_eq_left admitted.inMessage]
  simp only [marshal?, Slice.get?_front admitted.inMessage, Slice.store?_eq m.memory inside length,
    Option.bind_eq_bind, Option.bind_some]
  rfl

theorem preview?_isSome {bufferLength : UInt64} (admitted : Admitted bufferLength message capacity header) :
    ∃ preview, preview? message header.total = some preview := by
  have sized := MessageHeader.size_le_total header
  have inMessage := admitted.inMessage
  exact ⟨_, Slice.get?_eq (by omega) (by omega)⟩

theorem concluded?_eq (route : Route) {message : Bytes} {total : Nat} (answer : Registers) (after : Machine ω)
    (sized : MessageHeader.size ≤ total) (whole : total ≤ message.length) :
    concluded? route message total answer after = some (concluded route message total answer after) := by
  unfold concluded? concluded
  cases classify route answer with
  | error fault => rfl
  | ok =>
    simp only [receive?_eq after.memory after.session.buffer sized whole]
    rfl

theorem converse?_eq (monitor : Monitor ω)
    (admitted : Admitted m.session.buffer.length message capacity header) :
    converse? monitor message header.total m = some (converse monitor message header.total m) := by
  have marshalled : marshal? message header.total (hold m) = some _ := marshal?_eq admitted
  obtain ⟨preview, shown⟩ := preview?_isSome admitted
  simp only [converse?, marshalled, shown, Option.bind_eq_bind, Option.bind_some]
  exact concluded?_eq _ _ _ (MessageHeader.size_le_total header) admitted.inMessage

/-- No exchange reaches outside a slice, whatever the caller declares and the partition answers. -/
theorem communicate?_eq (monitor : Monitor ω) (message : Bytes) (capacity : Option UInt64)
    (m : Machine ω) : communicate? monitor message capacity m = some (communicate monitor message capacity m) := by
  unfold communicate? communicate
  dsimp only
  cases screened : screen m.session.buffer.length message capacity with
  | error refusal => rfl
  | ok total =>
    obtain ⟨header, admitted, rfl⟩ := screen_eq_ok_iff.mp screened
    dsimp only
    split
    · rfl
    · rw [converse?_eq (m := m.append (opening capacity)) monitor admitted]
      rfl

end Transport

end StandaloneMm
