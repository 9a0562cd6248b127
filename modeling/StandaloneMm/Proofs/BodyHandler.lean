import StandaloneMm.Proofs.Codec
import StandaloneMm.Proofs.Excursion
import StandaloneMm.Proofs.Memory
import StandaloneMm.Secure.EventLoop

/-! Handlers that keep to their message body, and what a partition of such handlers does with an
event: the message in the buffer is answered in place, and nothing else in memory changes. -/
namespace StandaloneMm

open Journal

variable {ω η θ : Type}

structure Work (ω : Type) where
  result : Except Error Unit
  body : Bytes
  rest : ω
  events : List Event

/-- A handler that reads and rewrites the body it is given and no other memory. It may keep a state
of its own and record what it does, but it neither makes calls nor enters handlers. -/
structure BodyHandler (ω : Type) where
  work : ω → Bytes → Work ω
  length : ∀ own body, (work own body).body.length = body.length
  quiet : ∀ own body, Quiet (work own body).events

namespace BodyHandler

def handler (h : BodyHandler ω) : Handler ω := fun span m =>
  let done := h.work m.rest (m.memory.loadSpan span)
  (done.result, { m with memory := m.memory.store span.base done.body, rest := done.rest }.append done.events)

/-- Any function of the body alone is one, cut or filled up to the body's length. -/
def ofAct (act : Bytes → Except Error Unit × Bytes) : BodyHandler ω where
  work own body := ⟨(act body).1, overlay body (act body).2, own, []⟩
  length _ _ := length_overlay _ _
  quiet _ _ := quiet_nil

end BodyHandler

namespace Registry

def map (f : η → θ) (r : Registry η) : Registry θ := ⟨r.entries.map fun e => (e.1, f e.2)⟩

theorem find?_map (f : η → θ) (r : Registry η) (recipient : Guid) :
    (r.map f).find? recipient = (r.find? recipient).map f := by
  simp only [find?, map, List.find?_map, Option.map_map]
  rfl

/-- What becomes of a body that is addressed to a recipient: without a handler it stays as it is. -/
def work (handlers : Registry (BodyHandler ω)) (recipient : Guid) (own : ω) (body : Bytes) : Work ω :=
  match handlers.find? recipient with
  | none => ⟨.error .notFound, body, own, []⟩
  | some h => h.work own body

/-- The handlers that a body for this recipient enters: the recipient's own or none. -/
def entered (handlers : Registry (BodyHandler ω)) (recipient : Guid) (body : Bytes) :
    List (Guid × Bytes) :=
  match handlers.find? recipient with
  | none => []
  | some _ => [(recipient, body)]

@[simp] theorem length_work (handlers : Registry (BodyHandler ω)) (recipient : Guid) (own : ω)
    (body : Bytes) : (handlers.work recipient own body).body.length = body.length := by
  unfold work
  split
  · rfl
  next h _ => exact h.length own body

end Registry

namespace Dispatch

/-- The result of a dispatch by the result of its handler. -/
def settled : Except Error Unit → Except Error Unit
  | .error .bufferTooSmall => .ok ()
  | result => result

theorem settled_of_ne {result : Except Error Unit} (large : result ≠ .error .bufferTooSmall) :
    settled result = result := by
  unfold settled
  split
  · contradiction
  · rfl

theorem settle_of_ne {result : Except Error Unit} (large : result ≠ .error .bufferTooSmall) (m : Machine ω) :
    settle (result, m) = (result, m) := by
  unfold settle
  split
  next h => exact absurd (Prod.mk.inj h).1 large
  next h => exact h.symm

/-- What settling adds to the records. -/
def settleRecords : Except Error Unit → List Event
  | .error .bufferTooSmall => [.log .debug .stmm]
  | _ => []

theorem settle_records (result : Except Error Unit) (m : Machine ω) :
    settle (result, m) = (settled result, m.append (settleRecords result)) := by
  by_cases small : result = .error .bufferTooSmall
  · subst small
    rfl
  · have silent : settleRecords result = [] := by
      unfold settleRecords
      split
      · contradiction
      · rfl
    have unchanged : m.append [] = m := by simp [Machine.append]
    rw [settled_of_ne small, silent, unchanged, settle_of_ne small]

theorem quiet_settleRecords (result : Except Error Unit) : Quiet (settleRecords result) := by
  unfold settleRecords
  split
  · exact quiet_log ..
  · exact quiet_nil

theorem settle_eq (result : Except Error Unit) (m : Machine ω) :
    ∃ events, Quiet events ∧ settle (result, m) = (settled result, m.append events) :=
  ⟨_, quiet_settleRecords result, settle_records result m⟩

end Dispatch

/-- A stretch of a run in which the partition does this work on the body at an address. -/
structure Serviced (m after : Machine ω) (base : Nat) (done : Work ω) (entered : List (Guid × Bytes)) :
    Prop where
  memory : after.memory = m.memory.store base done.body
  rest : after.rest = done.rest
  manager : after.manager = m.manager
  way : Excursion m after [] entered

theorem Serviced.thenAppend {m after : Machine ω} {base : Nat} {done : Work ω}
    {entered : List (Guid × Bytes)} (serviced : Serviced m after base done entered)
    {events : List Event} (quiet : Quiet events) : Serviced m (after.append events) base done entered :=
  ⟨serviced.memory, serviced.rest, serviced.manager, serviced.way.thenAppend quiet⟩

namespace Dispatch

theorem enter_body (h : BodyHandler ω) (recipient : Guid) (body : Span) (m : Machine ω) :
    let data := m.memory.loadSpan body
    ∃ after, enter h.handler recipient body m = (settled (h.work m.rest data).result, after) ∧
      Serviced m after body.base (h.work m.rest data) [(recipient, data)] := by
  intro data
  let done := h.work m.rest data
  let started := m.append [.log .debug .stmm, .handler recipient data]
  let worked : Machine ω :=
    { started with memory := m.memory.store body.base done.body, rest := done.rest }.append done.events
  obtain ⟨events, quiet, settles⟩ := settle_eq done.result worked
  have start : Excursion m started [] [(recipient, data)] :=
    ⟨rfl, rfl, by simp [started, Machine.append]; rfl, by simp [started, Machine.append]; rfl⟩
  have write : Excursion started worked [] [] :=
    ⟨rfl, rfl, by simp [worked, Machine.append, (h.quiet m.rest data).1, done],
      by simp [worked, Machine.append, (h.quiet m.rest data).2, done]⟩
  exact ⟨worked.append events, settles, rfl, rfl, rfl, (start.trans write).thenAppend quiet⟩

theorem dispatch_message (handlers : Registry (BodyHandler ω)) (buffer : Span) {m : Machine ω}
    {header : MessageHeader} (read : MessageHeader.decode? (m.memory.loadSpan buffer) = some header)
    (fits : header.total ≤ buffer.length) :
    let base := buffer.base + MessageHeader.size
    let body := m.memory.load base (header.total - MessageHeader.size)
    let done := handlers.work header.recipient m.rest body
    ∃ after, dispatch (handlers.map BodyHandler.handler) buffer m = (settled done.result, after) ∧
      Serviced m after base done (handlers.entered header.recipient body) := by
  intro base body
  have front := (Memory.read_front ..).trans (MessageHeader.read_of_decode? read)
  simp only [dispatch, front, if_neg (Nat.not_lt.mpr fits), Registry.find?_map, Registry.work,
    Registry.entered]
  cases handlers.find? header.recipient with
  | none =>
    refine ⟨m.log .warn .stmm, rfl, ?_, rfl, rfl, Excursion.log ..⟩
    exact (Memory.store_load m.memory base _).symm
  | some h => exact enter_body h header.recipient ⟨base, header.total - MessageHeader.size⟩ m

/-- Of what is no message, something with a header is put on record. -/
def refusal (content : Bytes) : List Event :=
  if content.length < MessageHeader.size then [] else [.log .error .stmm]

theorem quiet_refusal (content : Bytes) : Quiet (refusal content) := by
  unfold refusal
  split
  · exact quiet_nil
  · exact quiet_log ..

theorem dispatch_malformed (handlers : Registry (Handler ω)) (buffer : Span) {m : Machine ω}
    (malformed : ∀ header, MessageHeader.decode? (m.memory.loadSpan buffer) = some header →
      buffer.length < header.total) :
    dispatch handlers buffer m =
      (.error .invalidParameter, m.append (refusal (m.memory.loadSpan buffer))) := by
  cases read : MessageHeader.decode? (m.memory.loadSpan buffer) with
  | none =>
    have headless : (m.memory.loadSpan buffer).length < MessageHeader.size := by
      refine Nat.lt_of_not_le fun long => ?_
      obtain ⟨header, found⟩ := MessageHeader.decode?_isSome long
      rw [read] at found
      contradiction
    have front := (Memory.read_front ..).trans (MessageHeader.read_of_headless read)
    rw [refusal, if_pos headless]
    simp [dispatch, front, Machine.append]
  | some header =>
    have long := MessageHeader.size_le_of_decode? read
    have front := (Memory.read_front ..).trans (MessageHeader.read_of_decode? read)
    rw [refusal, if_neg (Nat.not_lt.mpr long)]
    simp only [dispatch, front, if_pos (malformed header read)]
    rfl

end Dispatch

end StandaloneMm
