import StandaloneMm.Proofs.Service

/-! One event in a partition whose handlers keep to their bodies, from its registers to its completion:
which handler it comes to, if to any, what it is told, and which bytes can change. -/
namespace StandaloneMm

/-! Bytes read as a message, without a header of their own. -/
namespace Message

def recipient (message : Bytes) : Guid := Guid.decode (message.take 16)

def length (message : Bytes) : Nat := ofLittleEndian ((message.drop 16).take 8)

def body (message : Bytes) : Bytes := (message.drop MessageHeader.size).take (length message)

/-- Header and body, as far as a word can count them. -/
def total (message : Bytes) : Nat := min (MessageHeader.size + length message) maxSize

/-- There is a header, and behind it all that it declares. -/
def Whole (message : Bytes) : Prop := MessageHeader.size ≤ message.length ∧ total message ≤ message.length

instance (message : Bytes) : Decidable (Whole message) := inferInstanceAs (Decidable (_ ∧ _))

variable {message : Bytes} {header : MessageHeader}

theorem total_of_decode? (read : MessageHeader.decode? message = some header) :
    header.total = total message := by
  rw [MessageHeader.total, MessageHeader.length_of_decode? read, total, length]

theorem exists_header_iff :
    (∃ header, MessageHeader.decode? message = some header ∧ header.total ≤ message.length) ↔ Whole message := by
  constructor
  · rintro ⟨header, read, fits⟩
    exact ⟨MessageHeader.size_le_of_decode? read, total_of_decode? read ▸ fits⟩
  · rintro ⟨long, fits⟩
    obtain ⟨header, read⟩ := MessageHeader.decode?_isSome long
    exact ⟨header, read, total_of_decode? read ▸ fits⟩

theorem length_body_le (message : Bytes) : (body message).length ≤ length message :=
  List.length_take_le ..

/-- Where the size of a message is cut to the end of a word, so is the buffer that it lies in. -/
theorem body_load {memory : Memory} {base capacity : Nat}
    (read : MessageHeader.decode? (memory.load base capacity) = some header)
    (fits : header.total ≤ capacity) (word : capacity ≤ maxSize) :
    memory.load (base + MessageHeader.size) (header.total - MessageHeader.size) =
      body (memory.load base capacity) := by
  have declared := total_of_decode? read
  rw [body, Memory.drop_load, Memory.take_load]
  congr 1
  unfold total at declared
  omega

theorem store_body (memory : Memory) (base capacity : Nat) :
    memory.store (base + MessageHeader.size) (body (memory.load base capacity)) = memory := by
  rw [body, Memory.drop_load, Memory.take_load, Memory.store_load]

end Message

namespace Dispatch

variable {ω : Type}

theorem dispatch_whole (handlers : Registry (Handler ω)) (buffer : Span) {m : Machine ω}
    (whole : Message.Whole (m.memory.loadSpan buffer)) :
    let content := m.memory.loadSpan buffer
    dispatch handlers buffer m = match handlers.find? (Message.recipient content) with
      | none => (.error .notFound, m.log .warn .stmm)
      | some h => enter h (Message.recipient content)
          ⟨buffer.base + MessageHeader.size, Message.total content - MessageHeader.size⟩ m := by
  intro content
  obtain ⟨header, read, _⟩ := Message.exists_header_iff.mpr whole
  have inside : Message.total content ≤ buffer.length := by simpa [Memory.loadSpan, content] using whole.2
  have front := (Memory.read_front ..).trans (MessageHeader.read_of_decode? read)
  have addressed : header.recipient = Message.recipient content := MessageHeader.recipient_of_decode? read
  have declared : header.total = Message.total content := Message.total_of_decode? read
  cases found : handlers.find? (Message.recipient content) with
  | none => simp only [dispatch, front, addressed, declared, if_neg (Nat.not_lt.mpr inside), found]
  | some h => simp only [dispatch, front, addressed, declared, if_neg (Nat.not_lt.mpr inside), found]

theorem dispatch_broken (handlers : Registry (Handler ω)) (buffer : Span) {m : Machine ω}
    (broken : ¬ Message.Whole (m.memory.loadSpan buffer)) :
    dispatch handlers buffer m =
      (.error .invalidParameter, m.append (refusal (m.memory.loadSpan buffer))) := by
  refine dispatch_malformed handlers buffer fun header read => Nat.lt_of_not_le fun fits => broken ?_
  exact Message.exists_header_iff.mp ⟨header, read, by simpa [Memory.loadSpan] using fits⟩

end Dispatch

namespace EventLoop

open Journal

variable {ω : Type} {m : Machine ω} {event : Registers}

theorem serve_reached (loop : EventLoop ω) {handlers : Registry (BodyHandler ω)}
    (hosts : loop.handlers = handlers.map BodyHandler.handler)
    (waiting : m.serving = false) (named : namedAddress loop.abi event = loop.buffer.physicalBase)
    (whole : Message.Whole (m.memory.loadSpan loop.buffer.span)) :
    let content := m.memory.loadSpan loop.buffer.span
    let done := handlers.work (Message.recipient content) m.rest (Message.body content)
    ∃ after, loop.serve event m = (Dispatch.settled done.result, after) ∧
      Serviced m after (loop.buffer.currentBase.toNat + MessageHeader.size) done
        (handlers.entered (Message.recipient content) (Message.body content)) := by
  intro content done
  obtain ⟨header, read, fits⟩ := Message.exists_header_iff.mpr whole
  have inside : header.total ≤ loop.buffer.length.toNat := by simpa [Memory.loadSpan, SharedBuffer.span] using fits
  have word : loop.buffer.length.toNat ≤ maxSize := Nat.le_of_lt_succ loop.buffer.length.toNat_lt
  have body : m.memory.load (loop.buffer.currentBase.toNat + MessageHeader.size)
      (header.total - MessageHeader.size) = Message.body content := Message.body_load read inside word
  have addressed : header.recipient = Message.recipient content := MessageHeader.recipient_of_decode? read
  obtain ⟨after, served, serviced⟩ := serve_whole loop hosts waiting named read inside
  rw [addressed, body] at served serviced
  exact ⟨after, served, serviced⟩

theorem serve_broken (loop : EventLoop ω) (waiting : m.serving = false)
    (named : namedAddress loop.abi event = loop.buffer.physicalBase)
    (broken : ¬ Message.Whole (m.memory.loadSpan loop.buffer.span)) :
    ∃ events, Quiet events ∧ loop.serve event m = (.error .invalidParameter, m.append events) := by
  refine serve_malformed loop waiting named fun header read => Nat.lt_of_not_le fun fits => ?_
  exact broken (Message.exists_header_iff.mp ⟨header, read, by simpa [Memory.loadSpan, SharedBuffer.span] using fits⟩)

/-- The status of a message by the result of its handler. One that asks for more room has done its work. -/
def handledCode : Except Error Unit → Int
  | .ok _ | .error .bufferTooSmall => 0
  | .error .invalidParameter => -2
  | .error .accessDenied => -3
  | .error .outOfResources => -5
  | .error _ => -1

theorem register_settled (result : Except Error Unit) :
    (statusOf (Dispatch.settled result)).register = UInt64.ofInt (handledCode result) := by
  cases result with
  | ok value => rfl
  | error e => cases e <;> rfl

theorem toList_completion (abi : PartitionAbi) (status : UInt64) :
    (completion abi status).toList = match abi with
      | .ffa _ => [FunctionId.ffaDirectResponse, 0, 0, FunctionId.spEventComplete, status, 0, 0, 0]
      | .spm => [FunctionId.spEventComplete, status, 0, 0, 0, 0, 0, 0] := by
  cases abi <;> rfl

/-- What an event leaves behind: the work of the handler that it reached, if it reached one, on the body of
the message in the buffer, and nothing else. -/
structure Confined (buffer : SharedBuffer) (reached : Option (BodyHandler ω)) (m after : Machine ω) : Prop where
  session : after.session = m.session
  manager : after.manager = m.manager
  waiting : after.serving = false
  calls : calls after.journal = calls m.journal
  entered : invocations after.journal = invocations m.journal ++
    let content := m.memory.loadSpan buffer.span
    reached.elim [] fun _ => [(Message.recipient content, Message.body content)]
  rest : after.rest =
    reached.elim m.rest fun h => (h.work m.rest (Message.body (m.memory.loadSpan buffer.span))).rest
  body : ∀ h ∈ reached,
    let body := Message.body (m.memory.loadSpan buffer.span)
    after.memory.load (buffer.currentBase.toNat + MessageHeader.size) body.length = (h.work m.rest body).body
  outside : ∀ address,
    let start := buffer.currentBase.toNat + MessageHeader.size
    let stop := start + Message.length (m.memory.loadSpan buffer.span)
    reached = none ∨ address < start ∨ stop ≤ address → after.memory.byte address = m.memory.byte address

namespace Confined

variable {buffer : SharedBuffer}

theorem of_quiet (waiting : m.serving = false) {events : List Event} (quiet : Quiet events) :
    Confined buffer none m (m.append events) where
  session := rfl
  manager := rfl
  waiting := waiting
  calls := by simpa using (Excursion.append m quiet).calls
  entered := (Excursion.append m quiet).invocations
  rest := rfl
  body h member := absurd member (Option.not_mem_none h)
  outside _ _ := rfl

theorem of_serviced {handlers : Registry (BodyHandler ω)} {after : Machine ω} (waiting : m.serving = false) :
    let content := m.memory.loadSpan buffer.span
    let body := Message.body content
    Serviced m after (buffer.currentBase.toNat + MessageHeader.size)
        (handlers.work (Message.recipient content) m.rest body)
        (handlers.entered (Message.recipient content) body) →
      Confined buffer (handlers.find? (Message.recipient content)) m after := by
  intro content body serviced
  have way := serviced.way
  have memory := serviced.memory
  have rest := serviced.rest
  have entered := way.invocations
  have quiet : Journal.calls after.journal = Journal.calls m.journal := by simpa using way.calls
  cases found : handlers.find? (Message.recipient content) with
  | none =>
    simp only [Registry.work, Registry.entered, found] at memory rest entered
    have same : after.memory = m.memory := memory.trans (Message.store_body ..)
    exact ⟨way.session, serviced.manager, way.serving.trans waiting, quiet, entered, rest,
      fun h member => absurd member (Option.not_mem_none h),
      fun _ _ => by rw [same]⟩
  | some h =>
    simp only [Registry.work, Registry.entered, found] at memory rest entered
    have size : (h.work m.rest body).body.length = body.length := h.length ..
    refine ⟨way.session, serviced.manager, way.serving.trans waiting, quiet, entered, rest, ?_, ?_⟩
    · rintro _ ⟨⟩
      change after.memory.load _ body.length = (h.work m.rest body).body
      rw [memory, ← size, Memory.load_store]
    · rintro address start stop (nobody | outside)
      · contradiction
      have short : body.length ≤ Message.length content := Message.length_body_le content
      have beside : address < start ∨ start + (h.work m.rest body).body.length ≤ address :=
        outside.imp_right fun behind => Nat.le_trans (Nat.add_le_add_left (size ▸ short) start) behind
      rw [memory]
      exact Memory.byte_store_outside m.memory beside

end Confined

/-- An event comes to a handler if it names the buffer, the buffer holds a whole message and the recipient
of that message has one. The handler is entered once, with the body, and the bytes of the body are all that
can change; whatever else happens, no byte does. The status tells how far the event came. -/
theorem handleEvent_confined (abi : PartitionAbi) (buffer : SharedBuffer)
    (handlers : Registry (BodyHandler ω)) (event : Registers) (m : Machine ω) (waiting : m.serving = false) :
    let loop : EventLoop ω := ⟨abi, buffer, handlers.map BodyHandler.handler⟩
    let content := m.memory.loadSpan buffer.span
    let named := (match abi with | .ffa _ => event.x3 | .spm => event.x1) = buffer.physicalBase
    let reached := if named ∧ Message.Whole content then handlers.find? (Message.recipient content) else none
    let code := if ¬ named then -3 else if ¬ Message.Whole content then -2 else
      match reached with
      | none => -1
      | some h => handledCode (h.work m.rest (Message.body content)).result
    let status := UInt64.ofInt code
    ∃ completion after, loop.handleEvent event m = (completion, after) ∧
      completion.toList = (match abi with
        | .ffa _ => [FunctionId.ffaDirectResponse, 0, 0, FunctionId.spEventComplete, status, 0, 0, 0]
        | .spm => [FunctionId.spEventComplete, status, 0, 0, 0, 0, 0, 0]) ∧
      Confined buffer reached m after := by
  intro loop content named reached code status
  have answers {result : Except Error Unit} {after : Machine ω} (served : loop.serve event m = (result, after))
      (told : (statusOf result).register = status) : loop.handleEvent event m = (completion abi status, after) :=
    told ▸ handleEvent_of_serve loop served
  by_cases here : named
  case neg =>
    have nobody : reached = none := if_neg fun both => here both.1
    have told : status = UInt64.ofInt (-3) := congrArg UInt64.ofInt (if_pos here)
    have served := serve_elsewhere loop waiting here
    rw [nobody]
    exact ⟨_, _, answers served told.symm, toList_completion abi status, .of_quiet waiting (quiet_log ..)⟩
  by_cases whole : Message.Whole content
  case neg =>
    have nobody : reached = none := if_neg fun both => whole both.2
    have told : status = UInt64.ofInt (-2) :=
      congrArg UInt64.ofInt ((if_neg (not_not_intro here)).trans (if_pos whole))
    obtain ⟨events, quiet, served⟩ := serve_broken loop waiting here whole
    rw [nobody]
    exact ⟨_, _, answers served told.symm, toList_completion abi status, .of_quiet waiting quiet⟩
  case pos =>
    have come : reached = handlers.find? (Message.recipient content) := if_pos ⟨here, whole⟩
    obtain ⟨after, served, serviced⟩ := serve_reached loop rfl waiting here whole
    let done := handlers.work (Message.recipient content) m.rest (Message.body content)
    have told : (statusOf (Dispatch.settled done.result)).register = status := by
      have outcome : code = handledCode done.result := by
        simp only [code, come, done, Registry.work, not_not_intro here, not_not_intro whole, if_false]
        cases handlers.find? (Message.recipient content) <;> rfl
      rw [register_settled, ← outcome]
    rw [come]
    exact ⟨_, after, answers served told, toList_completion abi status, .of_serviced waiting serviced⟩

/-- One handler, which inverts its body and then denies the request. -/
def denying : Registry (BodyHandler Unit) :=
  ⟨[(⟨1, 2, 3, 4⟩, .ofAct fun body => (.error .accessDenied, body.map (~~~ ·)))]⟩

/-- The two bytes of the body are inverted, the third byte behind the header is not a part of it. -/
theorem handleEvent_confined_of_denying :
    let message := MessageHeader.encode ⟨⟨1, 2, 3, 4⟩, 2⟩ ++ [0x0F, 0x01, 0x55]
    let m : Machine Unit := { memory := Memory.blank.store 0x1000 message, rest := () }
    let loop : EventLoop Unit := ⟨.spm, .identityMapped 0x1000 0x40, denying.map BodyHandler.handler⟩
    m.serving = false ∧ ∃ completion after, loop.handleEvent { x1 := 0x1000 } m = (completion, after) ∧
      completion.toList = [FunctionId.spEventComplete, UInt64.ofInt (-3), 0, 0, 0, 0, 0, 0] ∧
      invocations after.journal = [(⟨1, 2, 3, 4⟩, [0x0F, 0x01])] ∧
      after.memory.load 0x1018 2 = [0xF0, 0xFE] ∧ after.memory.byte 0x101A = 0x55 := by
  intro message m loop
  obtain ⟨completion, after, handled, told, confined⟩ :=
    handleEvent_confined .spm (.identityMapped 0x1000 0x40) denying { x1 := 0x1000 } m rfl
  let content := m.memory.loadSpan (SharedBuffer.identityMapped 0x1000 0x40).span
  have recipient : Message.recipient content = ⟨1, 2, 3, 4⟩ := by decide +kernel
  have body : Message.body content = [0x0F, 0x01] := by decide +kernel
  have reached : (if (0x1000 : UInt64) = 0x1000 ∧ Message.Whole content then
      denying.find? (Message.recipient content) else none) =
        some (.ofAct fun body => (.error .accessDenied, body.map (~~~ ·))) := by
    rw [if_pos (by decide +kernel), recipient]
    rfl
  have changed : after.memory.load 0x1018 (Message.body content).length = _ := confined.body _ reached
  have kept : after.memory.byte 0x101A = _ := confined.outside 0x101A (.inr (.inr (by decide +kernel)))
  rw [body] at changed
  exact ⟨rfl, completion, after, handled, told.trans (by decide +kernel),
    confined.entered.trans (by decide +kernel), changed.trans (by decide +kernel),
    kept.trans (by decide +kernel)⟩

end EventLoop

end StandaloneMm
