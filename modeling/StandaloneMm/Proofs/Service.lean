import StandaloneMm.Proofs.BodyHandler

/-! The event loop of a partition whose handlers keep to their bodies: what it does with an event
that names its buffer, and what no event can make it do. -/
namespace StandaloneMm.EventLoop

open Journal

variable {ω : Type} {m after : Machine ω} {event : Registers} {result : Except Error Unit}

def ofBodyHandlers (abi : PartitionAbi) (base length : UInt64)
    (handlers : Registry (BodyHandler ω)) : EventLoop ω :=
  ⟨abi, .identityMapped base length, handlers.map BodyHandler.handler⟩

theorem handleEvent_of_serve (loop : EventLoop ω) (served : loop.serve event m = (result, after)) :
    loop.handleEvent event m = (completion loop.abi (statusOf result).register, after) := by
  simp only [handleEvent, served]

theorem serve_while_serving (loop : EventLoop ω) (serving : m.serving = true) :
    loop.serve event m = (.error .accessDenied, m) := by
  rw [serve, if_pos serving]

theorem serve_elsewhere (loop : EventLoop ω) (waiting : m.serving = false)
    (elsewhere : namedAddress loop.abi event ≠ loop.buffer.physicalBase) :
    loop.serve event m = (.error .accessDenied, m.log .error .stmm) := by
  rw [serve, if_neg (by simp [waiting]), if_pos elsewhere]

/-- A failed event is put on record. -/
def serveRecords : Except Error Unit → List Event
  | .ok _ => []
  | .error _ => [.log .warn .stmm]

theorem quiet_serveRecords (result : Except Error Unit) : Quiet (serveRecords result) := by
  cases result with
  | ok value => exact quiet_nil
  | error e => exact quiet_log ..

/-- An event that names the buffer is dispatched, and the partition waits again afterwards. -/
theorem serve_dispatched (loop : EventLoop ω) (waiting : m.serving = false)
    (named : namedAddress loop.abi event = loop.buffer.physicalBase)
    (dispatched : Dispatch.dispatch loop.handlers loop.buffer.span { m with serving := true } =
      (result, after)) :
    loop.serve event m = (result, { after with serving := false }.append (serveRecords result)) := by
  unfold serve
  rw [if_neg (by simp [waiting]), if_neg (by simp [named]), dispatched]
  cases result with
  | ok value => simp [serveRecords, Machine.append]
  | error e => rfl

theorem serve_named (loop : EventLoop ω) (waiting : m.serving = false)
    (named : namedAddress loop.abi event = loop.buffer.physicalBase)
    (dispatched : Dispatch.dispatch loop.handlers loop.buffer.span { m with serving := true } =
      (result, after)) :
    ∃ events, Quiet events ∧
      loop.serve event m = (result, { after with serving := false }.append events) :=
  ⟨_, quiet_serveRecords result, serve_dispatched loop waiting named dispatched⟩

theorem excursion_of_serving {made : List Registers} {entered : List (Guid × Bytes)}
    (waiting : m.serving = false) (way : Excursion { m with serving := true } after made entered) :
    Excursion m { after with serving := false } made entered :=
  ⟨way.session, waiting.symm, way.calls, way.invocations⟩

theorem serve_whole (loop : EventLoop ω) {handlers : Registry (BodyHandler ω)}
    (hosts : loop.handlers = handlers.map BodyHandler.handler) {header : MessageHeader}
    (waiting : m.serving = false) (named : namedAddress loop.abi event = loop.buffer.physicalBase)
    (read : MessageHeader.decode? (m.memory.loadSpan loop.buffer.span) = some header)
    (fits : header.total ≤ loop.buffer.length.toNat) :
    let start := loop.buffer.currentBase.toNat + MessageHeader.size
    let body := m.memory.load start (header.total - MessageHeader.size)
    let done := handlers.work header.recipient m.rest body
    ∃ after, loop.serve event m = (Dispatch.settled done.result, after) ∧
      Serviced m after start done (handlers.entered header.recipient body) := by
  intro start body done
  obtain ⟨after, dispatched, serviced⟩ := Dispatch.dispatch_message handlers loop.buffer.span
    (m := { m with serving := true }) read fits
  rw [← hosts] at dispatched
  obtain ⟨events, quiet, served⟩ := serve_named loop waiting named dispatched
  have back : Serviced m { after with serving := false } start done _ :=
    ⟨serviced.memory, serviced.rest, serviced.manager, excursion_of_serving waiting serviced.way⟩
  exact ⟨_, served, back.thenAppend quiet⟩

theorem serve_malformed (loop : EventLoop ω) (waiting : m.serving = false)
    (named : namedAddress loop.abi event = loop.buffer.physicalBase)
    (malformed : ∀ header, MessageHeader.decode? (m.memory.loadSpan loop.buffer.span) = some header →
      loop.buffer.length.toNat < header.total) :
    ∃ events, Quiet events ∧ loop.serve event m = (.error .invalidParameter, m.append events) := by
  have dispatched := Dispatch.dispatch_malformed loop.handlers loop.buffer.span
    (m := { m with serving := true }) malformed
  obtain ⟨more, quiet, served⟩ := serve_named loop waiting named dispatched
  refine ⟨Dispatch.refusal (m.memory.loadSpan loop.buffer.span) ++ more,
    quiet_append (Dispatch.quiet_refusal _) quiet, served.trans ?_⟩
  simp [Machine.append, ← waiting]

variable {abi : PartitionAbi} {base length : UInt64}

theorem serve_message (handlers : Registry (BodyHandler ω)) {header : MessageHeader}
    (waiting : m.serving = false)
    (named : namedAddress abi event = base)
    (read : MessageHeader.decode? (m.memory.load base.toNat length.toNat) = some header)
    (fits : header.total ≤ length.toNat) :
    let start := base.toNat + MessageHeader.size
    let body := m.memory.load start (header.total - MessageHeader.size)
    let done := handlers.work header.recipient m.rest body
    ∃ after, (ofBodyHandlers abi base length handlers).serve event m =
        (Dispatch.settled done.result, after) ∧
      Serviced m after start done (handlers.entered header.recipient body) :=
  serve_whole (ofBodyHandlers abi base length handlers) rfl waiting named read fits

/-- Whatever the event and the buffer hold, the partition makes no call and leaves the session and
the manager alone. -/
theorem serve_excursion (abi : PartitionAbi) (base length : UInt64) (handlers : Registry (BodyHandler ω))
    (event : Registers) (m : Machine ω) :
    ∃ result after entered, (ofBodyHandlers abi base length handlers).serve event m = (result, after) ∧
      after.manager = m.manager ∧ Excursion m after [] entered := by
  let loop := ofBodyHandlers abi base length handlers
  by_cases serving : m.serving = true
  · exact ⟨_, m, [], serve_while_serving loop serving, rfl, Excursion.refl m⟩
  have waiting : m.serving = false := by simpa using serving
  by_cases elsewhere : namedAddress abi event ≠ base
  · exact ⟨_, _, [], serve_elsewhere loop waiting elsewhere, rfl, Excursion.log ..⟩
  have named : namedAddress abi event = base := by simpa using elsewhere
  by_cases wellFormed : ∃ header,
      MessageHeader.decode? (m.memory.load base.toNat length.toNat) = some header ∧
        header.total ≤ length.toNat
  · obtain ⟨header, read, fits⟩ := wellFormed
    obtain ⟨after, served, serviced⟩ := serve_message handlers waiting named read fits
    exact ⟨_, after, _, served, serviced.manager, serviced.way⟩
  · have malformed : ∀ header,
        MessageHeader.decode? (m.memory.load base.toNat length.toNat) = some header →
          length.toNat < header.total := by
      intro header read
      by_cases fits : header.total ≤ length.toNat
      · exact absurd ⟨header, read, fits⟩ wellFormed
      · omega
    obtain ⟨events, quiet, served⟩ := serve_malformed loop waiting named malformed
    exact ⟨_, _, [], served, rfl, Excursion.append m quiet⟩

theorem handleEvent_excursion (abi : PartitionAbi) (base length : UInt64)
    (handlers : Registry (BodyHandler ω)) (event : Registers) (m : Machine ω) :
    ∃ completion after entered, (ofBodyHandlers abi base length handlers).handleEvent event m =
        (completion, after) ∧ Excursion m after [] entered := by
  obtain ⟨result, after, entered, served, _, way⟩ :=
    serve_excursion abi base length handlers event m
  exact ⟨_, after, entered, handleEvent_of_serve _ served, way⟩

end StandaloneMm.EventLoop
