import StandaloneMm.Proofs.Exchange
import StandaloneMm.Proofs.Link

/-! Messages between a session and a partition of body handlers over the same buffer: what the
recipient makes of the body is what the caller finds in its place. -/
namespace StandaloneMm

open Journal

variable {ω : Type}

/-- A message that lies at the start of a buffer, and its parts as either world finds them. -/
structure InPlace (memory : Memory) (base length : Nat) (header : MessageHeader) (body : Bytes) : Prop where
  whole : header.total = MessageHeader.size + body.length
  fits : header.total ≤ length
  stored : memory.load base header.total = header.encode ++ body

namespace InPlace

variable {memory : Memory} {base length : Nat} {header : MessageHeader} {body : Bytes}

theorem of_store (memory : Memory) (base : Nat) (whole : header.total = MessageHeader.size + body.length)
    (fits : header.total ≤ length) :
    InPlace (memory.store base (header.encode ++ body)) base length header body where
  whole := whole
  fits := fits
  stored := by
    rw [show header.total = (header.encode ++ body).length by simp [whole], Memory.load_store]

theorem contents (inPlace : InPlace memory base length header body) : memory.load base length =
    header.encode ++ body ++ memory.load (base + header.total) (length - header.total) := by
  rw [← inPlace.stored, ← Memory.load_add, Nat.add_sub_cancel' inPlace.fits]

theorem header_read (inPlace : InPlace memory base length header body) :
    MessageHeader.decode? (memory.load base length) = some header := by
  rw [inPlace.contents, List.append_assoc, MessageHeader.decode?_encode_append]

theorem front (inPlace : InPlace memory base length header body) :
    memory.load base MessageHeader.size = header.encode := by
  have sized := inPlace.stored
  rw [inPlace.whole, Memory.load_add] at sized
  exact (List.append_inj sized (by simp)).1

theorem body_read (inPlace : InPlace memory base length header body) :
    memory.load (base + MessageHeader.size) (header.total - MessageHeader.size) = body := by
  have sized := inPlace.stored
  rw [inPlace.whole, Memory.load_add] at sized
  rw [inPlace.whole, Nat.add_sub_cancel_left]
  exact (List.append_inj sized (by simp)).2

theorem rewrite (inPlace : InPlace memory base length header body) {left : Bytes}
    (same : left.length = body.length) :
    InPlace (memory.store (base + MessageHeader.size) left) base length header left where
  whole := by rw [same, inPlace.whole]
  fits := inPlace.fits
  stored := by
    have inside : MessageHeader.size + left.length ≤ header.total :=
      Nat.le_of_eq (by rw [same, inPlace.whole])
    rw [Memory.load_store_inside memory inside, inPlace.front, inPlace.whole, same, Nat.sub_self]
    simp [Memory.load]

theorem outcome_eq (inPlace : InPlace memory base length header body) {message : Bytes}
    (inMessage : header.total ≤ message.length) :
    Delivery.outcome (memory.load base length) message header.total =
      ⟨.ok (), header.encode ++ body ++ message.drop header.total⟩ := by
  have declared := Delivery.declared_eq_total inPlace.header_read
  have inBuffer : ¬ (memory.load base length).length < header.total := by
    simpa using inPlace.fits
  have copied : (memory.load base length).take header.total = header.encode ++ body := by
    rw [Memory.take_load, Nat.min_eq_left inPlace.fits, inPlace.stored]
  rw [Delivery.outcome, declared, if_neg inBuffer, if_neg (Nat.not_lt.mpr inMessage), copied, Nat.sub_self,
    Nat.max_self]
  simp [zeros]

end InPlace

namespace Transport

open Admission Delivery EventLoop Manager

variable {base length : UInt64} {message : Bytes} {capacity : Option UInt64} {header : MessageHeader}
  {m after : Machine ω}

/-- The body that a message carries to its recipient. -/
def sentBody (header : MessageHeader) (message : Bytes) : Bytes :=
  (message.drop MessageHeader.size).take (header.total - MessageHeader.size)

theorem take_total (admitted : Admitted length message capacity header) :
    message.take header.total = header.encode ++ sentBody header message := by
  have sized := MessageHeader.size_le_total header
  rw [MessageHeader.encode_of_decode? admitted.read, sentBody, ← List.take_add, Nat.add_sub_cancel' sized]

theorem offered_in_place (capacity : Option UInt64) (placed : m.session.buffer = .identityMapped base length)
    (admitted : Admitted length message capacity header) :
    InPlace (offered message capacity header.total m).memory base.toNat length.toNat header
      (sentBody header message) := by
  have sized := MessageHeader.size_le_total header
  have whole : header.total = MessageHeader.size + (sentBody header message).length := by
    have inMessage := admitted.inMessage
    simp only [sentBody, List.length_take, List.length_drop]
    omega
  have stored := InPlace.of_store m.memory base.toNat whole admitted.inBuffer
  rw [← take_total admitted] at stored
  have lies : (hold (m.append (opening capacity))).session.buffer.currentBase = base := by
    change m.session.buffer.currentBase = base
    rw [placed]
    rfl
  change InPlace (m.memory.store _ _) _ _ _ _
  rw [lies]
  exact stored

theorem excursion_of_offered {total : Nat} {made : List Registers} {entered : List (Guid × Bytes)}
    (free : m.session.inUse = false) (way : Excursion (offered message capacity total m) after made entered)
    {events : List Event} (quiet : Quiet events) : Excursion m ((letGo after).append events) made entered := by
  obtain ⟨notes, noted, journal⟩ := journal_offered message capacity total m
  have opens : Quiet notes := noted.quiet
  have released : Excursion m (letGo after) made entered := by
    refine ⟨?_, way.serving, ?_, ?_⟩
    · have held : after.session = { m.session with inUse := true } := way.session
      simp only [letGo, held, ← free]
    · rw [show (letGo after).journal = after.journal from rfl, way.calls, journal, calls_append, opens.1,
        List.append_nil]
    · rw [show (letGo after).journal = after.journal from rfl, way.invocations, journal, invocations_append,
        opens.2, List.append_nil]
  exact released.thenAppend quiet

theorem concluded_in_place {route : Route} {answer : Registers} {body : Bytes}
    (success : succeeded route answer = true) (placed : after.session.buffer = .identityMapped base length)
    (inPlace : InPlace after.memory base.toNat length.toNat header body)
    (inMessage : header.total ≤ message.length) : ∃ events, Quiet events ∧
      concluded route message header.total answer after =
        ((.ok (), header.encode ++ body ++ message.drop header.total), (letGo after).append events) := by
  have sized := MessageHeader.size_le_total header
  have holdsHeader : MessageHeader.size ≤ after.session.buffer.length.toNat := by
    rw [placed]
    exact Nat.le_trans sized inPlace.fits
  have received : outcome (after.memory.loadSpan after.session.buffer.span) message header.total =
      ⟨.ok (), header.encode ++ body ++ message.drop header.total⟩ := by
    rw [placed]
    exact inPlace.outcome_eq inMessage
  have concludes := concluded_of_succeeded success holdsHeader sized inMessage
  rw [received] at concludes
  exact ⟨_, (Receipt.notes_records _).quiet, concludes⟩

theorem concluded_of_failed {route : Route} {answer : Registers} {fault : Fault} (total : Nat)
    (failed : classify route answer = .error fault) (after : Machine ω) : ∃ events, Quiet events ∧
      concluded route message total answer after = ((.error fault, message), (letGo after).append events) := by
  refine ⟨_, (notes_failureRecords fault).quiet, ?_⟩
  simp only [concluded, failed]

variable (handlers : Registry (BodyHandler ω))

theorem communicate_in_place {monitor : Monitor ω} {route : Route} {answer : Registers} {body : Bytes}
    {made : List Registers} {entered : List (Guid × Bytes)} (free : m.session.inUse = false)
    (placed : m.session.buffer = .identityMapped base length) (routed : m.session.route = route)
    (admitted : Admitted length message capacity header) (same : body.length = (sentBody header message).length)
    (called : callRemote monitor route (request route base) (offered message capacity header.total m) =
      (answer, after))
    (memory : after.memory = (offered message capacity header.total m).memory.store
      (base.toNat + MessageHeader.size) body)
    (way : Excursion (offered message capacity header.total m) after made entered) :
    let message' := match classify route answer with
      | .ok _ => header.encode ++ body ++ message.drop header.total
      | .error _ => message
    ∃ final,
      communicate monitor message capacity m = (⟨classify route answer, message', capacity⟩, final) ∧
      final.rest = after.rest ∧ Excursion m final made entered := by
  have inPlace := (offered_in_place capacity placed admitted).rewrite same
  have ended : answered monitor message capacity header.total m = (answer, after) := by
    rw [answered, routed, placed]
    exact called
  have admitted' : Admitted m.session.buffer.length message capacity header := by
    rw [placed]
    exact admitted
  have exchanged := communicate_answered admitted' free ended
  rw [← memory] at inPlace
  have kept : after.session.buffer = .identityMapped base length := by rw [way.session]; exact placed
  cases verdict : classify route answer with
  | ok value =>
    have success : succeeded route answer = true := by
      by_cases success : succeeded route answer = true
      · exact success
      · rw [classify, if_neg success] at verdict
        cases verdict
    obtain ⟨events, quiet, concludes⟩ := concluded_in_place success kept inPlace admitted.inMessage
    rw [routed, concludes] at exchanged
    exact ⟨_, exchanged, rfl, excursion_of_offered free way quiet⟩
  | error fault =>
    obtain ⟨events, quiet, concludes⟩ := concluded_of_failed header.total verdict after
    rw [routed, concludes] at exchanged
    exact ⟨_, exchanged, rfl, excursion_of_offered free way quiet⟩

/-- Over direct messages the caller learns nothing of the handler's result, and gets the body back
whatever it was. -/
theorem communicate_direct (only : Bool) (waiting : m.serving = false) (free : m.session.inUse = false)
    (placed : m.session.buffer = .identityMapped base length)
    (direct : m.session.route = .direct normalWorldId hosted)
    (admitted : Admitted length message capacity header) :
    let done := handlers.work header.recipient m.rest (sentBody header message)
    ∃ after, communicate (monitor (ofBodyHandlers (.ffa only) base length handlers)) message capacity m =
        (⟨.ok (), header.encode ++ done.body ++ message.drop header.total, capacity⟩, after) ∧
      after.rest = done.rest ∧
      Excursion m after (request (.direct normalWorldId hosted) base ::
          List.replicate m.manager.interruptsPerRequest (resumeRequest hosted))
        (handlers.entered header.recipient (sentBody header message)) := by
  intro done
  have inPlace := offered_in_place capacity placed admitted
  obtain ⟨after, called, memory, rest, way⟩ := callRemote_direct handlers only
    (m := offered message capacity header.total m) waiting inPlace.header_read inPlace.fits
  rw [inPlace.body_read] at called memory rest way
  obtain ⟨final, exchanged, last, whole⟩ := communicate_in_place free placed direct admitted
    (Registry.length_work ..) called memory way
  exact ⟨final, exchanged, last.trans rest, whole⟩

/-- What the caller of the older interface learns of a dispatch: some errors by name, the rest under
one name, and of a partition out of memory nothing that it could act on. -/
def reported : Except Error Unit → Except Fault Unit
  | .ok _ | .error .bufferTooSmall => .ok ()
  | .error .invalidParameter => .error (.error .invalidParameter)
  | .error .accessDenied => .error (.error .accessDenied)
  | .error .outOfResources => .error (.assertion .outOfMemory)
  | .error _ => .error (.error .unsupported)

/-- The status that one world writes is read as the same verdict in the other. -/
theorem classify_legacy (result : Except Error Unit) :
    classify .legacy { x0 := (statusOf (Dispatch.settled result)).register } = reported result := by
  cases result with
  | ok value => rfl
  | error e => cases e <;> rfl

theorem communicate_legacy (waiting : m.serving = false) (free : m.session.inUse = false)
    (placed : m.session.buffer = .identityMapped base length) (legacy : m.session.route = .legacy)
    (admitted : Admitted length message capacity header) :
    let done := handlers.work header.recipient m.rest (sentBody header message)
    let message' := match reported done.result with
      | .ok _ => header.encode ++ done.body ++ message.drop header.total
      | .error _ => message
    ∃ after, communicate (monitor (ofBodyHandlers .spm base length handlers)) message capacity m =
        (⟨reported done.result, message', capacity⟩, after) ∧ after.rest = done.rest ∧
      Excursion m after [request .legacy base]
        (handlers.entered header.recipient (sentBody header message)) := by
  intro done
  have inPlace := offered_in_place capacity placed admitted
  obtain ⟨after, called, memory, rest, way⟩ := callRemote_legacy handlers
    (m := offered message capacity header.total m) waiting inPlace.header_read inPlace.fits
  rw [inPlace.body_read] at called memory rest way
  obtain ⟨final, exchanged, last, whole⟩ := communicate_in_place free placed legacy admitted
    (Registry.length_work ..) called memory way
  rw [classify_legacy] at exchanged
  exact ⟨final, exchanged, last.trans rest, whole⟩

/-- The verdict that a caller gets from a partition of this interface. -/
def verdict : PartitionAbi → Except Error Unit → Except Fault Unit
  | .ffa _, _ => .ok ()
  | .spm, result => reported result

theorem communicate_hosted {abi : PartitionAbi} (linked : Linked (.identityMapped base length) m)
    (unmoved : m.session.buffer.mode = .physical) (speaks : abi = .spm ↔ m.session.route = .legacy)
    (admitted : Admitted length message capacity header) :
    let done := handlers.work header.recipient m.rest (sentBody header message)
    let message' := match verdict abi done.result with
      | .ok _ => header.encode ++ done.body ++ message.drop header.total
      | .error _ => message
    ∃ after made, communicate (monitor (ofBodyHandlers abi base length handlers)) message capacity m =
        (⟨verdict abi done.result, message', capacity⟩, after) ∧
      Excursion m after made (handlers.entered header.recipient (sentBody header message)) := by
  intro done
  have placed := linked.buffer unmoved
  cases abi with
  | ffa only =>
    have route := linked.route.resolve_left fun legacy => nomatch speaks.mpr legacy
    obtain ⟨after, exchanged, _, way⟩ :=
      communicate_direct handlers only linked.waiting linked.free placed route admitted
    exact ⟨after, _, exchanged, way⟩
  | spm =>
    obtain ⟨after, exchanged, _, way⟩ :=
      communicate_legacy handlers linked.waiting linked.free placed (speaks.mp rfl) admitted
    exact ⟨after, _, exchanged, way⟩

theorem sentBody_eq (total : header.total = MessageHeader.size + header.length.toNat) (message : Bytes) :
    sentBody header message = (message.drop MessageHeader.size).take header.length.toNat := by
  rw [sentBody, total, Nat.add_sub_cancel_left]

theorem unchanged (admitted : Admitted length message capacity header) :
    header.encode ++ sentBody header message ++ message.drop header.total = message := by
  rw [← take_total admitted, List.take_append_drop]

/-- A round trip of direct messages. However often the partition is preempted, the recipient's
handler runs once on the body that was sent, and the body comes back as that run left it: its result
stays in the partition. -/
theorem direct_round_trip (only : Bool) (base length : UInt64) (message : Bytes)
    (capacity : Option UInt64)
    (reached : Reached (ofBodyHandlers (.ffa only) base length handlers) (.identityMapped base length) m)
    (direct : m.session.route ≠ .legacy) (unmoved : m.session.buffer.mode = .physical)
    (declares : MessageHeader.decode? message = some header) (nonempty : 0 < header.length.toNat)
    (fits : MessageHeader.size + header.length.toNat ≤ min length.toNat message.length)
    (room : ∀ c ∈ capacity, MessageHeader.size + header.length.toNat ≤ c.toNat ∧ c ≤ length) :
    let sent := MessageHeader.size + header.length.toNat
    let body := (message.drop MessageHeader.size).take header.length.toNat
    ∃ exchange after,
      communicate (monitor (ofBodyHandlers (.ffa only) base length handlers)) message capacity m =
        (exchange, after) ∧
      exchange.result = .ok () ∧ exchange.capacity = capacity ∧
      after.session = m.session ∧ after.serving = false ∧
      calls after.journal = calls m.journal ++ request m.session.route base ::
        List.replicate m.manager.interruptsPerRequest (resumeRequest hosted) ∧
      match handlers.find? header.recipient with
      | some h => invocations after.journal = invocations m.journal ++ [(header.recipient, body)] ∧
          after.rest = (h.work m.rest body).rest ∧
          exchange.message = message.take MessageHeader.size ++ (h.work m.rest body).body ++ message.drop sent
      | none => invocations after.journal = invocations m.journal ∧ after.rest = m.rest ∧
          exchange.message = message := by
  intro sent body
  have linked := reached.linked
  have route : m.session.route = .direct normalWorldId hosted := linked.route.resolve_left direct
  obtain ⟨total, admitted⟩ := admitted_of_fits declares nonempty fits room
  obtain ⟨after, exchanged, rest, way⟩ := communicate_direct handlers only linked.waiting linked.free
    (linked.buffer unmoved) route admitted
  have whole := unchanged admitted
  rw [sentBody_eq total] at exchanged rest way whole
  refine ⟨_, after, exchanged, rfl, rfl, way.session, way.serving.trans linked.waiting, ?_, ?_⟩
  · rw [way.calls, route]
  · have entries := way.invocations
    rw [total] at whole ⊢
    rw [← MessageHeader.encode_of_decode? declares]
    cases found : handlers.find? header.recipient with
    | some h =>
      simp only [Registry.work, Registry.entered, found] at entries rest ⊢
      exact ⟨entries, rest, rfl⟩
    | none =>
      simp only [Registry.work, Registry.entered, found, List.append_nil] at entries rest ⊢
      exact ⟨entries, rest, whole⟩

/-- One handler, which inverts its body and then denies the request. -/
def inverting : Registry (BodyHandler Unit) :=
  ⟨[(EventGroup.endOfDxe, .ofAct fun body => (.error .accessDenied, body.map (~~~ ·)))]⟩

/-- The denial is lost on the way back, and the inverted byte is not. -/
theorem direct_round_trip_inverting :
    let header := MessageHeader.encode ⟨EventGroup.endOfDxe, 1⟩
    ∃ exchange after, communicate (monitor (ofBodyHandlers (.ffa true) 0x1000 0x40 inverting))
        (header ++ [0x0F, 0x01]) (some 0x40) (firstSession (.ffa true) .partitionAddressed inverting).2 =
          (exchange, after) ∧
      exchange.result = .ok () ∧ exchange.message = header ++ [0xF0, 0x01] ∧
      invocations after.journal = [(EventGroup.endOfDxe, [0x0F])] := by
  intro header
  have declares : MessageHeader.decode? (header ++ [0x0F, 0x01]) = some ⟨EventGroup.endOfDxe, 1⟩ := by
    decide +kernel
  obtain ⟨exchange, after, exchanged, success, _, _, _, _, last⟩ :=
    direct_round_trip inverting true 0x1000 0x40 (header ++ [0x0F, 0x01]) (some 0x40)
      (reached_firstSession _ .partitionAddressed _ rfl) nofun rfl declares (by decide) (by decide)
      (by rintro c ⟨⟩; decide)
  obtain ⟨entered, _, message⟩ := last
  exact ⟨exchange, after, exchanged, success, message.trans (by decide +kernel),
    entered.trans (by decide +kernel)⟩

/-- A round trip over the older interface. It is one call, the recipient's handler runs once, and what
the handler answered is all that decides: unless the caller is told of a success, its message is as it
was, whatever the handler wrote. -/
theorem legacy_round_trip (base length : UInt64) (message : Bytes) (capacity : Option UInt64)
    (reached : Reached (ofBodyHandlers .spm base length handlers) (.identityMapped base length) m)
    (legacy : m.session.route = .legacy) (unmoved : m.session.buffer.mode = .physical)
    (declares : MessageHeader.decode? message = some header) (nonempty : 0 < header.length.toNat)
    (fits : MessageHeader.size + header.length.toNat ≤ min length.toNat message.length)
    (room : ∀ c ∈ capacity, MessageHeader.size + header.length.toNat ≤ c.toNat ∧ c ≤ length) :
    let sent := MessageHeader.size + header.length.toNat
    let body := (message.drop MessageHeader.size).take header.length.toNat
    ∃ exchange after,
      communicate (monitor (ofBodyHandlers .spm base length handlers)) message capacity m =
        (exchange, after) ∧
      calls after.journal = calls m.journal ++ [request .legacy base] ∧
      exchange.capacity = capacity ∧ after.session = m.session ∧ after.serving = false ∧
      match handlers.find? header.recipient with
      | some h => invocations after.journal = invocations m.journal ++ [(header.recipient, body)] ∧
          after.rest = (h.work m.rest body).rest ∧
          exchange.result = reported (h.work m.rest body).result ∧
          exchange.message = match reported (h.work m.rest body).result with
            | .ok _ => message.take MessageHeader.size ++ (h.work m.rest body).body ++ message.drop sent
            | .error _ => message
      | none => invocations after.journal = invocations m.journal ∧ after.rest = m.rest ∧
          exchange.result = .error (.error .unsupported) ∧ exchange.message = message := by
  intro sent body
  have linked := reached.linked
  obtain ⟨total, admitted⟩ := admitted_of_fits declares nonempty fits room
  obtain ⟨after, exchanged, rest, way⟩ := communicate_legacy handlers linked.waiting linked.free
    (linked.buffer unmoved) legacy admitted
  rw [sentBody_eq total] at exchanged rest way
  refine ⟨_, after, exchanged, way.calls, rfl, way.session, way.serving.trans linked.waiting, ?_⟩
  have entries := way.invocations
  rw [total, ← MessageHeader.encode_of_decode? declares]
  cases found : handlers.find? header.recipient with
  | some h =>
    simp only [Registry.work, Registry.entered, found] at entries rest ⊢
    exact ⟨entries, rest, rfl, rfl⟩
  | none =>
    simp only [Registry.work, Registry.entered, found, List.append_nil] at entries rest ⊢
    exact ⟨entries, rest, rfl, rfl⟩

/-- The denial is told, and the byte that the handler inverted is not. -/
theorem legacy_round_trip_inverting :
    let message := MessageHeader.encode ⟨EventGroup.endOfDxe, 1⟩ ++ [0x0F, 0x01]
    ∃ exchange after, communicate (monitor (ofBodyHandlers .spm 0x1000 0x40 inverting)) message none
        (firstSession .spm .legacy inverting).2 = (exchange, after) ∧
      exchange.result = .error (.error .accessDenied) ∧ exchange.message = message ∧
      invocations after.journal = [(EventGroup.endOfDxe, [0x0F])] := by
  intro message
  have declares : MessageHeader.decode? message = some ⟨EventGroup.endOfDxe, 1⟩ := by decide +kernel
  obtain ⟨exchange, after, exchanged, _, _, _, _, last⟩ :=
    legacy_round_trip inverting 0x1000 0x40 message none (reached_firstSession _ .legacy _ rfl) rfl rfl
      declares (by decide) (by decide) nofun
  obtain ⟨entered, _, refused, kept⟩ := last
  exact ⟨exchange, after, exchanged, refused, kept, entered.trans (by decide +kernel)⟩

end Transport

end StandaloneMm
