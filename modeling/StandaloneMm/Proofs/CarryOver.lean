import StandaloneMm.Proofs.Exchange
import StandaloneMm.Rehearsal.Script

/-! What an exchange lets through of the exchanges before it. The request is copied over the front of the
buffer alone, so a reply that declares more than was sent also takes along what the partition has not
written there. -/
namespace StandaloneMm

namespace Rehearsal

/-- Where a write starts. The page of a loan that is over is nowhere. -/
def Write.base (rxPage : Option UInt64) (w : Write) : Option Nat :=
  match w.site with
  | .address base => some base
  | .rxPage => rxPage.map UInt64.toNat

def Write.Covers (rxPage : Option UInt64) (w : Write) (address : Nat) : Prop :=
  ∃ base, w.base rxPage = some base ∧ base ≤ address ∧ address < base + w.data.length

theorem Write.apply_eq (rxPage : Option UInt64) (memory : Memory) (w : Write) :
    w.apply rxPage memory = (w.base rxPage).elim memory fun base => memory.store base w.data := by
  unfold Write.apply Write.base
  cases w.site with
  | address base => rfl
  | rxPage => cases rxPage <;> rfl

theorem Write.byte_apply (rxPage : Option UInt64) (w : Write) (address : Nat) :
    (w.Covers rxPage address → ∃ byte, ∀ memory, (w.apply rxPage memory).byte address = byte) ∧
      (¬ w.Covers rxPage address → ∀ memory, (w.apply rxPage memory).byte address = memory.byte address) := by
  constructor
  · rintro ⟨base, starts, low, high⟩
    obtain ⟨i, rfl⟩ := Nat.exists_eq_add_of_le low
    have inside : i < w.data.length := by omega
    refine ⟨w.data[i], fun memory => ?_⟩
    rw [apply_eq, starts]
    exact Memory.byte_store_inside memory inside
  · intro outside memory
    rw [apply_eq]
    cases starts : w.base rxPage with
    | none => rfl
    | some base =>
      have apart : address < base ∨ base + w.data.length ≤ address := by
        by_cases low : address < base
        · exact .inl low
        · exact .inr (Nat.not_lt.mp fun high => outside ⟨base, starts, Nat.not_lt.mp low, high⟩)
      exact Memory.byte_store_outside memory apart

/-- One write after the other. -/
def writeAll (rxPage : Option UInt64) (writes : List Write) (memory : Memory) : Memory :=
  writes.foldl (Write.apply rxPage) memory

theorem writeAll_append (rxPage : Option UInt64) (first second : List Write) (memory : Memory) :
    writeAll rxPage (first ++ second) memory = writeAll rxPage second (writeAll rxPage first memory) :=
  List.foldl_append

theorem byte_writeAll (rxPage : Option UInt64) (writes : List Write) (address : Nat) :
    ((∃ w ∈ writes, w.Covers rxPage address) →
      ∃ byte, ∀ memory, (writeAll rxPage writes memory).byte address = byte) ∧
      ((∀ w ∈ writes, ¬ w.Covers rxPage address) →
        ∀ memory, (writeAll rxPage writes memory).byte address = memory.byte address) := by
  induction writes with
  | nil => exact ⟨nofun, fun _ _ => rfl⟩
  | cons w rest ih =>
    obtain ⟨written, untouched⟩ := ih
    constructor
    · intro covered
      by_cases later : ∃ w ∈ rest, w.Covers rxPage address
      · obtain ⟨byte, fixed⟩ := written later
        exact ⟨byte, fun memory => fixed (w.apply rxPage memory)⟩
      · have last : w.Covers rxPage address := by
          obtain ⟨v, member, covers⟩ := covered
          rcases List.mem_cons.mp member with rfl | more
          · exact covers
          · exact absurd ⟨v, more, covers⟩ later
        obtain ⟨byte, fixed⟩ := (w.byte_apply rxPage address).1 last
        refine ⟨byte, fun memory => ?_⟩
        have kept := untouched (fun v member covers => later ⟨v, member, covers⟩) (w.apply rxPage memory)
        exact kept.trans (fixed memory)
    · intro outside memory
      have first := (w.byte_apply rxPage address).2 (outside w (List.mem_cons_self ..)) memory
      have kept := untouched (fun v member => outside v (List.mem_cons_of_mem _ member)) (w.apply rxPage memory)
      exact kept.trans first

/-- Calls into a script are answered without a look at the memory: whatever lies there, these replies are
taken, their writes are made and the run ends the same. -/
structure Blind (run : Machine Script → Registers × Machine Script) (m : Machine Script) (answer : Registers)
    (after : Machine Script) (taken : List Reply) : Prop where
  replies : m.rest.replies = taken ++ after.rest.replies
  rxPage : after.rest.rxPage = m.rest.rxPage
  session : after.session = m.session
  runs : ∀ memory, run { m with memory := memory } =
    (answer, { after with memory := writeAll m.rest.rxPage (taken.flatMap Reply.writes) memory })

/-- The receive page stays as it is. -/
def Lendless (call : Registers) : Prop :=
  call.x0 ≠ FunctionId.ffaRxtxMap ∧ call.x0 ≠ FunctionId.ffaRxtxUnmap

namespace Blind

variable {run : Machine Script → Registers × Machine Script} {m middle after : Machine Script}
  {answer : Registers} {taken more : List Reply}

theorem still (m : Machine Script) (answer : Registers) : Blind (fun m => (answer, m)) m answer m [] where
  replies := rfl
  rxPage := rfl
  session := rfl
  runs _ := rfl

theorem noted {events : List Event} (blind : Blind run (m.append events) answer after taken) :
    Blind (fun m => run (m.append events)) m answer after taken :=
  ⟨blind.replies, blind.rxPage, blind.session, blind.runs⟩

theorem next {answer' : Registers} (onward : Registers → Machine Script → Registers × Machine Script)
    (first : Blind run m answer middle taken) (second : Blind (onward answer) middle answer' after more) :
    Blind (fun m => onward (run m).1 (run m).2) m answer' after (taken ++ more) where
  replies := by rw [first.replies, second.replies, List.append_assoc]
  rxPage := second.rxPage.trans first.rxPage
  session := second.session.trans first.session
  runs memory := by
    rw [first.runs, second.runs, first.rxPage, List.flatMap_append, writeAll_append]

theorem congr {run' : Machine Script → Registers × Machine Script} (blind : Blind run m answer after taken)
    (same : ∀ m, run' m = run m) : Blind run' m answer after taken :=
  ⟨blind.replies, blind.rxPage, blind.session, fun memory => (same _).trans (blind.runs memory)⟩

end Blind

theorem resume_lendless (remote : PartitionDescriptor) : Lendless (Delivery.resumeRequest remote) := by
  simp only [Lendless, Delivery.resumeRequest]
  decide

theorem request_lendless (route : Route) (base : UInt64) : Lendless (Delivery.request route base) := by
  cases route with
  | legacy | direct =>
    simp only [Lendless, Delivery.request]
    decide

theorem answer_blind {call : Registers} (lendless : Lendless call) (m : Machine Script) :
    ∃ ret after taken, Blind (answer none call) m ret after taken := by
  have noted (s : Script) : s.noteCall call = s := by
    rw [Script.noteCall, if_neg lendless.1, if_neg lendless.2]
  have answered (ret : Registers) (s : Script) : s.noteAnswer call ret = s := by
    rw [Script.noteAnswer, if_neg fun maps => lendless.1 maps.1]
  cases replies : m.rest.replies with
  | nil =>
    refine ⟨FfaStatus.notSupported.refusal, m, [], (List.nil_append _).symm, rfl, rfl, fun memory => ?_⟩
    simp only [answer, noted, answered, Script.next, replies]
    rfl
  | cons reply rest =>
    let script := { m.rest with replies := rest }
    refine ⟨reply.ret, { m with rest := script }, [reply], replies, rfl, rfl, fun memory => ?_⟩
    have written : [reply].flatMap Reply.writes = reply.writes := List.append_nil _
    have alone (m : Machine Script) : runInner none reply.nested m = m := rfl
    simp only [answer, noted, answered, Script.next, replies, alone, written]
    rfl

variable {call : Registers}

theorem trap_blind (lendless : Lendless call) (m : Machine Script) :
    ∃ ret after taken, Blind (fun m => m.trap (Script.nestedMonitor 0) call) m ret after taken := by
  obtain ⟨ret, after, taken, answered⟩ := answer_blind lendless (m.record (.call call))
  have recorded : Blind (fun m => (ret, m.record (.ret ret))) after ret (after.record (.ret ret)) [] :=
    ⟨rfl, rfl, rfl, fun _ => rfl⟩
  exact ⟨ret, _, _, answered.noted.next (fun ret m => (ret, m.record (.ret ret))) recorded⟩

theorem resume_blind (remote : PartitionDescriptor) (patience : Nat) (answer : Registers) (m : Machine Script) :
    ∃ ret after taken,
      Blind (Transport.resume (Script.nestedMonitor 0) remote patience answer) m ret after taken := by
  induction patience generalizing answer m with
  | zero => exact ⟨answer, m, [], .still m answer⟩
  | succ patience ih =>
    by_cases preempts : Delivery.preempted answer = true
    · obtain ⟨resumed, middle, first, resumes⟩ := trap_blind (resume_lendless remote) (m.log .debug .mmComm)
      obtain ⟨ret, after, more, rest⟩ := ih resumed middle
      have whole := resumes.noted.next (Transport.resume (Script.nestedMonitor 0) remote patience) rest
      refine ⟨ret, after, _, whole.congr fun m => ?_⟩
      rw [Transport.resume, if_pos preempts]
      rfl
    · refine ⟨answer, m, [], (Blind.still m answer).congr fun m => ?_⟩
      rw [Transport.resume, if_neg preempts]

theorem callRemote_blind (lendless : Lendless call) (route : Route) (m : Machine Script) :
    ∃ ret after taken,
      Blind (Transport.callRemote (Script.nestedMonitor 0) route call) m ret after taken := by
  obtain ⟨answer, middle, first, called⟩ := trap_blind lendless m
  cases route with
  | legacy => exact ⟨answer, middle, first, called⟩
  | direct localId remote =>
    let resumes (answer : Registers) (m : Machine Script) :=
      Transport.resume (Script.nestedMonitor 0) remote ((Script.nestedMonitor 0).patience m) answer m
    obtain ⟨ret, after, more, resumed⟩ :=
      resume_blind remote ((Script.nestedMonitor 0).patience middle) answer middle
    have onward : Blind (resumes answer) middle ret after more :=
      ⟨resumed.replies, resumed.rxPage, resumed.session, resumed.runs⟩
    exact ⟨ret, after, _, called.next resumes onward⟩

end Rehearsal

namespace Delivery

variable {reply reply' message : Bytes} {total : Nat}

theorem size_le_declared (reply : Bytes) : MessageHeader.size ≤ declared reply := by
  simp only [declared, MessageHeader.size, maxSize]
  omega

theorem declared_congr (same : ∀ i < MessageHeader.size, reply'[i]? = reply[i]?) :
    declared reply' = declared reply := by
  have field : (reply'.drop 16).take 8 = (reply.drop 16).take 8 := by
    apply List.ext_getElem?
    intro i
    by_cases inside : i < 8
    · rw [List.getElem?_take_of_lt inside, List.getElem?_take_of_lt inside, List.getElem?_drop, List.getElem?_drop]
      exact same (16 + i) (by simp only [MessageHeader.size]; omega)
    · rw [List.getElem?_take_eq_none (Nat.not_lt.mp inside), List.getElem?_take_eq_none (Nat.not_lt.mp inside)]
  rw [declared, declared, field]

theorem outcome_of_fits (total : Nat) (inBuffer : declared reply ≤ reply.length)
    (inMessage : declared reply ≤ message.length) :
    outcome reply message total = ⟨.ok (), reply.take (declared reply) ++
      (zeros (total - declared reply) ++ message.drop (max (declared reply) total))⟩ := by
  rw [outcome, if_neg (Nat.not_lt.mpr inBuffer), if_neg (Nat.not_lt.mpr inMessage), List.append_assoc]

theorem fits_of_outcome (taken : (outcome reply message total).result = .ok ()) :
    declared reply ≤ reply.length ∧ declared reply ≤ message.length := by
  by_cases long : reply.length < declared reply
  · rw [outcome, if_pos long] at taken
    cases taken
  by_cases overfull : message.length < declared reply
  · rw [outcome, if_neg long, if_pos overfull] at taken
    cases taken
  exact ⟨Nat.not_lt.mp long, Nat.not_lt.mp overfull⟩

theorem outcome_bytes (taken : (outcome reply message total).result = .ok ()) :
    declared (outcome reply message total).message = declared reply ∧
      ∀ i < declared reply, (outcome reply message total).message[i]? = reply[i]? := by
  obtain ⟨inBuffer, inMessage⟩ := fits_of_outcome taken
  have bytes : ∀ i < declared reply, (outcome reply message total).message[i]? = reply[i]? := by
    intro i inside
    have copied : i < (reply.take (declared reply)).length := by
      rw [List.length_take]
      omega
    rw [outcome_of_fits total inBuffer inMessage, List.getElem?_append_left copied, List.getElem?_take_of_lt inside]
  exact ⟨declared_congr fun i inside => bytes i (Nat.lt_of_lt_of_le inside (size_le_declared reply)), bytes⟩

theorem outcome_beside (message : Bytes) (length : reply'.length = reply.length) (sized : MessageHeader.size ≤ total)
    (front : ∀ i < total, reply'[i]? = reply[i]?) :
    (outcome reply' message total).result = (outcome reply message total).result ∧
      ∀ i, ((outcome reply message total).result = .ok () → i < declared reply → reply'[i]? = reply[i]?) →
        (outcome reply' message total).message[i]? = (outcome reply message total).message[i]? := by
  have size : declared reply' = declared reply := declared_congr fun i inside => front i (by omega)
  by_cases long : reply.length < declared reply
  · have long' : reply'.length < declared reply' := by omega
    rw [outcome, outcome, if_pos long, if_pos long']
    exact ⟨rfl, fun _ _ => rfl⟩
  by_cases overfull : message.length < declared reply
  · have long' : ¬ reply'.length < declared reply' := by omega
    have overfull' : message.length < declared reply' := by omega
    have header : reply'.take MessageHeader.size = reply.take MessageHeader.size := by
      apply List.ext_getElem?
      intro i
      rw [List.getElem?_take, List.getElem?_take]
      split
      next inside => exact front i (by omega)
      next => rfl
    rw [outcome, outcome, if_neg long, if_neg long', if_pos overfull, if_pos overfull', header]
    exact ⟨rfl, fun _ _ => rfl⟩
  · have inBuffer := Nat.not_lt.mp long
    have inMessage := Nat.not_lt.mp overfull
    have taken := outcome_of_fits total inBuffer inMessage
    have taken' := outcome_of_fits total (by omega) (by omega : declared reply' ≤ message.length)
    refine ⟨by rw [taken, taken'], fun i same => ?_⟩
    rw [taken, taken', size]
    by_cases inside : i < declared reply
    · rw [List.getElem?_append_left (by rw [List.length_take]; omega),
        List.getElem?_append_left (by rw [List.length_take]; omega),
        List.getElem?_take_of_lt inside, List.getElem?_take_of_lt inside]
      exact same (congrArg Receipt.result taken) inside
    · have copied : (reply.take (declared reply)).length = declared reply := by
        rw [List.length_take, Nat.min_eq_left inBuffer]
      have copied' : (reply'.take (declared reply)).length = declared reply := by
        rw [List.length_take, length, Nat.min_eq_left inBuffer]
      have behind {front rest : Bytes} (size : front.length = declared reply) :
          (front ++ rest)[i]? = rest[i - declared reply]? := by
        rw [List.getElem?_append_right (by omega), size]
      exact (behind copied').trans (behind copied).symm

end Delivery

namespace Transport

open Admission Delivery Rehearsal

/-- The memory that a request and some replies to it leave of what was there before. -/
def overwritten (m : Machine Script) (request : Bytes) (taken : List Reply) (memory : Memory) : Memory :=
  writeAll m.rest.rxPage (taken.flatMap Reply.writes) (memory.store m.session.buffer.currentBase.toNat request)

theorem answered_blind (message : Bytes) (capacity : Option UInt64) (total : Nat) (m : Machine Script) :
    ∃ (answer : Registers) (after : Machine Script) (taken : List Reply),
      m.rest.replies = taken ++ after.rest.replies ∧ after.session.buffer = m.session.buffer ∧
      ∀ memory, answered (Script.nestedMonitor 0) message capacity total { m with memory := memory } =
        (answer, { after with memory := overwritten m (message.take total) taken memory }) := by
  let base := m.session.buffer.currentBase.toNat
  obtain ⟨answer, after, taken, blind⟩ := callRemote_blind
    (request_lendless m.session.route m.session.buffer.physicalBase) m.session.route
    (offered message capacity total m)
  have buffer := congrArg Session.buffer blind.session
  refine ⟨answer, after, taken, blind.replies, buffer, fun memory => ?_⟩
  exact blind.runs (memory.store base (message.take total))

/-- None of the replies goes to this place in the buffer. -/
def Untouched (m : Machine Script) (taken : List Reply) (i : Nat) : Prop :=
  ∀ reply ∈ taken, ∀ w ∈ reply.writes, ¬ w.Covers m.rest.rxPage (m.session.buffer.currentBase.toNat + i)

theorem byte_overwritten (m : Machine Script) (request : Bytes) (taken : List Reply) (i : Nat) :
    let address := m.session.buffer.currentBase.toNat + i
    (i < request.length ∨ ¬ Untouched m taken i → ∀ memory memory',
      (overwritten m request taken memory').byte address = (overwritten m request taken memory).byte address) ∧
    (request.length ≤ i → Untouched m taken i → ∀ memory,
      (overwritten m request taken memory).byte address = memory.byte address) := by
  intro address
  let base := m.session.buffer.currentBase.toNat
  obtain ⟨written, untouched⟩ := byte_writeAll m.rest.rxPage (taken.flatMap Reply.writes) address
  have kept (missed : Untouched m taken i) (memory : Memory) :
      (overwritten m request taken memory).byte address = (memory.store base request).byte address := by
    refine untouched (fun w member => ?_) (memory.store base request)
    obtain ⟨reply, from_, writes⟩ := List.mem_flatMap.mp member
    exact missed reply from_ w writes
  constructor
  · intro replaced memory memory'
    by_cases missed : Untouched m taken i
    · have sent : i < request.length := replaced.resolve_right (not_not_intro missed)
      rw [kept missed, kept missed, Memory.byte_store_inside memory sent, Memory.byte_store_inside memory' sent]
    · obtain ⟨w, member, covers⟩ : ∃ w ∈ taken.flatMap Reply.writes, w.Covers m.rest.rxPage address := by
        apply Classical.byContradiction
        intro none
        refine missed fun reply takes w writes covers => none ⟨w, ?_, covers⟩
        exact List.mem_flatMap.mpr ⟨reply, takes, writes⟩
      obtain ⟨byte, fixed⟩ := written ⟨w, member, covers⟩
      exact (fixed _).trans (fixed _).symm
  · intro behind missed memory
    exact (kept missed memory).trans (Memory.byte_store_outside memory (.inr (by omega)))

/-- The places of a message that take along what lay in the buffer before the exchange: behind the request,
within the size that the reply declares, and written by no one. -/
structure CarriesOver (m : Machine Script) (sent : Nat) (taken : List Reply) (exchange : Exchange) (i : Nat) :
    Prop where
  success : exchange.result = .ok ()
  behind : sent ≤ i
  declared : i < declared exchange.message
  untouched : Untouched m taken i

variable {message : Bytes} {capacity : Option UInt64} {header : MessageHeader} {m : Machine Script}

theorem reply_overwritten (admitted : Admitted m.session.buffer.length message capacity header)
    (taken : List Reply) (memory memory' : Memory) :
    let reply := (overwritten m (message.take header.total) taken memory).loadSpan m.session.buffer.span
    let reply' := (overwritten m (message.take header.total) taken memory').loadSpan m.session.buffer.span
    (∀ i < header.total, reply'[i]? = reply[i]?) ∧ ∀ i < m.session.buffer.length.toNat,
      (¬ (header.total ≤ i ∧ Untouched m taken i) → reply'[i]? = reply[i]?) ∧
      (header.total ≤ i → Untouched m taken i →
        reply[i]? = some (memory.byte (m.session.buffer.currentBase.toNat + i))) := by
  intro reply reply'
  have length : (message.take header.total).length = header.total := by
    rw [List.length_take, Nat.min_eq_left admitted.inMessage]
  have bytes : ∀ i < m.session.buffer.length.toNat,
      (¬ (header.total ≤ i ∧ Untouched m taken i) → reply'[i]? = reply[i]?) ∧
      (header.total ≤ i → Untouched m taken i →
        reply[i]? = some (memory.byte (m.session.buffer.currentBase.toNat + i))) := by
    intro i inside
    obtain ⟨replaced, kept⟩ := byte_overwritten m (message.take header.total) taken i
    rw [length] at replaced kept
    have found (memory : Memory) : ((overwritten m (message.take header.total) taken memory).loadSpan
        m.session.buffer.span)[i]? = some ((overwritten m (message.take header.total) taken memory).byte
          (m.session.buffer.currentBase.toNat + i)) := Memory.getElem?_load _ inside
    refine ⟨fun fresh => ?_, fun behind missed => ?_⟩
    · have either : i < header.total ∨ ¬ Untouched m taken i := by
        by_cases sent : i < header.total
        · exact .inl sent
        · exact .inr fun missed => fresh ⟨Nat.not_lt.mp sent, missed⟩
      exact (found memory').trans ((congrArg some (replaced either memory memory')).trans (found memory).symm)
    · exact (found memory).trans (congrArg some (kept behind missed memory))
  refine ⟨fun i sent => ?_, bytes⟩
  exact (bytes i (Nat.lt_of_lt_of_le sent admitted.inBuffer)).1 fun late => Nat.not_le.mpr sent late.1

/-- What an admitted message comes to, whatever was in the memory before: it fails without a look at the
buffer, or it is left to the bytes that are there by then. -/
theorem communicate_blind (admitted : Admitted m.session.buffer.length message capacity header)
    (free : m.session.inUse = false) :
    ∃ (taken : List Reply) (rest : Script), m.rest.replies = taken ++ rest.replies ∧
      ((∃ fault, ∀ memory,
        let run := communicate (Script.nestedMonitor 0) message capacity { m with memory := memory }
        run.1 = ⟨.error fault, message, capacity⟩ ∧ run.2.rest = rest) ∨
      ∀ memory,
        let run := communicate (Script.nestedMonitor 0) message capacity { m with memory := memory }
        let left := overwritten m (message.take header.total) taken memory
        let receipt := outcome (left.loadSpan m.session.buffer.span) message header.total
        run.1 = ⟨receipt.result.mapError .error, receipt.message, capacity⟩ ∧ run.2.rest = rest) := by
  obtain ⟨answer, after, taken, replies, buffer, ran⟩ := answered_blind message capacity header.total m
  have exchanged (memory : Memory) := communicate_answered (m := { m with memory := memory }) admitted free (ran memory)
  have sized := MessageHeader.size_le_total header
  have holdsHeader : MessageHeader.size ≤ after.session.buffer.length.toNat := by
    rw [buffer]
    exact Nat.le_trans sized admitted.inBuffer
  let ended (memory : Memory) : Machine Script :=
    { after with memory := overwritten m (message.take header.total) taken memory }
  refine ⟨taken, after.rest, replies, ?_⟩
  by_cases success : succeeded m.session.route answer = true
  · refine .inr fun memory => ?_
    have concludes : concluded m.session.route message header.total answer (ended memory) = _ :=
      concluded_of_succeeded success holdsHeader sized admitted.inMessage
    rw [exchanged memory, concludes, ← buffer]
    exact ⟨rfl, rfl⟩
  · let fault := faultOfStatus (failureStatus m.session.route answer)
    refine .inl ⟨fault, fun memory => ?_⟩
    have fails : classify m.session.route answer = .error fault := if_neg success
    have concludes : concluded m.session.route message header.total answer (ended memory) =
        ((.error fault, message), (letGo (ended memory)).append (failureRecords fault)) := by
      rw [concluded, fails]
    rw [exchanged memory, concludes]
    exact ⟨rfl, rfl⟩

theorem receipt_carries (admitted : Admitted m.session.buffer.length message capacity header)
    (taken : List Reply) (memory memory' : Memory) :
    let reply (memory : Memory) :=
      (overwritten m (message.take header.total) taken memory).loadSpan m.session.buffer.span
    let exchange (memory : Memory) : Exchange :=
      let receipt := outcome (reply memory) message header.total
      ⟨receipt.result.mapError .error, receipt.message, capacity⟩
    (exchange memory').result = (exchange memory).result ∧ ∀ i,
      (¬ CarriesOver m header.total taken (exchange memory) i →
        (exchange memory').message[i]? = (exchange memory).message[i]?) ∧
      (CarriesOver m header.total taken (exchange memory) i →
        (exchange memory).message[i]? = some (memory.byte (m.session.buffer.currentBase.toNat + i)) ∧
        (exchange memory').message[i]? = some (memory'.byte (m.session.buffer.currentBase.toNat + i))) := by
  intro reply exchange
  obtain ⟨front, bytes⟩ := reply_overwritten (m := m) admitted taken memory memory'
  have length (memory : Memory) : (reply memory).length = m.session.buffer.length.toNat := Memory.length_load ..
  have sized := MessageHeader.size_le_total header
  obtain ⟨results, messages⟩ := outcome_beside message ((length memory').trans (length memory).symm) sized front
  have size : declared (reply memory') = declared (reply memory) :=
    declared_congr fun i inside => front i (Nat.lt_of_lt_of_le inside sized)
  have inBuffer (ok : (outcome (reply memory) message header.total).result = .ok ()) :
      declared (reply memory) ≤ m.session.buffer.length.toNat :=
    length memory ▸ (fits_of_outcome ok).1
  refine ⟨congrArg (Except.mapError Fault.error) results, fun i => ⟨fun fresh => ?_, fun carried => ?_⟩⟩
  · refine messages i fun ok inside => ?_
    have within := Nat.lt_of_lt_of_le inside (inBuffer ok)
    refine (bytes i within).1 fun carries => fresh ⟨?_, carries.1, ?_, carries.2⟩
    · exact congrArg (Except.mapError Fault.error) ok
    · exact (outcome_bytes ok).1.symm ▸ inside
  · have ok : (outcome (reply memory) message header.total).result = .ok () := by
      have success := carried.success
      cases result : (outcome (reply memory) message header.total).result with
      | ok _ => rfl
      | error e =>
        simp only [exchange, result] at success
        cases success
    obtain ⟨declares, copied⟩ := outcome_bytes ok
    obtain ⟨_, copied'⟩ := outcome_bytes (results.trans ok)
    have inside : i < declared (reply memory) := declares ▸ carried.declared
    have within := Nat.lt_of_lt_of_le inside (inBuffer ok)
    obtain ⟨_, bytes'⟩ := reply_overwritten (m := m) admitted taken memory' memory
    exact ⟨(copied i inside).trans ((bytes i within).2 carried.behind carried.untouched),
      (copied' i (size ▸ inside)).trans ((bytes' i within).2 carried.behind carried.untouched)⟩

/-- An exchange lets its caller see of the memory before it the bytes that the reply declares and no one
wrote, and nothing else: with any other memory in its place the result and the other bytes are the same. -/
theorem communicate_carries (message : Bytes) (capacity : Option UInt64) (m : Machine Script) (memory : Memory) :
    let sent := (MessageHeader.decode? message).elim 0 MessageHeader.total
    let monitor := Script.nestedMonitor 0
    let one := communicate monitor message capacity m
    let other := communicate monitor message capacity { m with memory := memory }
    other.1.result = one.1.result ∧ other.1.capacity = one.1.capacity ∧
      ∃ taken, m.rest.replies = taken ++ one.2.rest.replies ∧ ∀ i,
        (¬ CarriesOver m sent taken one.1 i → other.1.message[i]? = one.1.message[i]?) ∧
        (CarriesOver m sent taken one.1 i →
          one.1.message[i]? = some (m.memory.byte (m.session.buffer.currentBase.toNat + i)) ∧
          other.1.message[i]? = some (memory.byte (m.session.buffer.currentBase.toNat + i))) := by
  intro sent monitor one other
  have failed {exchange : Exchange} {fault : Fault} {taken : List Reply} (bad : exchange.result = .error fault)
      (i : Nat) : ¬ CarriesOver m sent taken exchange i :=
    fun carried => nomatch bad.symm.trans carried.success
  rcases communicate_cases monitor message capacity m with
    ⟨refusal, turned, refused⟩ | ⟨held, ⟨total, screened⟩, denied⟩ | ⟨header, free, admitted, _⟩
  · have refused' : other = _ := communicate_refused turned
    have same : one = _ := refused
    rw [refused', same]
    exact ⟨rfl, rfl, [], rfl, fun i => ⟨fun _ => rfl, fun carried => absurd carried (failed rfl i)⟩⟩
  · have denied' : other = _ := communicate_denied screened held
    have same : one = _ := denied
    rw [denied', same]
    exact ⟨rfl, rfl, [], rfl, fun i => ⟨fun _ => rfl, fun carried => absurd carried (failed rfl i)⟩⟩
  have sentTotal : sent = header.total := by simp only [sent, admitted.read, Option.elim_some]
  obtain ⟨taken, rest, replies, ⟨fault, fails⟩ | received⟩ := communicate_blind admitted free
  · obtain ⟨first, left⟩ : one.1 = _ ∧ one.2.rest = rest := fails m.memory
    obtain ⟨second, _⟩ : other.1 = _ ∧ other.2.rest = rest := fails memory
    rw [first, second, left]
    exact ⟨rfl, rfl, taken, replies, fun i => ⟨fun _ => rfl, fun carried => absurd carried (failed rfl i)⟩⟩
  · obtain ⟨first, left⟩ : one.1 = _ ∧ one.2.rest = rest := received m.memory
    obtain ⟨second, _⟩ : other.1 = _ ∧ other.2.rest = rest := received memory
    obtain ⟨results, bytes⟩ := receipt_carries (m := m) admitted taken m.memory memory
    rw [first, second, left, sentTotal]
    exact ⟨results, rfl, taken, replies, bytes⟩

/-- Two callers, one after the other. The partition declares eight bytes of reply to the second one and
writes none of them, so that it reads what the first one had sent; on a blank buffer it reads zeros. -/
theorem communicate_carries_of_another_caller :
    let header (length : UInt64) := MessageHeader.encode ⟨EventGroup.endOfDxe, length⟩
    let session : Session := { route := .legacy, buffer := .identityMapped 0x1000 0x40 }
    let echo : Reply := { ret := {} }
    let declares : Reply := { ret := {}, writes := [⟨.address 0x1010, [8]⟩] }
    let monitor := Script.nestedMonitor 0
    let another : Machine Script := { session := session, rest := { replies := [echo] } }
    let m : Machine Script := { session := session, rest := { replies := [declares] } }
    let before := (communicate monitor (header 8 ++ [1, 2, 3, 4, 5, 6, 7, 8]) none another).2.memory
    let message := header 1 ++ [9] ++ zeros 7
    let fresh := communicate monitor message none m
    let later := communicate monitor message none { m with memory := before }
    fresh.1.message = header 8 ++ [9, 0, 0, 0, 0, 0, 0, 0] ∧
      later.1.message = header 8 ++ [9, 2, 3, 4, 5, 6, 7, 8] ∧ later.1.message ≠ fresh.1.message := by
  decide +kernel

end Transport

end StandaloneMm
