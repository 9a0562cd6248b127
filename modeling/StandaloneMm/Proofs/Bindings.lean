import Mathlib.Data.Finset.Card
import Mathlib.Data.List.Induction
import StandaloneMm.Proofs.Delegation

/-! A dispatcher over its whole life. However handlers were registered, removed and reached, it is a
partial map from recipients to handlers, and its entries are the finitely many bindings of that map. -/
namespace StandaloneMm

variable {ω : Type}

namespace Registry

variable {η : Type} {r : Registry η} {recipient : Guid} {bound : η}

def recipients (r : Registry η) : List Guid := r.entries.map Prod.fst

/-- No two entries for one recipient. -/
def Unique (r : Registry η) : Prop := r.recipients.Nodup

theorem unique_empty : Unique ({} : Registry η) := List.nodup_nil

theorem find?_eq_none_iff : r.find? recipient = none ↔ recipient ∉ r.recipients := by
  simp only [find?, recipients, Option.map_eq_none_iff, List.find?_eq_none, List.mem_map, not_exists,
    not_and, decide_eq_true_eq]

theorem contains_iff : r.contains recipient = true ↔ r.find? recipient ≠ none := by
  rw [ne_eq, find?_eq_none_iff, not_not]
  simp only [contains, recipients, List.any_eq_true, List.mem_map, decide_eq_true_eq]

theorem size_eq_card (unique : r.Unique) : r.size = r.recipients.toFinset.card := by
  rw [List.toFinset_card_of_nodup unique, recipients, List.length_map, size]

theorem isEmpty_iff : r.isEmpty = true ↔ r.size = 0 := by
  rw [isEmpty, List.isEmpty_iff, size, List.length_eq_zero_iff]

theorem register_unbound (unbound : r.find? recipient = none) (handler : η) :
    r.register recipient handler = .ok ⟨r.entries ++ [(recipient, handler)]⟩ :=
  if_neg fun there => contains_iff.mp there unbound

theorem register_bound (found : r.find? recipient = some bound) (handler : η) :
    r.register recipient handler = .error .alreadyStarted :=
  if_pos (contains_iff.mpr (by simp [found]))

theorem unregister_unbound (unbound : r.find? recipient = none) :
    r.unregister recipient = .error .notFound :=
  if_neg fun there => contains_iff.mp there unbound

theorem unregister_bound (found : r.find? recipient = some bound) :
    r.unregister recipient = .ok ⟨r.entries.eraseP (·.1 = recipient)⟩ :=
  if_pos (contains_iff.mpr (by simp [found]))

theorem Unique.append (unique : r.Unique) (unbound : r.find? recipient = none) (handler : η) :
    Unique ⟨r.entries ++ [(recipient, handler)]⟩ := by
  have fresh : recipient ∉ r.recipients := find?_eq_none_iff.mp unbound
  simp only [Unique, recipients, List.map_append, List.map_cons, List.map_nil]
  refine List.nodup_append.mpr ⟨unique, List.nodup_singleton _, fun other member one new same => fresh ?_⟩
  exact List.mem_singleton.mp new ▸ same ▸ member

theorem Unique.erase (unique : r.Unique) (recipient : Guid) :
    Unique ⟨r.entries.eraseP (·.1 = recipient)⟩ :=
  unique.sublist (List.eraseP_sublist.map Prod.fst)

theorem eraseP_entries (unique : r.Unique) (recipient : Guid) :
    r.entries.eraseP (·.1 = recipient) = r.entries.filter (·.1 ≠ recipient) := by
  obtain ⟨entries⟩ := r
  induction entries with
  | nil => rfl
  | cons e rest ih =>
    obtain ⟨fresh, others⟩ := List.nodup_cons.mp unique
    by_cases here : e.1 = recipient
    · have kept : rest.filter (·.1 ≠ recipient) = rest := by
        refine List.filter_eq_self.mpr fun other member => decide_eq_true fun same => fresh ?_
        exact here.trans same.symm ▸ List.mem_map_of_mem member
      rw [List.eraseP_cons_of_pos (by simpa using here), List.filter_cons_of_neg (by simpa using here), kept]
    · rw [List.eraseP_cons_of_neg (by simpa using here), List.filter_cons_of_pos (by simpa using here), ih others]

theorem find?_append (unbound : r.find? recipient = none) (handler : η) :
    find? ⟨r.entries ++ [(recipient, handler)]⟩ = Function.update r.find? recipient (some handler) := by
  funext other
  rw [Function.update_apply, find?, List.find?_append]
  split
  next same =>
    subst same
    have nobody : r.entries.find? (·.1 = other) = none := Option.map_eq_none_iff.mp unbound
    simp [nobody]
  next different => simp [find?, Ne.symm different]

theorem find?_erase (unique : r.Unique) (recipient : Guid) :
    find? ⟨r.entries.eraseP (·.1 = recipient)⟩ = Function.update r.find? recipient none := by
  funext other
  rw [Function.update_apply, find?, eraseP_entries unique, List.find?_filter]
  split
  next same => simp [same]
  next different =>
    have alike (e : Guid × η) : (e.1 ≠ recipient ∧ e.1 = other) ↔ e.1 = other :=
      ⟨And.right, fun here => ⟨here ▸ different, here⟩⟩
    simp only [decide_eq_true_eq, alike, find?]

end Registry

/-- A registry in use, on the machine that its handlers work on. -/
structure Dispatcher (ω : Type) where
  handlers : Registry (Handler ω) := {}
  machine : Machine ω

namespace Dispatcher

inductive Request (ω : Type) where
  | register (recipient : Guid) (handler : Handler ω)
  | unregister (recipient : Guid)
  /-- A message is put into a buffer of its own length and dispatched there. -/
  | dispatch (base : Nat) (message : Bytes)

/-- The machine with a message in memory. -/
def holding (d : Dispatcher ω) (base : Nat) (message : Bytes) : Machine ω :=
  { d.machine with memory := d.machine.memory.store base message }

def perform (d : Dispatcher ω) : Request ω → Except Error Unit × Dispatcher ω
  | .register recipient handler =>
    let result := d.handlers.register recipient handler
    let machine := d.machine.record (Registry.registerRecord result)
    match result with
    | .ok more => (.ok (), ⟨more, machine⟩)
    | .error e => (.error e, ⟨d.handlers, machine⟩)
  | .unregister recipient =>
    match d.handlers.unregister recipient with
    | .ok fewer => (.ok (), ⟨fewer, d.machine⟩)
    | .error e => (.error e, d)
  | .dispatch base message =>
    let (result, machine) := Dispatch.dispatch d.handlers ⟨base, message.length⟩ (d.holding base message)
    (result, ⟨d.handlers, machine⟩)

/-- What becomes of a dispatcher by a history of requests. -/
def after (d : Dispatcher ω) (history : List (Request ω)) : Dispatcher ω :=
  history.foldl (fun d request => (d.perform request).2) d

theorem after_concat (d : Dispatcher ω) (history : List (Request ω)) (request : Request ω) :
    d.after (history ++ [request]) = ((d.after history).perform request).2 := by
  simp [after]

/-- What the outcome of a handler comes to: that the body is too small for the reply is no failure. -/
def Settles (outcome : Except Error Unit × Machine ω) (answer : Except Error Unit) (after : Machine ω) : Prop :=
  match outcome.1 with
  | .error .bufferTooSmall => answer = .ok () ∧ after = outcome.2.log .debug .stmm
  | result => answer = result ∧ after = outcome.2

theorem Settles.of_small {outcome : Except Error Unit × Machine ω} {answer : Except Error Unit} {after : Machine ω}
    (settles : Settles outcome answer after) (small : outcome.1 = .error .bufferTooSmall) :
    answer = .ok () ∧ after = outcome.2.log .debug .stmm := by
  simpa only [Settles, small] using settles

theorem settles_settle (outcome : Except Error Unit × Machine ω) :
    Settles outcome (Dispatch.settle outcome).1 (Dispatch.settle outcome).2 := by
  obtain ⟨result, left⟩ := outcome
  by_cases small : result = .error .bufferTooSmall
  · subst small
    exact ⟨rfl, rfl⟩
  · rw [Dispatch.settle_of_ne small]
    unfold Settles
    split
    next same => exact absurd same small
    · exact ⟨rfl, rfl⟩

/-- What a partial map answers to a request, and what it is then. A message is put on record with its body
and handed to the handler of its recipient, which works on the body in place and decides the answer. -/
def Obeys (d : Dispatcher ω) (request : Request ω) : Prop :=
  let answer := (d.perform request).1
  let after := (d.perform request).2
  match request with
  | .register recipient handler =>
    match d.handlers.find? recipient with
    | none => answer = .ok () ∧
        after.handlers.find? = Function.update d.handlers.find? recipient (some handler)
    | some _ => answer = .error .alreadyStarted ∧ after.handlers = d.handlers
  | .unregister recipient =>
    match d.handlers.find? recipient with
    | none => answer = .error .notFound ∧ after = d
    | some _ => answer = .ok () ∧ after.handlers.find? = Function.update d.handlers.find? recipient none
  | .dispatch base message =>
    let recipient := Message.recipient message
    let held := d.holding base message
    after.handlers = d.handlers ∧
      if Message.Whole message then
        match d.handlers.find? recipient with
        | none => answer = .error .notFound ∧ after.machine = held.log .warn .stmm
        | some handler =>
          let length := Message.total message - 24
          let entry : List Event := [.log .debug .stmm, .handler recipient ((message.drop 24).take length)]
          Settles (handler ⟨base + 24, length⟩ (held.append entry)) answer after.machine
      else answer = .error .invalidParameter ∧ after.machine = held.append (Dispatch.refusal message)

variable {d : Dispatcher ω}

theorem Obeys.reaches {base : Nat} {message : Bytes} {handler : Handler ω}
    (obeys : d.Obeys (.dispatch base message)) (whole : Message.Whole message)
    (bound : d.handlers.find? (Message.recipient message) = some handler) :
    let length := Message.total message - 24
    let entry : List Event :=
      [.log .debug .stmm, .handler (Message.recipient message) ((message.drop 24).take length)]
    Settles (handler ⟨base + 24, length⟩ ((d.holding base message).append entry))
      (d.perform (.dispatch base message)).1 (d.perform (.dispatch base message)).2.machine := by
  have reached := obeys.2
  rwa [if_pos whole, bound] at reached

theorem body_holding (d : Dispatcher ω) (base : Nat) {message : Bytes}
    (inside : Message.total message ≤ message.length) :
    let length := Message.total message - MessageHeader.size
    (d.holding base message).memory.loadSpan ⟨base + MessageHeader.size, length⟩ =
      (message.drop MessageHeader.size).take length := by
  intro length
  have content : (d.holding base message).memory.load base message.length = message := Memory.load_store ..
  have within : length ≤ message.length - MessageHeader.size := by omega
  rw [← content, Memory.drop_load, Memory.take_load, Nat.min_eq_left within, content]
  rfl

theorem perform_unique (unique : d.handlers.Unique) (request : Request ω) :
    (d.perform request).2.handlers.Unique := by
  cases request with
  | register recipient handler =>
    cases bound : d.handlers.find? recipient with
    | none =>
      simp only [perform, Registry.register_unbound bound]
      exact unique.append bound handler
    | some other =>
      simp only [perform, Registry.register_bound bound]
      exact unique
  | unregister recipient =>
    cases bound : d.handlers.find? recipient with
    | none =>
      simp only [perform, Registry.unregister_unbound bound]
      exact unique
    | some other =>
      simp only [perform, Registry.unregister_bound bound]
      exact unique.erase recipient
  | dispatch base message => exact unique

theorem after_unique (unique : d.handlers.Unique) (history : List (Request ω)) :
    (d.after history).handlers.Unique := by
  induction history generalizing d with
  | nil => exact unique
  | cons request rest ih => exact ih (perform_unique unique request)

theorem perform_obeys (unique : d.handlers.Unique) (request : Request ω) : d.Obeys request := by
  cases request with
  | register recipient handler =>
    cases bound : d.handlers.find? recipient with
    | none =>
      simp only [Obeys, perform, bound, Registry.register_unbound bound, true_and]
      exact Registry.find?_append bound handler
    | some other => simp only [Obeys, perform, bound, Registry.register_bound bound, and_self]
  | unregister recipient =>
    cases bound : d.handlers.find? recipient with
    | none => simp only [Obeys, perform, bound, Registry.unregister_unbound bound, and_self]
    | some other =>
      simp only [Obeys, perform, bound, Registry.unregister_bound bound, true_and]
      exact Registry.find?_erase unique recipient
  | dispatch base message =>
    have content : (d.holding base message).memory.loadSpan ⟨base, message.length⟩ = message :=
      Memory.load_store ..
    refine ⟨rfl, ?_⟩
    split
    next whole =>
      have reached := Dispatch.dispatch_whole d.handlers ⟨base, message.length⟩ (content.symm ▸ whole)
      simp only [content] at reached
      cases bound : d.handlers.find? (Message.recipient message) with
      | none =>
        rw [bound] at reached
        exact ⟨congrArg Prod.fst reached, congrArg Prod.snd reached⟩
      | some handler =>
        let length := Message.total message - MessageHeader.size
        let entry : List Event := [.log .debug .stmm,
          .handler (Message.recipient message) ((message.drop MessageHeader.size).take length)]
        have entered : Dispatch.dispatch d.handlers ⟨base, message.length⟩ (d.holding base message) =
            Dispatch.settle (handler ⟨base + MessageHeader.size, length⟩ ((d.holding base message).append entry)) := by
          rw [reached, bound]
          simp only [Dispatch.enter, body_holding d base whole.2, entry, length]
        simp only [perform, entered]
        exact settles_settle _
    next broken =>
      have turned := Dispatch.dispatch_broken d.handlers ⟨base, message.length⟩ (content.symm ▸ broken)
      rw [content] at turned
      exact ⟨congrArg Prod.fst turned, congrArg Prod.snd turned⟩

/-- Whether a request can change who answers for a recipient. -/
def Request.concerns (recipient : Guid) : Request ω → Bool
  | .register other _ | .unregister other => recipient = other
  | .dispatch .. => false

/-- What a request makes of the binding of one recipient. -/
def Request.rebind (recipient : Guid) (bound : Option (Handler ω)) : Request ω → Option (Handler ω)
  | .register other handler => if recipient = other then bound <|> some handler else bound
  | .unregister other => if recipient = other then none else bound
  | .dispatch .. => bound

namespace Request

variable {recipient : Guid} {bound : Option (Handler ω)} {handler : Handler ω}

theorem rebind_of_not_concerns {request : Request ω} (other : request.concerns recipient = false) :
    request.rebind recipient bound = bound := by
  cases request with
  | register | unregister => exact if_neg (of_decide_eq_false other)
  | dispatch => rfl

theorem rebind_eq_some_iff {request : Request ω} :
    request.rebind recipient bound = some handler ↔
      bound = some handler ∧ request ≠ .unregister recipient ∨
        bound = none ∧ request = .register recipient handler := by
  cases request with
  | register other new =>
    by_cases here : recipient = other <;> cases bound <;> simp [rebind, here, eq_comm]
  | unregister other => by_cases here : recipient = other <;> simp [rebind, here, eq_comm]
  | dispatch => simp [rebind]

end Request

theorem find?_perform (unique : d.handlers.Unique) (request : Request ω) (recipient : Guid) :
    (d.perform request).2.handlers.find? recipient =
      request.rebind recipient (d.handlers.find? recipient) := by
  have obeys := perform_obeys unique request
  cases request with
  | register other handler =>
    rw [Request.rebind]
    cases bound : d.handlers.find? other with
    | none =>
      simp only [Obeys, bound] at obeys
      rw [obeys.2, Function.update_apply]
      split
      next here => simp [here, bound]
      next => rfl
    | some old =>
      simp only [Obeys, bound] at obeys
      rw [obeys.2]
      split
      next here => simp [here, bound]
      next => rfl
  | unregister other =>
    rw [Request.rebind]
    cases bound : d.handlers.find? other with
    | none =>
      simp only [Obeys, bound] at obeys
      rw [obeys.2]
      split
      next here => simp [here, bound]
      next => rfl
    | some old =>
      simp only [Obeys, bound] at obeys
      rw [obeys.2, Function.update_apply]
  | dispatch base message => rfl

/-- The binding of a recipient is made by the requests that concern it, in their order. -/
theorem find?_after (unique : d.handlers.Unique) (history : List (Request ω)) (recipient : Guid) :
    (d.after history).handlers.find? recipient =
      (history.filter (·.concerns recipient)).foldl (Request.rebind recipient)
        (d.handlers.find? recipient) := by
  induction history generalizing d with
  | nil => rfl
  | cons request rest ih =>
    have stepped := ih (perform_unique unique request)
    rw [find?_perform unique] at stepped
    cases concerned : request.concerns recipient with
    | true => rwa [List.filter_cons_of_pos concerned]
    | false =>
      rw [Request.rebind_of_not_concerns concerned] at stepped
      rwa [List.filter_cons_of_neg (by simp [concerned])]

/-- The handler was registered in the course of a history, and its recipient not removed since. -/
def Standing (d : Dispatcher ω) (history : List (Request ω)) (recipient : Guid) (handler : Handler ω) : Prop :=
  ∃ before since, history = before ++ .register recipient handler :: since ∧
    ((d.after before).perform (.register recipient handler)).1 = .ok () ∧ .unregister recipient ∉ since

theorem register_ok_iff {recipient : Guid} {handler : Handler ω} :
    (d.perform (.register recipient handler)).1 = .ok () ↔ d.handlers.find? recipient = none := by
  cases bound : d.handlers.find? recipient with
  | none => simp [perform, Registry.register_unbound bound]
  | some other => simp [perform, Registry.register_bound bound]

theorem not_standing_nil (recipient : Guid) (handler : Handler ω) : ¬ d.Standing [] recipient handler := by
  rintro ⟨before, since, split, _⟩
  simp at split

theorem standing_concat {history : List (Request ω)} {request : Request ω} {recipient : Guid}
    {handler : Handler ω} : d.Standing (history ++ [request]) recipient handler ↔
      d.Standing history recipient handler ∧ request ≠ .unregister recipient ∨
        (d.after history).handlers.find? recipient = none ∧ request = .register recipient handler := by
  constructor
  · rintro ⟨before, since, split, accepted, kept⟩
    rcases List.eq_nil_or_concat since with rfl | ⟨earlier, last, rfl⟩
    · obtain ⟨rfl, ⟨⟩⟩ := List.append_inj' split rfl
      exact .inr ⟨register_ok_iff.mp accepted, rfl⟩
    · rw [List.concat_eq_append, ← List.cons_append, ← List.append_assoc] at split
      obtain ⟨rfl, ⟨⟩⟩ := List.append_inj' split rfl
      simp only [List.concat_eq_append, List.mem_append, List.mem_singleton, not_or] at kept
      exact .inl ⟨⟨before, earlier, rfl, accepted, kept.1⟩, Ne.symm kept.2⟩
  · rintro (⟨⟨before, since, rfl, accepted, kept⟩, spared⟩ | ⟨unbound, rfl⟩)
    · refine ⟨before, since ++ [request], by simp, accepted, ?_⟩
      simpa [kept] using spared.symm
    · exact ⟨history, [], rfl, register_ok_iff.mpr unbound, by simp⟩

theorem find?_after_eq_some_iff (unique : d.handlers.Unique) {recipient : Guid}
    (unbound : d.handlers.find? recipient = none) (history : List (Request ω)) (handler : Handler ω) :
    (d.after history).handlers.find? recipient = some handler ↔ d.Standing history recipient handler := by
  induction history using List.reverseRecOn with
  | nil => simpa [after, unbound] using not_standing_nil recipient handler
  | append_singleton history request ih =>
    rw [after_concat, find?_perform (after_unique unique history), Request.rebind_eq_some_iff, ih,
      standing_concat]

/-- However a dispatcher came about, it holds one entry for each recipient that is bound and answers
every request as a partial map does. A recipient is bound to the handler whose registration stands, and
the requests that concern other recipients have no part in that. -/
theorem after_partial_map (history : List (Request ω)) (m : Machine ω) :
    let fresh : Dispatcher ω := { machine := m }
    let d := fresh.after history
    d.handlers.Unique ∧
      (∃ bound : Finset Guid, (∀ recipient, recipient ∈ bound ↔ d.handlers.find? recipient ≠ none) ∧
        d.handlers.size = bound.card) ∧
      (d.handlers.isEmpty = true ↔ d.handlers.size = 0) ∧
      (∀ request, d.Obeys request) ∧
      (∀ recipient handler,
        d.handlers.find? recipient = some handler ↔ fresh.Standing history recipient handler) ∧
      ∀ recipient (others : List (Request ω)) (m' : Machine ω),
        others.filter (·.concerns recipient) = history.filter (·.concerns recipient) →
          (after { machine := m' } others).handlers.find? recipient = d.handlers.find? recipient := by
  intro fresh d
  have unique : d.handlers.Unique := after_unique Registry.unique_empty history
  refine ⟨unique, ⟨d.handlers.recipients.toFinset, fun recipient => ?_, Registry.size_eq_card unique⟩,
    Registry.isEmpty_iff, perform_obeys unique,
    fun recipient => find?_after_eq_some_iff Registry.unique_empty rfl history, ?_⟩
  · rw [List.mem_toFinset, ne_eq, Registry.find?_eq_none_iff, not_not]
  · intro recipient others m' same
    have here := find?_after (d := fresh) Registry.unique_empty history recipient
    have there := find?_after (d := { machine := m' }) Registry.unique_empty others recipient
    exact there.trans (same ▸ here.symm)

/-- A handler that leaves the body as it is, and one that inverts it and then asks for more room. -/
def keeping : Handler Unit := .onBody fun body => (.ok (), body)

def inverting : Handler Unit := .onBody fun body => (.error .bufferTooSmall, body.map (~~~ ·))

/-- A second registration is refused; once the first is removed, a third one stands and gets the message. -/
theorem after_partial_map_replaced :
    let g : Guid := ⟨1, 2, 3, 4⟩
    let d := after { machine := { rest := () } }
      [.register g keeping, .register g inverting, .unregister g, .register g inverting]
    let message := MessageHeader.encode ⟨g, 2⟩ ++ [0x0F, 0x01, 0x55]
    d.handlers.find? g = some inverting ∧ (d.perform (.dispatch 0x1000 message)).1 = .ok () ∧
      (d.perform (.dispatch 0x1000 message)).2.machine.memory.load 0x1018 3 = [0xF0, 0xFE, 0x55] := by
  intro g d message
  obtain ⟨_, _, _, (obeys : ∀ request, d.Obeys request), standing, _⟩ := after_partial_map
    [.register g keeping, .register g inverting, .unregister g, .register g inverting] { rest := () }
  have bound : d.handlers.find? g = some inverting :=
    (standing g inverting).mpr ⟨[_, _, _], [], rfl, rfl, List.not_mem_nil⟩
  have addressed : Message.recipient message = g := by decide
  have reaches := (obeys (.dispatch 0x1000 message)).reaches (by decide) (addressed.symm ▸ bound)
  obtain ⟨answer, left⟩ := reaches.of_small rfl
  have memory := congrArg Machine.memory left
  refine ⟨bound, answer, ?_⟩
  rw [memory]
  decide +kernel

end Dispatcher
end StandaloneMm
