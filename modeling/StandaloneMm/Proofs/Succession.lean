import StandaloneMm.Proofs.Exclusion

/-! A partition that is handed one event after the other. The completion of an event is the call that
waits for the next one, so the calls of a run are the completions in the order of the events, behind the
one that ends initialization. -/
namespace StandaloneMm

open Journal

variable {α σ : Type}

/-- What the other side does while the partition waits: it changes memory and hands over an event. -/
structure Delivery where
  change : Memory → Memory
  event : Registers

def Monitor.delivering : Monitor (List Delivery × σ) where
  call := fun _ m =>
    match m.rest.1 with
    | [] => ({}, m)
    | d :: due => (d.event, { m with memory := d.change m.memory, rest := (due, m.rest.2) })
  patience := fun _ => 0

/-- Two machines on which an event comes to the same, with the same handlers entered before. -/
structure Abreast (m other : Machine (α × σ)) : Prop where
  view : m.view = other.view
  serving : m.serving = other.serving
  invocations : invocations m.journal = invocations other.journal

theorem Abreast.change {m other : Machine (α × σ)} (abreast : Abreast m other) (change : Memory → Memory) :
    Abreast { m with memory := change m.memory } { other with memory := change other.memory } where
  view := by
    obtain ⟨memory, own⟩ := View.mk.inj abreast.view
    simp only [Machine.view, memory, own]
  serving := abreast.serving
  invocations := abreast.invocations

namespace EventLoop

/-- The completions of events that are handled one after the other, without waiting for them. -/
def handleAll (loop : EventLoop (α × σ)) : List Delivery → Machine (α × σ) → List Registers × Machine (α × σ)
  | [], m => ([], m)
  | d :: due, m =>
    let (completion, m) := loop.handleEvent d.event { m with memory := d.change m.memory }
    let (completions, m) := handleAll loop due m
    (completion :: completions, m)

/-- Calls and their answers when each call is the completion of the event before it. -/
def conversation : Registers → List Delivery → List Registers → List Event
  | previous, d :: due, completion :: completions =>
    .call previous :: .ret d.event :: conversation completion due completions
  | previous, _, _ => [.call previous]

variable {loop : EventLoop (α × σ)} {programs : Registry (Span → Program σ)} {m other : Machine (α × σ)}

theorem handleEvent_abreast (runs : Runs loop programs) (event : Registers) (abreast : Abreast m other) :
    (loop.handleEvent event m).1 = (loop.handleEvent event other).1 ∧
      Abreast (loop.handleEvent event m).2 (loop.handleEvent event other).2 := by
  have together : other.serving = m.serving := abreast.serving.symm
  cases inside : m.serving with
  | true =>
    rw [handleEvent_denies loop event m inside, handleEvent_denies loop event other (together.trans inside)]
    exact ⟨rfl, abreast⟩
  | false =>
    rw [handleEvent_programs runs event inside, handleEvent_programs runs event (together.trans inside),
      abreast.view]
    exact ⟨rfl, rfl, abreast.serving, by
      simp only [Machine.reacted, Machine.append, invocations_append]
      exact congrArg (· ++ _) abreast.invocations⟩

theorem handleEvent_apart (runs : Runs loop programs) (event : Registers) (m : Machine (α × σ)) :
    traffic (loop.handleEvent event m).2.journal = traffic m.journal ∧
      (loop.handleEvent event m).2.rest.1 = m.rest.1 := by
  cases inside : m.serving with
  | true =>
    rw [handleEvent_denies loop event m inside]
    exact ⟨rfl, rfl⟩
  | false =>
    rw [handleEvent_programs runs event inside]
    refine ⟨?_, rfl⟩
    have grown : traffic (m.reacted (reaction loop.abi loop.buffer programs event m.view)).journal =
        traffic m.journal ++ traffic (reaction loop.abi loop.buffer programs event m.view).events :=
      traffic_append ..
    rw [grown, (alone_reaction ..).traffic, List.append_nil]

end EventLoop

def Machine.delivered (m : Machine (List Delivery × σ)) (previous : Registers) (d : Delivery)
    (due : List Delivery) : Machine (List Delivery × σ) :=
  { m with memory := d.change m.memory, rest := (due, m.rest.2) }.append [.call previous, .ret d.event]

theorem Abreast.delivered {m other : Machine (List Delivery × σ)} (abreast : Abreast m other)
    (previous : Registers) (d : Delivery) (due : List Delivery) :
    Abreast (m.delivered previous d due) { other with memory := d.change other.memory } where
  view := (abreast.change d.change).view
  serving := abreast.serving
  invocations := by
    rw [← abreast.invocations]
    exact (invocations_append ..).trans (List.append_nil _)

namespace EventLoop

variable {loop : EventLoop (List Delivery × σ)} {programs : Registry (Span → Program σ)}
  {m other : Machine (List Delivery × σ)} {d : Delivery} {events due : List Delivery}

theorem step_delivering (loop : EventLoop (List Delivery × σ)) (previous : Registers)
    (next : m.rest.1 = d :: due) :
    loop.step Monitor.delivering previous m = loop.handleEvent d.event (m.delivered previous d due) := by
  simp only [step, Machine.trap, Monitor.delivering, Machine.record, Machine.append, next, Machine.delivered]
  simp

/-- A run beside the handling of the same events: each step of the one is a step of the other. -/
theorem run_abreast (runs : Runs loop programs) (previous : Registers) (abreast : Abreast m other)
    (queue : m.rest.1 = events ++ due) :
    let (completions, handled) := loop.handleAll events other
    let after := loop.run Monitor.delivering events.length previous m
    Abreast after handled ∧ completions.length = events.length ∧ after.rest.1 = due ∧
      traffic after.journal = traffic m.journal ++ conversation previous events completions := by
  induction events generalizing previous m other with
  | nil =>
    refine ⟨⟨abreast.view, abreast.serving, ?_⟩, rfl, queue, traffic_append ..⟩
    rw [← abreast.invocations]
    exact (invocations_append ..).trans (List.append_nil _)
  | cons d rest ih =>
    have next : m.rest.1 = d :: (rest ++ due) := queue
    let now := m.delivered previous d (rest ++ due)
    have handed : Abreast now _ := abreast.delivered previous d (rest ++ due)
    obtain ⟨answer, further⟩ := handleEvent_abreast runs d.event handed
    obtain ⟨silent, waits⟩ := handleEvent_apart runs d.event now
    obtain ⟨together, length, left, talk⟩ := ih (loop.handleEvent d.event now).1 further waits
    have asked : traffic now.journal = traffic m.journal ++ [.call previous, .ret d.event] := traffic_append ..
    simp only [handleAll, run, List.length_cons, step_delivering loop previous next]
    refine ⟨together, congrArg Nat.succ length, left, talk.trans ?_⟩
    rw [silent, asked, answer, List.append_assoc]
    rfl

theorem calls_conversation {completions : List Registers} (previous : Registers)
    (each : completions.length = events.length) :
    calls (conversation previous events completions) = previous :: completions := by
  induction events generalizing previous completions with
  | nil =>
    obtain rfl := List.length_eq_zero_iff.mp each
    rfl
  | cons d rest ih =>
    obtain ⟨completion, others, rfl⟩ := List.exists_cons_of_length_eq_add_one each
    exact congrArg (previous :: ·) (ih completion (Nat.succ.inj each))

theorem handleAll_append (loop : EventLoop (List Delivery × σ)) (m : Machine (List Delivery × σ)) :
    loop.handleAll (events ++ due) m =
      ((loop.handleAll events m).1 ++ (loop.handleAll due (loop.handleAll events m).2).1,
        (loop.handleAll due (loop.handleAll events m).2).2) := by
  induction events generalizing m with
  | nil => rfl
  | cons d rest ih => simp only [List.cons_append, handleAll, ih]

/-- The registers that complete an event with this status. -/
def completed (abi : PartitionAbi) (status : Int) : Registers :=
  match abi with
  | .ffa _ => { x0 := FunctionId.ffaDirectResponse, x3 := FunctionId.spEventComplete, x4 := UInt64.ofInt status }
  | .spm => { x0 := FunctionId.spEventComplete, x1 := UInt64.ofInt status }

theorem initialCompletion_eq (abi : PartitionAbi) (init : Except Error Unit) :
    initialCompletion abi init = match abi with
      | .ffa true => { x0 := FunctionId.ffaMsgWait }
      | abi => completed abi (match init with
        | .error .unsupported => -1
        | .error .invalidParameter => -2
        | .error .notFound => -7
        | _ => 0) := by
  have code : initCode init = match init with
      | .error .unsupported => -1
      | .error .invalidParameter => -2
      | .error .notFound => -7
      | _ => 0 := by
    cases init with
    | ok => rfl
    | error e => cases e <;> rfl
  rw [← code]
  cases abi with
  | ffa only => cases only <;> rfl
  | spm => rfl

theorem handleEvent_completed (loop : EventLoop (α × σ)) (event : Registers) (m : Machine (α × σ)) :
    (loop.handleEvent event m).1 = completed loop.abi (statusOf (loop.serve event m).1).code := by
  have registers (abi : PartitionAbi) (s : MmStatus) : completion abi s.register = completed abi s.code := by
    cases abi <;> rfl
  exact registers loop.abi (statusOf (loop.serve event m).1)

/-- The calls of a run are the call that ends initialization and one completion for each event, in the
order of the events. Each is what the event comes to on the machine as the run has left it and the other
side has changed it, and the handlers are entered as if nobody had waited in between. -/
theorem run_in_order (loop : EventLoop (List Delivery × σ)) (programs : Registry (Span → Program σ))
    (same : loop.handlers = programs.map (Program.handler loop.handleEvent)) (init : Except Error Unit)
    (m : Machine (List Delivery × σ)) :
    let first := initialCompletion loop.abi init
    let completions := (loop.handleAll m.rest.1 m).1
    let handled := (loop.handleAll m.rest.1 m).2
    let runFor (n : Nat) := loop.run Monitor.delivering n first m
    let after := runFor m.rest.1.length
    (first = match loop.abi with
      | .ffa true => { x0 := FunctionId.ffaMsgWait }
      | abi => completed abi (match init with
        | .error .unsupported => -1
        | .error .invalidParameter => -2
        | .error .notFound => -7
        | _ => 0)) ∧
    calls after.journal = calls m.journal ++ first :: completions ∧
    traffic after.journal = traffic m.journal ++ conversation first m.rest.1 completions ∧
    completions.length = m.rest.1.length ∧
    (∀ before d later, m.rest.1 = before ++ d :: later →
      let now := runFor before.length
      let handed := { now with memory := d.change now.memory }
      completions[before.length]? = some (loop.handleEvent d.event handed).1 ∧
        (loop.handleEvent d.event handed).1 =
          completed loop.abi (statusOf (loop.serve d.event handed).1).code) ∧
    invocations after.journal = invocations handled.journal ∧ after.view = handled.view := by
  intro first
  have runs : Runs loop programs := ⟨loop.handleEvent, same, handleEvent_denies loop⟩
  have start : Abreast m m := ⟨rfl, rfl, rfl⟩
  have all : m.rest.1 = m.rest.1 ++ [] := (List.append_nil _).symm
  obtain ⟨abreast, each, _, talk⟩ := run_abreast runs first start all
  have made : calls (loop.run Monitor.delivering m.rest.1.length first m).journal =
      calls m.journal ++ first :: (loop.handleAll m.rest.1 m).1 := by
    rw [← calls_traffic, talk, calls_append, calls_traffic, calls_conversation first each]
  refine ⟨initialCompletion_eq loop.abi init, made, talk, each, ?_, abreast.invocations, abreast.view⟩
  intro before d later queue now handed
  refine ⟨?_, handleEvent_completed loop d.event handed⟩
  obtain ⟨abreast, each, _⟩ := run_abreast runs first start queue
  have answer := (handleEvent_abreast runs d.event (abreast.change d.change)).1
  rw [queue, handleAll_append, answer, ← each]
  simp [handleAll]

theorem run_in_order_of_insistent :
    let message := MessageHeader.encode ⟨⟨1, 2, 3, 4⟩, 2⟩ ++ [0x0F, 0x01]
    let m : Machine (List Delivery × Unit) :=
      { rest := ([⟨fun memory => memory.store 0x1000 message, { x1 := 0x1000 }⟩, ⟨id, { x1 := 0x2000 }⟩], ()) }
    let loop : EventLoop (List Delivery × Unit) := reentrant .spm (.identityMapped 0x1000 0x40) insistent 2
    let after := loop.run Monitor.delivering 2 (initialCompletion .spm (.error .notFound)) m
    loop.handlers = insistent.map (Program.handler loop.handleEvent) ∧
      calls after.journal = [-7, -5, -3].map (fun code =>
        { x0 := FunctionId.spEventComplete, x1 := UInt64.ofInt code }) ∧
      invocations after.journal = [(⟨1, 2, 3, 4⟩, [0x0F, 0x01])] := by
  intro message m loop after
  have same : loop.handlers = insistent.map (Program.handler loop.handleEvent) := handlers_reentrant ..
  obtain ⟨_, made, _, _, _, entered, _⟩ := run_in_order loop insistent same (.error .notFound) m
  refine ⟨same, made.trans ?_, entered.trans ?_⟩
  · decide +kernel
  · decide +kernel

end EventLoop
end StandaloneMm
