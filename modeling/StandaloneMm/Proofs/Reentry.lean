import StandaloneMm.Proofs.Operation

/-! Operations that are run from inside a call. While an exchange holds the session, whatever is tried
with it is turned away and leaves nothing but notes, so the exchange goes on as if nobody had tried. -/
namespace StandaloneMm

open Journal

variable {ω : Type}

/-- What may be tried with a session at any time. -/
inductive Contender where
  | communicate (message : Bytes) (capacity : Option UInt64)
  | errand (e : Errand)
  | remap (convert : Converter)

def Contender.operation : Contender → Operation
  | communicate message capacity => .communicate message capacity
  | errand e => .errand e
  | remap convert => .remap convert

/-- Nothing has become of a machine but notes of the session. -/
def OnlyNotes (h after : Machine ω) : Prop := ∃ events, Notes events ∧ after = h.append events

namespace OnlyNotes

variable {h after : Machine ω} {events : List Event}

theorem refl (h : Machine ω) : OnlyNotes h h := ⟨[], notes_nil, by simp [Machine.append]⟩

theorem thenNotes (only : OnlyNotes h after) (notes : Notes events) : OnlyNotes h (after.append events) := by
  obtain ⟨earlier, noted, rfl⟩ := only
  exact ⟨earlier ++ events, noted.append notes, by simp [Machine.append]⟩

theorem session (only : OnlyNotes h after) : after.session = h.session := by
  obtain ⟨_, _, rfl⟩ := only
  rfl

end OnlyNotes

namespace Transport

open Admission

variable {h : Machine ω}

theorem communicate_held (monitor : Monitor ω) (message : Bytes) (capacity : Option UInt64)
    (held : h.session.inUse = true) : OnlyNotes h (communicate monitor message capacity h).2 :=
  communicate_unsent (.inl held)

theorem exchange_held (monitor : Monitor ω) (message : Bytes) (capacity : Option UInt64)
    (held : h.session.inUse = true) :
    let exchange := (communicate monitor message capacity h).1
    match screen h.session.buffer.length message capacity with
    | .ok _ => exchange = ⟨.error (.error .accessDenied), message, capacity⟩
    | .error refusal => exchange.result = .error (.error refusal.error) ∧
        exchange = (communicate monitor message capacity (letGo h)).1 := by
  intro exchange
  split
  next total screened => exact congrArg Prod.fst (communicate_denied screened held)
  next refusal turned =>
    have outside : screen (letGo h).session.buffer.length message capacity = .error refusal := turned
    have here : exchange = refusal.exchange h.session.buffer.length message capacity :=
      congrArg Prod.fst (communicate_refused turned)
    refine ⟨congrArg Exchange.result here, ?_⟩
    rw [here, communicate_refused outside]
    rfl

end Transport

section

variable {inner : Monitor ω} {h : Machine ω}

theorem Contender.perform_held (contender : Contender) (held : h.session.inUse = true) :
    OnlyNotes h (contender.operation.perform inner h).2 := by
  cases contender with
  | communicate message capacity => exact Transport.communicate_held inner message capacity held
  | errand e =>
    have noted : Noted (OnlyNotes h) := fun _ _ notes only => only.thenNotes notes
    have keeps : Channel.Keeps (Transport.communicate inner) (OnlyNotes h) := by
      intro message capacity m only
      have still : m.session.inUse = true := by rw [only.session, held]
      obtain ⟨events, notes, more⟩ := Transport.communicate_held inner message capacity still
      rw [more]
      exact only.thenNotes notes
    exact e.run_keeps noted keeps (.refl h)
  | remap convert =>
    have refused : Lifecycle.remapBuffer convert h = h.log .error .mmComm := if_pos held
    change OnlyNotes h (Lifecycle.remapBuffer convert h)
    rw [refused]
    exact (OnlyNotes.refl h).thenNotes notes_log

theorem Contender.performAll_held (contenders : List Contender) (held : h.session.inUse = true) :
    Operation.performAll inner (contenders.map operation) h =
      (contenders.map fun contender => (h.observe (contender.operation.perform inner)).1, h) := by
  induction contenders with
  | nil => rfl
  | cons contender rest ih =>
    have begun : { h with journal := [] }.session.inUse = true := held
    obtain ⟨events, _, tried⟩ :
        OnlyNotes { h with journal := [] } (contender.operation.perform inner { h with journal := [] }).2 :=
      contender.perform_held begun
    have ran : contender.operation.perform inner { h with journal := [] } =
        (_, { h with journal := [] }.append events) := Prod.ext rfl tried
    have noted := Machine.observe_append ran
    rw [List.map_cons, Operation.performAll_cons noted, ih, List.map_cons, noted]

end

/-- The part of a machine that lies outside the session and its journal. -/
structure Outside (ω : Type) where
  memory : Memory
  manager : Manager
  serving : Bool
  rest : ω

def Machine.outside (m : Machine ω) : Outside ω := ⟨m.memory, m.manager, m.serving, m.rest⟩

def Machine.withOutside (m : Machine ω) (o : Outside ω) : Machine ω :=
  { m with memory := o.memory, manager := o.manager, serving := o.serving, rest := o.rest }

/-- What happens inside a call: the other side takes a step of its own, or operations of the session
are run. -/
inductive Turn (ω : Type) where
  | own (step : Outside ω → Outside ω)
  | nested (contenders : List Contender)

namespace Turn

def isOwn : Turn ω → Bool
  | own _ => true
  | nested _ => false

/-- The calls of nested operations, if they make any, go to a world of their own. -/
def take (inner : Monitor ω) (m : Machine ω) : Turn ω → Machine ω
  | own step => m.withOutside (step m.outside)
  | nested contenders =>
    let (entries, m) := Operation.performAll inner (contenders.map Contender.operation) m
    m.record (.nested entries)

end Turn

/-- Another side of which nothing is known: at every call it chooses what happens inside, and when
that is over it answers. -/
structure Counterpart (ω : Type) where
  turns : Registers → Outside ω → List (Turn ω)
  answer : Registers → Outside ω → Registers
  patience : Outside ω → Nat

namespace Counterpart

def monitor (c : Counterpart ω) (inner : Monitor ω) : Monitor ω where
  call := fun call m =>
    let m := (c.turns call m.outside).foldl (Turn.take inner) m
    (c.answer call m.outside, m)
  patience := fun m => c.patience m.outside

/-- The same side without the operations inside its calls. -/
def alone (c : Counterpart ω) : Counterpart ω :=
  { c with turns := fun call o => (c.turns call o).filter Turn.isOwn }

end Counterpart

/-- Operations that were run on a machine with this session, and left it as it was. -/
def Inside (inner : Monitor ω) (s : Session) (entries : List (Answer × List Event)) : Prop :=
  ∃ (contenders : List Contender) (h : Machine ω), h.session = s ∧
    Operation.performAll inner (contenders.map Contender.operation) h = (entries, h)

/-- A machine with operations inside its calls, beside the one without them. -/
structure Shadow (inner : Monitor ω) (s : Session) (start : List Event) (a b : Machine ω) : Prop where
  session : a.session = s
  same : b = { a with journal := b.journal }
  calls : calls b.journal = calls a.journal
  inside : ∀ entries, .nested entries ∈ a.journal → .nested entries ∈ start ∨ Inside inner s entries

namespace Shadow

variable {inner : Monitor ω} {s : Session} {start events : List Event} {a b : Machine ω}

theorem append (shadow : Shadow inner s start a b) (flat : ∀ entries, .nested entries ∉ events) :
    Shadow inner s start (a.append events) (b.append events) where
  session := shadow.session
  same := by
    rw [shadow.same]
    rfl
  calls := by simp only [Machine.append, calls_append, shadow.calls]
  inside entries member := by
    rcases List.mem_append.mp member with before | now
    · exact shadow.inside entries before
    · exact absurd now (flat entries)

theorem outside (shadow : Shadow inner s start a b) : b.outside = a.outside := by
  rw [shadow.same]
  rfl

theorem takeOwn (shadow : Shadow inner s start a b) (step : Outside ω → Outside ω) :
    Shadow inner s start ((Turn.own step).take inner a) ((Turn.own step).take inner b) where
  session := shadow.session
  same := by
    simp only [Turn.take, shadow.outside]
    rw [shadow.same]
    rfl
  calls := shadow.calls
  inside := shadow.inside

theorem takeNested (shadow : Shadow inner s start a b) (held : s.inUse = true)
    (contenders : List Contender) :
    Shadow inner s start ((Turn.nested contenders).take inner a) b := by
  have inUse : a.session.inUse = true := by rw [shadow.session, held]
  obtain ⟨entries, ran⟩ : ∃ entries,
      Operation.performAll inner (contenders.map Contender.operation) a = (entries, a) :=
    ⟨_, Contender.performAll_held contenders inUse⟩
  have taken : (Turn.nested contenders).take inner a = a.record (.nested entries) := by
    simp only [Turn.take, ran]
  rw [taken]
  refine ⟨shadow.session, shadow.same, ?_, fun others member => ?_⟩
  · rw [shadow.calls, Machine.record, Machine.append, calls_append]
    exact (List.append_nil _).symm
  · rcases List.mem_append.mp member with before | now
    · exact shadow.inside others before
    · obtain rfl : others = entries := by simpa using now
      exact .inr ⟨contenders, a, shadow.session, ran⟩

theorem turns (held : s.inUse = true) (turns : List (Turn ω)) (shadow : Shadow inner s start a b) :
    Shadow inner s start (turns.foldl (Turn.take inner) a)
      ((turns.filter Turn.isOwn).foldl (Turn.take inner) b) := by
  induction turns generalizing a b with
  | nil => exact shadow
  | cons turn rest ih =>
    cases turn with
    | own step => exact ih (shadow.takeOwn step)
    | nested contenders => exact ih (shadow.takeNested held contenders)

end Shadow

/-- The same result beside two machines that are each other's shadows. -/
def Shadowed {α : Type} (inner : Monitor ω) (s : Session) (start : List Event) (a b : α × Machine ω) : Prop :=
  a.1 = b.1 ∧ Shadow inner s start a.2 b.2

namespace Counterpart

variable {inner : Monitor ω} {s : Session} {start : List Event} {a b : Machine ω}
  (c : Counterpart ω) (held : s.inUse = true)

include held

theorem call_shadowed (call : Registers) (shadow : Shadow inner s start a b) :
    Shadowed inner s start ((c.monitor inner).call call a) ((c.alone.monitor inner).call call b) := by
  have turned := shadow.turns held (c.turns call a.outside)
  have same : (c.alone.monitor inner).call call b = (c.answer call
      (((c.turns call a.outside).filter Turn.isOwn).foldl (Turn.take inner) b).outside,
      ((c.turns call a.outside).filter Turn.isOwn).foldl (Turn.take inner) b) := by
    simp only [monitor, alone, shadow.outside]
  rw [same]
  exact ⟨congrArg (c.answer call) turned.outside.symm, turned⟩

theorem trap_shadowed (call : Registers) (shadow : Shadow inner s start a b) :
    Shadowed inner s start (a.trap (c.monitor inner) call) (b.trap (c.alone.monitor inner) call) := by
  have called : Shadow inner s start (a.record (.call call)) (b.record (.call call)) :=
    shadow.append (by simp)
  obtain ⟨answers, after⟩ := c.call_shadowed held call called
  refine ⟨answers, ?_⟩
  simp only [Machine.trap, answers]
  exact after.append (by simp)

theorem agrees : (c.monitor inner).Agrees (c.alone.monitor inner) (fun _ => True) (Shadow inner s start) where
  noted notes shadow := shadow.append notes.not_nested
  trap _ shadow :=
    have ⟨answers, after⟩ := c.trap_shadowed held _ shadow
    ⟨answers, after⟩
  patience shadow := congrArg c.patience shadow.outside

end Counterpart

namespace Transport

open Admission

theorem answered_shadowed (c : Counterpart ω) (inner : Monitor ω) (message : Bytes)
    (capacity : Option UInt64) (total : Nat) (m : Machine ω) :
    Shadowed inner { m.session with inUse := true } m.journal
      (answered (c.monitor inner) message capacity total m)
      (answered (c.alone.monitor inner) message capacity total m) := by
  obtain ⟨notes, noted, journal⟩ := journal_offered message capacity total m
  have begun : Shadow inner { m.session with inUse := true } m.journal
      (offered message capacity total m) (offered message capacity total m) := by
    refine ⟨rfl, rfl, rfl, fun entries member => .inl ?_⟩
    rw [journal] at member
    exact (List.mem_append.mp member).resolve_right (noted.not_nested entries)
  obtain ⟨answers, after⟩ := (c.agrees rfl).callRemote trivial (fun _ => trivial) begun
  exact ⟨answers, after⟩

/-- Two exchanges on one machine that differ in nothing but the operations inside the calls of the
first. -/
structure Alike (inner : Monitor ω) (m : Machine ω) (disturbed alone : Exchange × Machine ω) : Prop where
  exchange : alone.1 = disturbed.1
  calls : calls alone.2.journal = calls disturbed.2.journal
  machine : { alone.2 with journal := [] } = { disturbed.2 with journal := [] }
  inside : ∀ entries, .nested entries ∈ disturbed.2.journal →
    .nested entries ∈ m.journal ∨ Inside inner { m.session with inUse := true } entries

theorem Alike.of_notes {inner : Monitor ω} {m after : Machine ω} (exchange : Exchange)
    (only : OnlyNotes m after) : Alike inner m (exchange, after) (exchange, after) := by
  obtain ⟨events, notes, rfl⟩ := only
  refine ⟨rfl, rfl, rfl, fun entries member => .inl ?_⟩
  exact (List.mem_append.mp member).resolve_right (notes.not_nested entries)

theorem communicate_alike (c : Counterpart ω) (inner : Monitor ω) (message : Bytes)
    (capacity : Option UInt64) (m : Machine ω) :
    Alike inner m (communicate (c.monitor inner) message capacity m)
      (communicate (c.alone.monitor inner) message capacity m) := by
  cases screened : screen m.session.buffer.length message capacity with
  | error refusal =>
    rw [communicate_refused screened, communicate_refused screened]
    exact .of_notes _ ((OnlyNotes.refl m).thenNotes (refusal.notes_records capacity))
  | ok total =>
    by_cases held : m.session.inUse = true
    · rw [communicate_denied screened held, communicate_denied screened held]
      exact .of_notes _ (((OnlyNotes.refl m).thenNotes (notes_opening capacity)).thenNotes notes_log)
    · obtain ⟨header, admitted, rfl⟩ := screen_eq_ok_iff.mp screened
      have free := Bool.eq_false_iff.mpr held
      let ended := answered (c.monitor inner) message capacity header.total m
      let ended' := answered (c.alone.monitor inner) message capacity header.total m
      obtain ⟨answers, shadow⟩ : Shadowed inner _ m.journal ended ended' :=
        answered_shadowed c inner message capacity header.total m
      obtain ⟨result, records, notes, concludes, concludes'⟩ :=
        concluded_journal m.session.route message header.total ended.1 ended.2 ended'.2.journal
      have disturbed : communicate (c.monitor inner) message capacity m =
          (⟨result.1, result.2, capacity⟩, (letGo ended.2).append records) := by
        rw [communicate_answered admitted free (Prod.eta ended).symm, concludes]
      have alone : communicate (c.alone.monitor inner) message capacity m =
          (⟨result.1, result.2, capacity⟩, (letGo ended'.2).append records) := by
        rw [communicate_answered admitted free (Prod.eta ended').symm, ← answers, shadow.same, concludes']
      rw [disturbed, alone]
      refine ⟨rfl, ?_, ?_, fun entries member => ?_⟩
      · simp only [Machine.append, calls_append, letGo, shadow.calls]
      · rw [shadow.same]
        rfl
      · rcases List.mem_append.mp member with before | now
        · exact shadow.inside entries before
        · exact absurd now (notes.not_nested entries)

/-- Whatever is tried from inside the calls of an exchange runs on a session that is held. It fails, it
reaches nobody and it leaves the machine as it was, and the exchange comes to the same as alone. -/
theorem communicate_undisturbed (c : Counterpart ω) (inner : Monitor ω) (message : Bytes)
    (capacity : Option UInt64) (m : Machine ω) :
    let disturbed := communicate (c.monitor inner) message capacity m
    let alone := communicate (c.alone.monitor inner) message capacity m
    (∀ entries, .nested entries ∈ disturbed.2.journal → .nested entries ∈ m.journal ∨
      ∃ (contenders : List Contender) (h : Machine ω), h.session = { m.session with inUse := true } ∧
        Operation.performAll inner (contenders.map Contender.operation) h = (entries, h)) ∧
      (∀ h : Machine ω, h.session.inUse = true →
        (∀ contenders : List Contender, Operation.performAll inner (contenders.map Contender.operation) h =
          (contenders.map fun contender => (h.observe (contender.operation.perform inner)).1, h)) ∧
        (∀ contender : Contender, ∃ events, calls events = [] ∧ conversions events = [] ∧
          (contender.operation.perform inner h).2 = h.append events) ∧
        ∀ message capacity,
          let exchange := (communicate inner message capacity h).1
          match screen h.session.buffer.length message capacity with
          | .ok _ => exchange = ⟨.error (.error .accessDenied), message, capacity⟩
          | .error refusal => exchange.result = .error (.error refusal.error) ∧
              exchange = (communicate inner message capacity
                { h with session := { h.session with inUse := false } }).1) ∧
      alone.1 = disturbed.1 ∧ calls alone.2.journal = calls disturbed.2.journal ∧
      { alone.2 with journal := [] } = { disturbed.2 with journal := [] } := by
  intro disturbed alone
  have alike : Alike inner m disturbed alone := communicate_alike c inner message capacity m
  refine ⟨alike.inside, fun h held => ⟨fun contenders => ?_, fun contender => ?_, fun message capacity => ?_⟩,
    alike.exchange, alike.calls, alike.machine⟩
  · exact Contender.performAll_held contenders held
  · obtain ⟨events, notes, after⟩ : OnlyNotes h (contender.operation.perform inner h).2 :=
      contender.perform_held held
    exact ⟨events, notes.calls, notes.conversions, after⟩
  · exact exchange_held inner message capacity held

end Transport

end StandaloneMm
