import StandaloneMm.Proofs.Records

/-! What holds of a machine through everything a client can do, and of two machines that do the same.
What every call stays within, an exchange stays within through all its resumptions. An errand deals with
nobody but its channel: on machines that a channel cannot tell from each other it comes to the same, so a
property that no note and no exchange can break is kept by every errand, and one that no journal can break
by every run of operations that each keep it. -/
namespace StandaloneMm

open Journal

variable {ω : Type}

/-- A property of the machine alone, whatever its journal says. -/
def Unjournaled (holds : Machine ω → Prop) : Prop :=
  ∀ m journal, holds m → holds { m with journal := journal }

/-- A property that a client's own notes leave alone. -/
def Noted (holds : Machine ω → Prop) : Prop :=
  ∀ m events, Notes events → holds m → holds (m.append events)

theorem Unjournaled.noted {holds : Machine ω → Prop} (unjournaled : Unjournaled holds) : Noted holds :=
  fun m _ _ before => unjournaled m _ before

/-- A channel that keeps a property through every message. -/
def Channel.Keeps (channel : Channel ω) (holds : Machine ω → Prop) : Prop :=
  ∀ message capacity m, holds m → holds (channel message capacity m).2

/-- A relation that nobody behind a call and no note of the session gets out of. -/
structure Monitor.StaysWithin (monitor : Monitor ω) (relates : Machine ω → Machine ω → Prop) : Prop where
  refl : ∀ m, relates m m
  trans : ∀ {m middle after}, relates m middle → relates middle after → relates m after
  log : ∀ m level target, relates m (m.log level target)
  trap : ∀ m call, relates m (m.trap monitor call).2

namespace Monitor.StaysWithin

variable {monitor : Monitor ω} {relates : Machine ω → Machine ω → Prop}
  (within : monitor.StaysWithin relates)

include within

theorem resume (remote : PartitionDescriptor) (patience : Nat) (answer : Registers) (m : Machine ω) :
    relates m (Transport.resume monitor remote patience answer m).2 := by
  induction patience generalizing answer m with
  | zero => exact within.refl m
  | succ patience ih =>
    rw [Transport.resume]
    split
    · exact within.trans (within.log m _ _) (within.trans (within.trap _ _) (ih _ _))
    · exact within.refl m

theorem callRemote (route : Route) (call : Registers) (m : Machine ω) :
    relates m (Transport.callRemote monitor route call m).2 := by
  cases route with
  | legacy => exact within.trap m call
  | direct localId remote => exact within.trans (within.trap m call) (within.resume remote _ _ _)

end Monitor.StaysWithin

/-- A region is the same one, moved into virtual memory at most. -/
structure SharedBuffer.Follows (b after : SharedBuffer) : Prop where
  physicalBase : after.physicalBase = b.physicalBase
  length : after.length = b.length
  moved : after = b ∨ b.mode = .physical ∧ after.mode = .virtual

/-- All that can become of a buffer when the address space changes: it has moved before, it has nowhere to
go, or it moves to its mapping. -/
theorem SharedBuffer.remap_cases (convert : Converter) (b : SharedBuffer) :
    (b.mode = .virtual ∧ b.remap convert = (b, [.log .warn .mmComm])) ∨
      (b.mode = .physical ∧ (∀ place, convert b.currentBase = .ok (some place) → place = 0) ∧
        ∃ level, b.remap convert = (b, [.convert b.currentBase, .log level .mmComm])) ∨
      ∃ place, b.mode = .physical ∧ convert b.currentBase = .ok (some place) ∧ place ≠ 0 ∧
        b.remap convert = ({ b with currentBase := place, mode := .virtual },
          [.convert b.currentBase, .log .info .mmComm]) := by
  unfold SharedBuffer.remap
  split
  next virtual => exact .inl ⟨virtual, rfl⟩
  next physical =>
    refine .inr ?_
    dsimp only
    split
    next place maps =>
      by_cases null : place = 0
      · have nowhere : ∀ other, convert b.currentBase = .ok (some other) → other = 0 := by
          intro other found
          rw [maps] at found
          cases found
          exact null
        exact .inl ⟨physical, nowhere, _, if_pos null⟩
      · exact .inr ⟨place, physical, maps, null, if_neg null⟩
    next unmapped => exact .inl ⟨physical, by simp [unmapped], _, rfl⟩
    next failed => exact .inl ⟨physical, by simp [failed], _, rfl⟩

theorem SharedBuffer.follows_remap (convert : Converter) (b : SharedBuffer) :
    Follows b (b.remap convert).1 := by
  rcases remap_cases convert b with ⟨_, still⟩ | ⟨_, _, _, still⟩ | ⟨_, physical, _, _, moved⟩
  · rw [still]
    exact ⟨rfl, rfl, .inl rfl⟩
  · rw [still]
    exact ⟨rfl, rfl, .inl rfl⟩
  · rw [moved]
    exact ⟨rfl, rfl, .inr ⟨physical, rfl⟩⟩

/-- Two runs that come to the same answer, on machines in a relation. -/
structure Alongside {α : Type} (relates : Machine ω → Machine ω → Prop) (x y : α × Machine ω) : Prop where
  answer : x.1 = y.1
  machines : relates x.2 y.2

theorem Alongside.results {α : Type} {relates : Machine ω → Machine ω → Prop} {x y : α × Machine ω}
    (alongside : Alongside relates x y) :
    ∃ answer m m', x = (answer, m) ∧ y = (answer, m') ∧ relates m m' :=
  ⟨x.1, x.2, y.2, rfl, Prod.ext alongside.answer.symm rfl, alongside.machines⟩

/-- A relation that a client's own notes leave alone if they are taken on both sides. -/
def NotedAlike (relates : Machine ω → Machine ω → Prop) : Prop :=
  ∀ {a b events}, Notes events → relates a b → relates (a.append events) (b.append events)

/-- A channel that cannot tell machines in a relation from each other. -/
def Channel.Carries (channel : Channel ω) (relates : Machine ω → Machine ω → Prop) : Prop :=
  ∀ message capacity {a b}, relates a b →
    Alongside relates (channel message capacity a) (channel message capacity b)

/-- Two worlds that machines in a relation cannot tell apart by the calls in question. -/
structure Monitor.Agrees (monitor other : Monitor ω) (question : Registers → Prop)
    (relates : Machine ω → Machine ω → Prop) : Prop where
  noted : NotedAlike relates
  trap : ∀ {a b call}, question call → relates a b →
    Alongside relates (a.trap monitor call) (b.trap other call)
  patience : ∀ {a b}, relates a b → other.patience b = monitor.patience a

namespace Monitor.Agrees

variable {monitor other : Monitor ω} {question : Registers → Prop}
  {relates : Machine ω → Machine ω → Prop} {a b : Machine ω} (agrees : monitor.Agrees other question relates)

include agrees

theorem resume {remote : PartitionDescriptor} (asks : question (Delivery.resumeRequest remote))
    (patience : Nat) (answer : Registers) (start : relates a b) :
    Alongside relates (Transport.resume monitor remote patience answer a)
      (Transport.resume other remote patience answer b) := by
  induction patience generalizing answer a b with
  | zero => exact ⟨rfl, start⟩
  | succ patience ih =>
    rw [Transport.resume, Transport.resume]
    split
    · have noted : relates (a.log .debug .mmComm) (b.log .debug .mmComm) := agrees.noted notes_log start
      obtain ⟨next, m, m', first, second, resumed⟩ := (agrees.trap asks noted).results
      rw [first, second]
      exact ih next resumed
    · exact ⟨rfl, start⟩

theorem callRemote {route : Route} {call : Registers} (asks : question call)
    (resumes : ∀ remote, question (Delivery.resumeRequest remote)) (start : relates a b) :
    Alongside relates (Transport.callRemote monitor route call a)
      (Transport.callRemote other route call b) := by
  obtain ⟨answer, m, m', first, second, called⟩ := (agrees.trap asks start).results
  simp only [Transport.callRemote, first, second]
  cases route with
  | legacy => exact ⟨rfl, called⟩
  | direct localId remote =>
    dsimp only
    rw [agrees.patience called]
    exact agrees.resume (resumes remote) _ answer called

end Monitor.Agrees

section

variable {channel : Channel ω} {relates : Machine ω → Machine ω → Prop} {a b : Machine ω}
  (noted : NotedAlike relates) (carries : channel.Carries relates)

include noted carries

theorem EventGroup.signal_alongside (group : Guid) (start : relates a b) :
    Alongside relates (signal channel group a) (signal channel group b) := by
  have begun : relates (a.log .debug .mmComm) (b.log .debug .mmComm) := noted notes_log start
  obtain ⟨answer, sent⟩ := carries (message group) (some (UInt64.ofNat (message group).length)) begun
  unfold signal
  dsimp only
  rw [answer]
  split
  · exact ⟨rfl, noted notes_log sent⟩
  · exact ⟨rfl, sent⟩

namespace ErrorSource

theorem fetch_alongside (length : Nat) (start : relates a b) :
    Alongside relates (fetch channel length a) (fetch channel length b) := by
  unfold fetch
  split
  · exact ⟨rfl, start⟩
  next message _ =>
    obtain ⟨answer, sent⟩ := carries message none start
    dsimp only
    rw [answer]
    split
    next fault _ => exact ⟨rfl, noted (notes_failureRecords fault) sent⟩
    next => exact ⟨rfl, noted (notes_extractRecords _) sent⟩

theorem continueWith_alongside (reply : Bytes) (start : relates a b) :
    Alongside relates (continueWith channel reply a) (continueWith channel reply b) := by
  have announces := noted (notes_announcedRecords (announced reply)) start
  unfold continueWith
  dsimp only
  split
  · exact ⟨rfl, announces⟩
  · exact fetch_alongside noted carries _ announces

theorem collect_alongside (start : relates a b) :
    Alongside relates (collect channel a) (collect channel b) := by
  unfold collect
  split
  · exact ⟨rfl, start⟩
  next message _ =>
    obtain ⟨answer, sent⟩ := carries message none start
    dsimp only
    rw [answer]
    split
    · exact continueWith_alongside noted carries _ sent
    · exact continueWith_alongside noted carries _ sent
    next fault _ _ => exact ⟨rfl, noted (notes_failureRecords fault) sent⟩

theorem append_alongside (table : Table) (start : relates a b) :
    Alongside relates (append channel table a) (append channel table b) := by
  obtain ⟨result, m, m', first, second, collected⟩ := (collect_alongside noted carries start).results
  simp only [append, first, second]
  cases result with
  | error fault => exact ⟨rfl, collected⟩
  | ok found =>
    have recorded : relates (m.record (.table found.descriptors found.count))
        (m'.record (.table found.descriptors found.count)) := noted notes_table collected
    dsimp only
    split
    · exact ⟨rfl, recorded⟩
    · exact ⟨rfl, noted notes_log recorded⟩

end ErrorSource

theorem Errand.run_alongside (errand : Errand) (start : relates a b) :
    Alongside relates (errand.run channel a) (errand.run channel b) := by
  cases errand with
  | signal group =>
    obtain ⟨answer, machines⟩ := EventGroup.signal_alongside noted carries group start
    exact ⟨congrArg Answer.finished answer, machines⟩
  | collect =>
    obtain ⟨answer, machines⟩ := ErrorSource.collect_alongside noted carries start
    exact ⟨congrArg Answer.collected answer, machines⟩
  | append table =>
    obtain ⟨answer, machines⟩ := ErrorSource.append_alongside noted carries table start
    exact ⟨congrArg Answer.finished answer, machines⟩

end

section

variable {channel : Channel ω} {monitor : Monitor ω} {holds : Machine ω → Prop} {m : Machine ω}

theorem Errand.run_keeps (noted : Noted holds) (keeps : channel.Keeps holds)
    (errand : Errand) (before : holds m) : holds (errand.run channel m).2 := by
  let kept (a b : Machine ω) : Prop := a = b ∧ holds b
  have notedAlike : NotedAlike kept := by
    rintro a _ events notes ⟨rfl, inside⟩
    exact ⟨rfl, noted a events notes inside⟩
  have carries : channel.Carries kept := by
    rintro message capacity a _ ⟨rfl, inside⟩
    exact ⟨rfl, rfl, keeps message capacity a inside⟩
  exact (errand.run_alongside notedAlike carries ⟨rfl, before⟩).machines.2

theorem Lifecycle.exitBootServices_keeps (noted : Noted holds)
    (taken : ∀ m directory, holds m → holds { m with session := { m.session with directory := directory } })
    (trap : ∀ m call, holds m → holds (m.trap monitor call).2) (before : holds m) :
    holds (exitBootServices monitor m) := by
  unfold exitBootServices
  split
  · exact before
  next d _ =>
    have marked := noted _ [.log .info .mmComm] notes_log (taken m (some { d with pages := none }) before)
    unfold Discovery.release
    dsimp only
    split
    · exact marked
    · exact noted _ _ notes_log (trap _ _ marked)

theorem Operation.perform_keeps (noted : Noted holds)
    (keeps : Channel.Keeps (Transport.communicate monitor) holds)
    (remaps : ∀ convert m, holds m → holds (Lifecycle.remapBuffer convert m))
    (exits : ∀ m, holds m → holds (Lifecycle.exitBootServices monitor m))
    (stored : ∀ m memory, holds m → holds { m with memory := memory })
    (operation : Operation) (before : holds m) : holds (operation.perform monitor m).2 := by
  cases operation with
  | communicate message capacity => exact keeps message capacity m before
  | errand e => exact e.run_keeps noted keeps before
  | remap convert => exact remaps convert m before
  | exitBootServices => exact exits m before
  | write base data => exact stored m _ before
  | read | snapshot | describe => exact before

end

theorem Machine.observe_append {α : Type} {m : Machine ω} {run : Machine ω → α × Machine ω}
    {answer : α} {events : List Event}
    (ran : run { m with journal := [] } = (answer, { m with journal := [] }.append events)) :
    m.observe run = ((answer, events), m) := by
  simp only [Machine.observe, ran]
  rfl

theorem Operation.performAll_cons {monitor : Monitor ω} {operation : Operation} {rest : List Operation}
    {m after : Machine ω} {entry : Answer × List Event}
    (first : m.observe (operation.perform monitor) = (entry, after)) :
    performAll monitor (operation :: rest) m =
      (entry :: (performAll monitor rest after).1, (performAll monitor rest after).2) := by
  simp only [performAll, first]

/-- A run keeps what each of its operations keeps. -/
theorem Operation.performAll_keeps {monitor : Monitor ω} {holds : Machine ω → Prop}
    (unjournaled : Unjournaled holds)
    (keeps : ∀ (operation : Operation) m, holds m → holds (operation.perform monitor m).2)
    (operations : List Operation) {m : Machine ω} (before : holds m) :
    holds (performAll monitor operations m).2 := by
  induction operations generalizing m with
  | nil => exact before
  | cons operation rest ih =>
    have performed := keeps operation _ (unjournaled m [] before)
    exact ih (unjournaled _ m.journal performed)

end StandaloneMm
