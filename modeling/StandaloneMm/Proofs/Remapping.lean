import StandaloneMm.Proofs.Failure
import StandaloneMm.Proofs.Handover
import StandaloneMm.Proofs.Milestones
import StandaloneMm.Proofs.Reply

/-! The shared buffer when the operating system takes over the address space. It moves at most once, to
the first mapping that any converter has for its physical base; from then on the session reaches it there
alone, and everyone else still hears of the physical base. -/
namespace StandaloneMm

open Journal

namespace SharedBuffer

def remapAll : List Converter → SharedBuffer → SharedBuffer × List (List Event)
  | [], b => (b, [])
  | convert :: rest, b =>
    let (moved, events) := b.remap convert
    let (last, more) := remapAll rest moved
    (last, events :: more)

variable {b : SharedBuffer}

theorem remapAll_cons {convert : Converter} {moved : SharedBuffer} {events : List Event}
    (step : b.remap convert = (moved, events)) (rest : List Converter) :
    remapAll (convert :: rest) b = ((remapAll rest moved).1, events :: (remapAll rest moved).2) := by
  simp only [remapAll, step]

theorem remapAll_virtual (converters : List Converter) (virtual : b.mode = .virtual) :
    (remapAll converters b).1 = b ∧
      (remapAll converters b).2.map conversions = List.replicate converters.length [] := by
  induction converters with
  | nil => exact ⟨rfl, rfl⟩
  | cons convert rest ih =>
    have still : b.remap convert = (b, [.log .warn .mmComm]) := by simp only [remap, virtual]
    simp only [remapAll_cons still, List.map_cons, ih, List.length_cons, List.replicate_succ, true_and]
    rfl

/-- A buffer in physical memory stays there as long as its mapping is missing, fails or is null. -/
theorem remapAll_physical (converters : List Converter) (physical : b.mode = .physical) :
    let run := remapAll converters b
    let asked := run.2.map conversions
    ((∀ convert ∈ converters, convert.Stays b.currentBase) ∧ run.1 = b ∧
        asked = List.replicate converters.length [b.currentBase]) ∨
      ∃ earlier convert later place, converters = earlier ++ convert :: later ∧
        (∀ convert ∈ earlier, convert.Stays b.currentBase) ∧
        convert b.currentBase = .ok (some place) ∧ place ≠ 0 ∧
        run.1 = { b with currentBase := place, mode := .virtual } ∧
        asked = List.replicate (earlier.length + 1) [b.currentBase] ++ List.replicate later.length [] := by
  induction converters with
  | nil => exact .inl ⟨nofun, rfl, rfl⟩
  | cons convert rest ih =>
    intro run asked
    rcases remap_cases convert b with ⟨virtual, _⟩ | ⟨_, stays, level, still⟩ | ⟨place, _, maps, nonzero, moved⟩
    · rw [physical] at virtual
      contradiction
    · have first : run = _ := remapAll_cons still rest
      have whole : asked = [b.currentBase] :: (remapAll rest b).2.map conversions := by
        simp only [asked, first]
        rfl
      rw [whole, first]
      rcases ih with ⟨all, last, each⟩ | ⟨earlier, found, later, place, split, before, maps, nonzero, last, each⟩
      · refine .inl ⟨List.forall_mem_cons.mpr ⟨stays, all⟩, last, ?_⟩
        rw [each, List.length_cons, List.replicate_succ]
      · refine .inr ⟨convert :: earlier, found, later, place, ?_, List.forall_mem_cons.mpr ⟨stays, before⟩, maps,
          nonzero, last, ?_⟩
        · rw [split, List.cons_append]
        · simp only [each, List.length_cons, List.replicate_succ, List.cons_append]
    · have first : run = _ := remapAll_cons moved rest
      obtain ⟨last, silent⟩ :=
        remapAll_virtual (b := { b with currentBase := place, mode := .virtual }) rest rfl
      refine .inr ⟨[], convert, rest, place, rfl, nofun, maps, nonzero, ?_, ?_⟩
      · rw [first]
        exact last
      · simp only [asked, first, List.map_cons, silent]
        rfl

end SharedBuffer

namespace Transport

open Admission Delivery SharedBuffer

variable {ω : Type} {monitor : Monitor ω} {m : Machine ω} {message : Bytes} {capacity : Option UInt64}
  {header : MessageHeader}

theorem communicate_received (confined : monitor.Confined)
    (admitted : Admitted m.session.buffer.length message capacity header) (free : m.session.inUse = false) :
    let ran := communicate monitor message capacity m
    let receipt := outcome (ran.2.memory.loadSpan m.session.buffer.span) message header.total
    ∃ final, Ends monitor message capacity m final ∧
      (succeeded m.session.route final = false →
        ran.1 = ⟨.error (faultOfStatus (failureStatus m.session.route final)), message, capacity⟩) ∧
      (succeeded m.session.route final = true →
        ran.1 = ⟨receipt.result.mapError .error, receipt.message, capacity⟩) := by
  intro ran receipt
  let final := (answered monitor message capacity header.total m).1
  have ends : Ends monitor message capacity m final := ends_answered admitted free
  refine ⟨final, ends, communicate_ends ends, fun success => ?_⟩
  have exchanged : ran = _ := communicate_of_succeeded confined admitted free success
  have same : ran.2.memory = (answered monitor message capacity header.total m).2.memory := by
    rw [exchanged]
    rfl
  simp only [receipt, same]
  rw [exchanged]

/-- An exchange of a session that reaches the buffer at one place and hands it over by another. All that it
lays down is the request, where the session reaches the buffer, and the reply is what stands there when the
call has ended. What lies at the physical base is up to those who answer the calls. -/
structure Translated (monitor : Monitor ω) (message : Bytes) (capacity : Option UInt64) (m : Machine ω)
    (size : Nat) : Prop where
  sized : size = min (24 + ofLittleEndian ((message.drop 16).take 8)) maxSize
  fits : size ≤ m.session.buffer.length.toNat ∧ size ≤ message.length
  hands : ∃ times final, Delivers monitor message capacity size m
    (m.session.route.handover m.session.buffer.physicalBase :: m.session.route.resumptions times) final
  lays : ∀ address, address < m.session.buffer.currentBase.toNat ∨
      m.session.buffer.currentBase.toNat + size ≤ address →
    (laid message size m).byte address = m.memory.byte address
  spares : ∀ address, m.session.buffer.physicalBase.toNat ≤ address →
      address < m.session.buffer.physicalBase.toNat + m.session.buffer.length.toNat →
    (laid message size m).byte address = m.memory.byte address ∧
      ((∀ call (m : Machine ω), (monitor.call call m).2.memory.byte address = m.memory.byte address) →
        (communicate monitor message capacity m).2.memory.byte address = m.memory.byte address)
  receives : ∃ final, Ends monitor message capacity m final ∧
    let exchange := (communicate monitor message capacity m).1
    let receipt := outcome
      ((communicate monitor message capacity m).2.memory.loadSpan m.session.buffer.span) message size
    let success := match m.session.route with
      | .legacy => final.x0 = 0
      | .direct _ _ => final.x0 = FunctionId.ffaDirectResponse
    (¬ success →
        exchange = ⟨.error (faultOfStatus (failureStatus m.session.route final)), message, capacity⟩) ∧
      (success → exchange = ⟨receipt.result.mapError .error, receipt.message, capacity⟩)

theorem communicate_translated (confined : monitor.Confined)
    (admitted : Admitted m.session.buffer.length message capacity header) (free : m.session.inUse = false)
    (apart : m.session.buffer.currentBase.toNat + m.session.buffer.length.toNat ≤
        m.session.buffer.physicalBase.toNat ∨
      m.session.buffer.physicalBase.toNat + m.session.buffer.length.toNat ≤
        m.session.buffer.currentBase.toNat) :
    Translated monitor message capacity m header.total := by
  have inBuffer := admitted.inBuffer
  obtain ⟨times, delivers⟩ := communicate_delivers admitted free
  obtain ⟨final, ends, fails, succeeds⟩ := communicate_received confined admitted free
  have receives := fun success => succeeds (succeeded_iff.mpr success)
  have refuses := fun failure => fails (Bool.eq_false_iff.mpr (mt succeeded_iff.mp failure))
  refine ⟨total_of_decode? admitted.read, ⟨inBuffer, admitted.inMessage⟩, ⟨times, _, delivers⟩,
    fun _ => byte_laid_outside admitted.inMessage, ?_, ⟨final, ends, refuses, receives⟩⟩
  intro address low high
  have spared : (laid message header.total m).byte address = m.memory.byte address :=
    byte_laid_outside admitted.inMessage (by omega)
  exact ⟨spared, fun leaves => (delivers.byte_eq leaves).trans spared⟩

/-- However often the address space changes, the buffer keeps its physical base and its length. As long as no
converter maps it to an address other than zero it stays where it is, and each is asked once, for the physical
base. The first that does moves it for good, and none after it is asked. A session that reaches the buffer in
its new place then leaves the old one to the other side, which still hears of it alone. -/
theorem communicate_remapped (confined : monitor.Confined) (base length : UInt64)
    (converters : List Converter) :
    let run := remapAll converters (identityMapped base length)
    let asked := run.2.map conversions
    ((∀ convert ∈ converters, convert.Stays base) ∧ run.1 = ⟨base, base, length, .physical⟩ ∧
        asked = List.replicate converters.length [base]) ∨
      ∃ earlier convert later place, converters = earlier ++ convert :: later ∧
        (∀ convert ∈ earlier, convert.Stays base) ∧ convert base = .ok (some place) ∧ place ≠ 0 ∧
        run.1 = ⟨base, place, length, .virtual⟩ ∧
        asked = List.replicate (earlier.length + 1) [base] ++ List.replicate later.length [] ∧
        ∀ (m : Machine ω) (message : Bytes) (capacity : Option UInt64), m.session.buffer = run.1 →
          (place.toNat + length.toNat ≤ base.toNat ∨ base.toNat + length.toNat ≤ place.toNat) →
          (∀ size, m.session.inUse = false → screen length message capacity = .ok size →
            Translated monitor message capacity m size) ∧
          (m.session.inUse = true ∨ (∃ refusal, screen length message capacity = .error refusal) →
            ∃ notes, Notes notes ∧ (communicate monitor message capacity m).2 = m.append notes) := by
  intro run asked
  rcases remapAll_physical (b := identityMapped base length) converters rfl with
    stayed | ⟨earlier, convert, later, place, split, before, maps, nonzero, moved, each⟩
  · exact .inl stayed
  refine .inr ⟨earlier, convert, later, place, split, before, maps, nonzero, moved, each, ?_⟩
  intro m message capacity reaches apart
  have buffer : m.session.buffer = ⟨base, place, length, .virtual⟩ := reaches.trans moved
  constructor
  · intro size free passes
    obtain ⟨header, admitted, rfl⟩ := screen_eq_ok_iff.mp passes
    apply communicate_translated confined (by rwa [buffer]) free
    rwa [buffer]
  · intro unsent
    apply communicate_unsent
    rwa [buffer]

open Rehearsal in
/-- A failure, no mapping and a null one leave the buffer where it is; the fourth converter moves it, and the
fifth comes too late. -/
theorem communicate_remapped_fourth :
    let converters : List Converter :=
      [fun _ => .error .notFound, fun _ => .ok none, fun _ => .ok (some 0), fun _ => .ok (some 0x8000),
        fun _ => .ok (some 0x9000)]
    let run := remapAll converters (identityMapped 0x1000 0x40)
    let m : Machine Script := { session := { route := .legacy, buffer := run.1 }, rest := {} }
    let message := MessageHeader.encode ⟨EventGroup.endOfDxe, 1⟩ ++ [7]
    run.1 = ⟨0x1000, 0x8000, 0x40, .virtual⟩ ∧
      run.2.map conversions = [[0x1000], [0x1000], [0x1000], [0x1000], []] ∧
      Translated (Script.nestedMonitor 0) message none m 25 := by
  intro converters run m message
  have moved : run.1 = ⟨0x1000, 0x8000, 0x40, .virtual⟩ := rfl
  rcases communicate_remapped (Monitor.Confined.script 0) 0x1000 0x40 converters with
    ⟨_, stayed, _⟩ | ⟨earlier, convert, later, place, split, _, _, _, last, each, exchanged⟩
  · cases moved.symm.trans stayed
  · obtain rfl : 0x8000 = place := congrArg SharedBuffer.currentBase (moved.symm.trans last)
    exact ⟨moved, rfl, (exchanged m message none rfl (by decide)).1 25 rfl (by rfl)⟩

end Transport

end StandaloneMm
