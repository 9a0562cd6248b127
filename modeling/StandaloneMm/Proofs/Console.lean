import StandaloneMm.Proofs.Codec
import StandaloneMm.Secure.Console

/-! What the console gets to see of a record. The calls of a record, read one after the other, and the text
that still waits are together the text written so far, however it was cut into pieces, until a call is
refused. -/
namespace StandaloneMm

theorem ofLittleEndian_zeros (n : Nat) : ofLittleEndian (zeros n) = 0 := by
  induction n with
  | zero => rfl
  | succ n ih =>
    have more : ofLittleEndian (zeros (n + 1)) = (0 : UInt8).toNat + 256 * ofLittleEndian (zeros n) := rfl
    rw [more, ih]
    rfl

theorem ofLittleEndian_append_zeros (bytes : Bytes) (n : Nat) :
    ofLittleEndian (bytes ++ zeros n) = ofLittleEndian bytes := by
  rw [ofLittleEndian_append, ofLittleEndian_zeros, Nat.mul_zero, Nat.add_zero]

namespace Console

/-- The bytes of the registers that carry text. -/
def payload (call : Registers) : Bytes :=
  [call.x2, call.x3, call.x4, call.x5, call.x6, call.x7].flatMap fun register =>
    littleEndian 8 register.toNat

/-- The text of a call: as many of the bytes as it says. -/
def carried (call : Registers) : Bytes := (payload call).take call.x1.toNat

/-- A call that carries some text, and zeros behind it. -/
structure Formed (call : Registers) : Prop where
  id : call.x0 = FunctionId.ffaConsoleLog
  some : 0 < call.x1.toNat
  most : call.x1.toNat ≤ consoleCallBytes
  zeros : ∀ b ∈ (payload call).drop call.x1.toNat, b = 0

section

variable {chunk : Bytes} (fits : chunk.length ≤ consoleCallBytes)

include fits

/-- One register holds eight bytes of the text, with zeros where that ends. -/
theorem littleEndian_register {i : Nat} (inside : 8 * i + 8 ≤ consoleCallBytes) :
    littleEndian 8 (UInt64.ofNat (ofLittleEndian ((chunk.drop (8 * i)).take 8))).toNat =
      ((chunk ++ zeros (consoleCallBytes - chunk.length)).drop (8 * i)).take 8 := by
  let padded := chunk ++ zeros (consoleCallBytes - chunk.length)
  obtain ⟨n, slice⟩ : ∃ n, (padded.drop (8 * i)).take 8 = (chunk.drop (8 * i)).take 8 ++ zeros n := by
    simp only [padded, zeros, List.drop_append, List.take_append, List.drop_replicate, List.take_replicate]
    exact ⟨_, rfl⟩
  have length : ((padded.drop (8 * i)).take 8).length = 8 := by
    simp [padded]
    omega
  have same : ofLittleEndian ((chunk.drop (8 * i)).take 8) =
      ofLittleEndian ((padded.drop (8 * i)).take 8) := by
    rw [slice, ofLittleEndian_append_zeros]
  rw [same, toNat_word64 length]
  exact (congrArg (littleEndian · _) length.symm).trans (littleEndian_ofLittleEndian _)

theorem payload_callOf : payload (callOf chunk) = chunk ++ zeros (consoleCallBytes - chunk.length) := by
  let padded := chunk ++ zeros (consoleCallBytes - chunk.length)
  have whole : padded.length = consoleCallBytes := by
    simp [padded]
    omega
  have split k : padded.drop k = (padded.drop k).take 8 ++ padded.drop (k + 8) := by
    rw [← List.drop_drop, List.take_append_drop]
  have register i (inside : 8 * i + 8 ≤ consoleCallBytes) := littleEndian_register fits inside
  have unpacked : payload (callOf chunk) = (padded.drop 0).take 8 ++ ((padded.drop 8).take 8 ++
      ((padded.drop 16).take 8 ++ ((padded.drop 24).take 8 ++ ((padded.drop 32).take 8 ++
        ((padded.drop 40).take 8 ++ []))))) := by
    simp only [payload, callOf, List.take_of_length_le fits, List.flatMap_cons, List.flatMap_nil]
    rw [register 0 (by decide), register 1 (by decide), register 2 (by decide), register 3 (by decide),
      register 4 (by decide), register 5 (by decide)]
  have nothing : padded.drop 48 = [] := List.drop_eq_nil_of_le (Nat.le_of_eq whole)
  rw [unpacked, ← nothing, ← split 40, ← split 32, ← split 24, ← split 16, ← split 8, ← split 0]
  rfl

theorem length_callOf : (callOf chunk).x1.toNat = chunk.length := by
  have small : chunk.length < UInt64.size := Nat.lt_of_le_of_lt fits (by decide)
  simp only [callOf, List.take_of_length_le fits]
  exact UInt64.toNat_ofNat_of_lt' small

theorem carried_callOf : carried (callOf chunk) = chunk := by
  rw [carried, payload_callOf fits, length_callOf fits, List.take_left]

theorem formed_callOf (some : 0 < chunk.length) : Formed (callOf chunk) where
  id := rfl
  some := by rwa [length_callOf fits]
  most := by rwa [length_callOf fits]
  zeros b member := by
    rw [payload_callOf fits, length_callOf fits, List.drop_left] at member
    exact (List.mem_replicate.mp member).2

end

section

variable {n : Nat} (positive : 0 < n) (bytes : Bytes)

theorem flatten_chunks (n : Nat) (bytes : Bytes) : (chunks n bytes).flatten = bytes := by
  fun_induction chunks with
  | case1 => rfl
  | case2 b rest ih => rw [List.flatten_cons, ih, List.cons_append, List.take_append_drop]

include positive

theorem length_of_mem_chunks {chunk : Bytes} (member : chunk ∈ chunks n bytes) :
    0 < chunk.length ∧ chunk.length ≤ n := by
  fun_induction chunks with
  | case1 => cases member
  | case2 b rest ih =>
    rcases List.mem_cons.mp member with rfl | later
    · simp
      omega
    · exact ih later

theorem length_chunks : (chunks n bytes).length = (bytes.length + (n - 1)) / n := by
  fun_induction chunks with
  | case1 => simpa using (Nat.div_eq_of_lt (Nat.sub_one_lt_of_lt positive)).symm
  | case2 b rest ih =>
    have one : rest.length + 1 + (n - 1) = rest.length + n := by omega
    rw [List.length_cons, ih, List.length_drop, List.length_cons, one, Nat.add_div_right _ positive]
    by_cases long : n - 1 ≤ rest.length
    · rw [Nat.sub_add_cancel long]
    · have short : rest.length < n := by omega
      have last : rest.length - (n - 1) + (n - 1) < n := by omega
      rw [Nat.div_eq_of_lt short, Nat.div_eq_of_lt last]

end

/-- The call behind so many others is accepted. -/
def Accepts (answers : Answers) (i : Nat) : Prop :=
  answers i = FunctionId.ffaSuccess32 ∨ answers i = FunctionId.ffaSuccess64

theorem accepted_iff {answers : Answers} {i : Nat} : accepted (answers i) = true ↔ Accepts answers i := by
  simp [accepted, Accepts]

/-- From one state of a writer to another. What waited and the text that was added are the text of the calls
made and what waits afterwards; of text that was lost the calls made show the front. -/
structure Stretch (answers : Answers) (w : Writer) (text : Bytes) (made : List Registers) (ok : Bool)
    (after : Writer) : Prop where
  calls : after.calls = w.calls ++ made
  formed : ∀ call ∈ made, Formed call
  stops : ∀ i, i + 1 < made.length → Accepts answers (w.calls.length + i)
  accepts : ok = true ↔ ∀ i < made.length, Accepts answers (w.calls.length + i)
  front : made.flatMap carried <+: w.pending ++ text
  whole : ok = true → w.pending ++ text = made.flatMap carried ++ after.pending

namespace Stretch

variable {answers : Answers} {w middle after : Writer} {text more : Bytes} {made others : List Registers}
  {ok : Bool}

theorem trans (first : Stretch answers w text made true middle)
    (second : Stretch answers middle more others ok after) :
    Stretch answers w (text ++ more) (made ++ others) ok after := by
  have accepted := first.accepts.mp rfl
  have calls : middle.calls.length = w.calls.length + made.length := by rw [first.calls, List.length_append]
  have behind (i : Nat) : middle.calls.length + i = w.calls.length + (made.length + i) := by omega
  have text : w.pending ++ (text ++ more) = made.flatMap carried ++ (middle.pending ++ more) := by
    rw [← List.append_assoc, first.whole rfl, List.append_assoc]
  refine ⟨?_, ?_, fun i inside => ?_, ⟨fun success i inside => ?_, fun all => ?_⟩, ?_,
    fun success => ?_⟩
  · rw [second.calls, first.calls, List.append_assoc]
  · intro call member
    rcases List.mem_append.mp member with early | late
    · exact first.formed call early
    · exact second.formed call late
  · rw [List.length_append] at inside
    by_cases early : i < made.length
    · exact accepted i early
    · obtain ⟨j, rfl⟩ := Nat.exists_eq_add_of_le (Nat.le_of_not_lt early)
      rw [← behind]
      exact second.stops j (by omega)
  · rw [List.length_append] at inside
    by_cases early : i < made.length
    · exact accepted i early
    · obtain ⟨j, rfl⟩ := Nat.exists_eq_add_of_le (Nat.le_of_not_lt early)
      rw [← behind]
      exact second.accepts.mp success j (by omega)
  · refine second.accepts.mpr fun i inside => ?_
    rw [behind]
    exact all _ (by rw [List.length_append]; omega)
  · rw [text, List.flatMap_append]
    exact (List.prefix_append_right_inj _).mpr second.front
  · rw [text, second.whole success, List.flatMap_append, List.append_assoc]

theorem lost (stretch : Stretch answers w text made false after) (more : Bytes) :
    Stretch answers w (text ++ more) made false after where
  calls := stretch.calls
  formed := stretch.formed
  stops := stretch.stops
  accepts := stretch.accepts
  front := by
    rw [← List.append_assoc]
    exact stretch.front.trans (List.prefix_append _ _)
  whole := nofun

end Stretch

namespace Writer

variable (answers : Answers)

theorem gather_stretch (w : Writer) (piece : Bytes) :
    Stretch answers w piece [] true { w with pending := w.pending ++ piece } where
  calls := (List.append_nil _).symm
  formed := nofun
  stops _ inside := absurd inside (Nat.not_lt_zero _)
  accepts := ⟨fun _ _ inside => absurd inside (Nat.not_lt_zero _), fun _ => rfl⟩
  front := List.nil_prefix
  whole _ := rfl

section

variable {w : Writer} (idle : w.pending = [])

include idle

theorem call_stretch {chunk : Bytes} (some : 0 < chunk.length) (fits : chunk.length ≤ consoleCallBytes) :
    Stretch answers w chunk [callOf chunk] (accepted (answers w.calls.length))
      { w with calls := w.calls ++ [callOf chunk] } where
  calls := rfl
  formed call member := List.mem_singleton.mp member ▸ formed_callOf fits some
  stops i inside := absurd inside (by simp)
  accepts := by
    rw [accepted_iff]
    refine ⟨fun taken i inside => ?_, fun all => all 0 Nat.one_pos⟩
    obtain rfl : i = 0 := Nat.lt_one_iff.mp inside
    exact taken
  front := by simp [idle, carried_callOf fits]
  whole _ := by simp [idle, carried_callOf fits]

theorem sendAll_stretch (pieces : List Bytes)
    (small : ∀ piece ∈ pieces, 0 < piece.length ∧ piece.length ≤ consoleCallBytes) :
    let sent := sendAll answers pieces w
    sent.2.pending = [] ∧ ∃ made, Stretch answers w pieces.flatten made sent.1 sent.2 ∧
      (sent.1 = true → made.length = pieces.length) := by
  induction pieces generalizing w with
  | nil => exact ⟨idle, [], by simpa [sendAll] using gather_stretch answers w [], fun _ => rfl⟩
  | cons piece rest ih =>
    obtain ⟨some, fits⟩ := small piece (.head _)
    have called := call_stretch answers idle some fits
    let w' : Writer := { w with calls := w.calls ++ [callOf piece] }
    obtain ⟨silent, made, stretch, count⟩ :=
      ih (w := w') idle fun piece member => small piece (.tail _ member)
    rw [List.flatten_cons, sendAll]
    cases taken : accepted (answers w.calls.length) with
    | true =>
      rw [taken] at called
      simp only [if_true]
      exact ⟨silent, _, called.trans stretch, fun success => by simp [count success]⟩
    | false =>
      rw [taken] at called
      exact ⟨idle, _, called.lost _, nofun⟩

/-- Bytes that are sent leave in as few calls as there can be. -/
theorem send_stretch (bytes : Bytes) :
    let sent := w.send answers bytes
    sent.2.pending = [] ∧ ∃ made, Stretch answers w bytes made sent.1 sent.2 ∧
      (sent.1 = true → made.length = (bytes.length + (consoleCallBytes - 1)) / consoleCallBytes) := by
  have sent := sendAll_stretch answers idle (chunks consoleCallBytes bytes) fun chunk =>
    length_of_mem_chunks (by decide) bytes
  rwa [flatten_chunks, length_chunks (by decide)] at sent

end

theorem flush_stretch (w : Writer) :
    let flushed := w.flush answers
    flushed.2.pending = [] ∧ ∃ made, Stretch answers w [] made flushed.1 flushed.2 ∧
      (flushed.1 = true →
        made.length = (w.pending.length + (consoleCallBytes - 1)) / consoleCallBytes) := by
  let emptied : Writer := { w with pending := [] }
  obtain ⟨silent, made, sent, count⟩ := send_stretch answers (w := emptied) rfl w.pending
  refine ⟨silent, made, ⟨sent.calls, sent.formed, sent.stops, sent.accepts, ?_, fun success => ?_⟩,
    count⟩
  · rw [List.append_nil]
    exact sent.front
  · rw [List.append_nil]
    exact sent.whole success

/-- Text is written. The buffer has room for what waits then, and if it has room for all the text, then every
call that was made is full. -/
structure Written (answers : Answers) (w : Writer) (text : Bytes) (made : List Registers) (ok : Bool)
    (after : Writer) : Prop extends Stretch answers w text made ok after where
  room : after.pending.length ≤ bufferSize
  full : w.pending.length + text.length ≤ bufferSize → ok = true →
    made.length * consoleCallBytes = (made.flatMap carried).length

theorem put_written {w : Writer} (room : w.pending.length ≤ bufferSize) (piece : Bytes) :
    ∃ made, Written answers w piece made (w.put answers piece).1 (w.put answers piece).2 := by
  obtain ⟨silent, made, flushed, count⟩ := flush_stretch answers w
  obtain ⟨ok, cleared, flushes⟩ : ∃ ok cleared, w.flush answers = (ok, cleared) := ⟨_, _, rfl⟩
  rw [flushes] at silent flushed count
  have idle : cleared.pending = [] := silent
  have dropped (refused : ok = false) : Written answers w piece made false cleared := by
    subst refused
    exact ⟨flushed.lost piece, by simp [idle], nofun⟩
  unfold put
  by_cases small : piece.length < bufferSize
  · rw [if_pos small]
    by_cases full : bufferSize - w.pending.length < piece.length
    · rw [if_pos full, flushes]
      cases ok with
      | true =>
        refine ⟨_, flushed.trans (gather_stretch answers cleared piece), ?_, fun fits => ?_⟩
        · simp [idle]
          omega
        · omega
      | false => exact ⟨made, dropped rfl⟩
    · rw [if_neg full]
      refine ⟨[], gather_stretch answers w piece, ?_, fun _ _ => rfl⟩
      simp
      omega
  · rw [if_neg small, flushes]
    cases ok with
    | true =>
      obtain ⟨after, others, sent, calls⟩ := send_stretch answers idle piece
      refine ⟨_, flushed.trans sent, by simp [after], fun fits success => ?_⟩
      have empty : w.pending.length = 0 := by omega
      have exactly : piece.length = bufferSize := by omega
      have text := congrArg List.length ((flushed.trans sent).whole success)
      rw [after, List.append_nil, List.nil_append, List.length_append] at text
      rw [List.length_append, count rfl, calls success, empty, exactly, ← text, empty, exactly]
      rfl
    | false => exact ⟨made, dropped rfl⟩

theorem Written.trans {w middle after : Writer} {text more : Bytes} {made others : List Registers} {ok : Bool}
    (first : Written answers w text made true middle) (second : Written answers middle more others ok after) :
    Written answers w (text ++ more) (made ++ others) ok after where
  toStretch := first.toStretch.trans second.toStretch
  room := second.room
  full fits success := by
    have lengths := congrArg List.length (first.whole rfl)
    simp only [List.length_append] at fits lengths
    have early := first.full (by omega) rfl
    have late := second.full (by omega) success
    rw [List.flatMap_append, List.length_append, List.length_append, Nat.add_mul, early, late]

theorem putAll_written {w : Writer} (room : w.pending.length ≤ bufferSize) (pieces : List Bytes) :
    ∃ made, Written answers w pieces.flatten made (putAll answers pieces w).1
      (putAll answers pieces w).2 := by
  induction pieces generalizing w with
  | nil =>
    have nothing := gather_stretch answers w []
    rw [List.append_nil] at nothing
    exact ⟨[], nothing, room, fun _ _ => rfl⟩
  | cons piece rest ih =>
    obtain ⟨made, written⟩ := put_written answers room piece
    rw [putAll, List.flatten_cons]
    obtain ⟨ok, after, puts⟩ : ∃ ok after, w.put answers piece = (ok, after) := ⟨_, _, rfl⟩
    rw [puts] at written ⊢
    cases ok with
    | true =>
      obtain ⟨others, later⟩ := ih written.room
      exact ⟨_, Written.trans answers written later⟩
    | false => exact ⟨made, written.toStretch.lost _, written.room, nofun⟩

end Writer

/-- What the console gets of a text, from this call on. -/
structure Transmitted (answers : Answers) (start : Nat) (text : Bytes) (made : List Registers) : Prop where
  formed : ∀ call ∈ made, Formed call
  stops : ∀ i, i + 1 < made.length → Accepts answers (start + i)
  front : made.flatMap carried <+: text
  whole : (∀ i < made.length, Accepts answers (start + i)) → made.flatMap carried = text
  count : (∀ i < made.length, Accepts answers (start + i)) → text.length ≤ bufferSize →
    made.length = (text.length + (consoleCallBytes - 1)) / consoleCallBytes

open Writer

theorem writeRecord_transmitted (answers : Answers) (pieces : List Bytes) (calls : List Registers) :
    ∃ made, writeRecord answers pieces calls = calls ++ made ∧
      Transmitted answers calls.length pieces.flatten made := by
  obtain ⟨made, written⟩ := putAll_written answers (w := { calls := calls }) (Nat.zero_le _) pieces
  unfold writeRecord
  obtain ⟨ok, after, puts⟩ : ∃ ok after, putAll answers pieces { calls := calls } = (ok, after) :=
    ⟨_, _, rfl⟩
  rw [puts] at written ⊢
  cases ok with
  | false =>
    have refused : ¬ ∀ i < made.length, Accepts answers (calls.length + i) :=
      fun all => absurd (written.accepts.mpr all) Bool.false_ne_true
    exact ⟨made, written.calls, written.formed, written.stops, written.front,
      fun all => absurd all refused, fun all => absurd all refused⟩
  | true =>
    obtain ⟨silent, last, flushed, count⟩ := flush_stretch answers after
    have sent := written.toStretch.trans flushed
    rw [List.append_nil] at sent
    refine ⟨made ++ last, sent.calls, sent.formed, sent.stops, sent.front, fun all => ?_,
      fun all fits => ?_⟩
    · have text := sent.whole (sent.accepts.mpr all)
      rw [silent, List.append_nil] at text
      exact text.symm
    · have text := congrArg List.length (written.whole rfl)
      have full := written.full (by simpa using fits) rfl
      have rest := count (sent.accepts.mpr all)
      simp only [List.nil_append, List.length_append, consoleCallBytes] at text full rest ⊢
      omega

/-- Of a text that does not fit the buffer, an early flush may leave a call that is not full. -/
example : (writeRecord (fun _ => FunctionId.ffaSuccess32) [zeros 100, zeros 100] []).map (·.x1) =
    [48, 48, 4, 48, 48, 4] := by decide +kernel

/-- The filter that a logger goes by for a target: the first one whose name the target starts with, or the
one for all others. -/
inductive Logger.Decides (l : Logger) (target : String) : Filter → Prop where
  | named {skipped rest : List (String × Filter)} {name : String} {filter : Filter}
      (place : l.filters = skipped ++ (name, filter) :: rest)
      (first : ∀ f ∈ skipped, ¬ f.1.toList <+: target.toList) (starts : name.toList <+: target.toList) :
      l.Decides target filter
  | others (none : ∀ f ∈ l.filters, ¬ f.1.toList <+: target.toList) : l.Decides target l.others

theorem Logger.decides (l : Logger) (target : String) : ∃ filter, l.Decides target filter ∧
    ∀ level : Level, l.enabled level target = true ↔ level.rank ≤ filter.rank := by
  cases found : l.filters.find? fun f => f.1.toList.isPrefixOf target.toList with
  | none =>
    refine ⟨l.others, .others fun f member => ?_, fun level => ?_⟩
    · rw [← List.isPrefixOf_iff_prefix]
      exact List.find?_eq_none.mp found f member
    · simp [enabled, found]
  | some f =>
    obtain ⟨starts, skipped, rest, place, first⟩ := List.find?_eq_some_iff_append.mp found
    refine ⟨f.2, .named place (fun g member => ?_) (List.isPrefixOf_iff_prefix.mp starts),
      fun level => ?_⟩
    · rw [← List.isPrefixOf_iff_prefix]
      exact Bool.eq_false_iff.mp (by simpa using first g member)
    · simp [enabled, found]

/-- A record as it reaches the console: its text comes in pieces. -/
structure Record where
  level : Level
  target : String
  pieces : List Bytes

def Record.write (answers : Answers) (l : Logger) (r : Record) (calls : List Registers) : List Registers :=
  if l.enabled r.level r.target then writeRecord answers r.pieces calls else calls

theorem Record.log_eq_write (answers : Answers) (l : Logger) (r : Record) {text : List String}
    (pieces : r.pieces = line r.level text) (calls : List Registers) :
    log answers l r.level r.target text calls = r.write answers l calls := by
  rw [write, pieces]
  rfl

/-- One record after the other. -/
def writeAll (answers : Answers) (l : Logger) (records : List Record) (calls : List Registers) :
    List Registers :=
  records.foldl (fun calls r => r.write answers l calls) calls

theorem writeAll_concat (answers : Answers) (l : Logger) (before : List Record) (r : Record)
    (calls : List Registers) :
    writeAll answers l (before ++ [r]) calls = r.write answers l (writeAll answers l before calls) := by
  simp [writeAll]

/-- What a record comes to does not depend on the records before it, whatever became of them: one that a
filter keeps back makes no call, and the text of any other arrives in order and without a gap, up to the
first call that is refused. -/
theorem writeAll_transmitted (answers : Answers) (l : Logger) (before : List Record) (r : Record)
    (calls : List Registers) :
    let earlier := writeAll answers l before calls
    ∃ filter made, l.Decides r.target filter ∧
      writeAll answers l (before ++ [r]) calls = earlier ++ made ∧
      (filter.rank < r.level.rank → made = []) ∧
      (r.level.rank ≤ filter.rank → Transmitted answers earlier.length r.pieces.flatten made ∧
        ∀ written rest, r.pieces = written ++ rest →
          (putAll answers written { calls := earlier }).2.pending.length ≤ bufferSize) ∧
      ∀ text, r.pieces = line r.level text →
        log answers l r.level r.target text earlier = earlier ++ made := by
  intro earlier
  obtain ⟨filter, decides, enabled⟩ := l.decides r.target
  rw [writeAll_concat]
  have lines (text : List String) (pieces : r.pieces = line r.level text) :
      log answers l r.level r.target text earlier = r.write answers l earlier :=
    r.log_eq_write answers l pieces _
  by_cases passes : r.level.rank ≤ filter.rank
  · obtain ⟨made, wrote, transmitted⟩ := writeRecord_transmitted answers r.pieces earlier
    have written : r.write answers l earlier = earlier ++ made := by
      rw [Record.write, if_pos ((enabled r.level).mpr passes), wrote]
    refine ⟨filter, made, decides, written, fun above => absurd passes (Nat.not_le.mpr above),
      fun _ => ⟨transmitted, fun pieces rest _ => ?_⟩,
      fun text pieces => (lines text pieces).trans written⟩
    obtain ⟨_, gathered⟩ := putAll_written answers (w := { calls := earlier }) (Nat.zero_le _) pieces
    exact gathered.room
  · have written : r.write answers l earlier = earlier ++ [] := by
      rw [Record.write, if_neg (mt (enabled r.level).mp passes), List.append_nil]
    exact ⟨filter, [], decides, written, fun _ => rfl, fun below => absurd below passes,
      fun text pieces => (lines text pieces).trans written⟩

end Console

end StandaloneMm
