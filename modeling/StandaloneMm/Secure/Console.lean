import StandaloneMm.Abi
import StandaloneMm.Bytes
import StandaloneMm.Journal

/-!
Log output of a partition that has no device of its own. The text of a record is gathered in a
buffer and sent to the partition manager in calls of at most 48 bytes; the first call that is
refused ends the record.
-/
namespace StandaloneMm.Console

/-- A whole number of calls. -/
def bufferSize : Nat := 3 * consoleCallBytes

/-- The answers to the calls, by how many were made before. -/
abbrev Answers := Nat → UInt64

/-- The levels that pass: those of this rank or a lower one. Without a level, none does. -/
abbrev Filter := Option Level

def Filter.rank (f : Filter) : Nat := (f.map Level.rank).getD 0

/-- The levels let through for targets by the start of their name, and for all others. -/
structure Logger where
  filters : List (String × Filter)
  others : Filter

/-- The first filter whose name starts the target decides. -/
def Logger.enabled (l : Logger) (level : Level) (target : String) : Bool :=
  let found := l.filters.find? fun f => f.1.toList.isPrefixOf target.toList
  level.rank ≤ Filter.rank ((found.map (·.2)).getD l.others)

/-- Up to 48 bytes in one call, packed least significant byte first into registers 2 to 7. -/
def callOf (chunk : Bytes) : Registers :=
  let sent := chunk.take consoleCallBytes
  let register i := UInt64.ofNat (ofLittleEndian ((sent.drop (8 * i)).take 8))
  { x0 := FunctionId.ffaConsoleLog
    x1 := UInt64.ofNat sent.length
    x2 := register 0
    x3 := register 1
    x4 := register 2
    x5 := register 3
    x6 := register 4
    x7 := register 5 }

def accepted (answer : UInt64) : Bool :=
  answer = FunctionId.ffaSuccess32 || answer = FunctionId.ffaSuccess64

/-- Cuts bytes into pieces of `n`, of which the last may be shorter; `n` is at least one. -/
def chunks (n : Nat) : Bytes → List Bytes
  | [] => []
  | b :: rest => (b :: rest.take (n - 1)) :: chunks n (rest.drop (n - 1))
termination_by bytes => bytes.length
decreasing_by
  simp only [List.length_drop, List.length_cons]
  omega

structure Writer where
  pending : Bytes := []
  calls : List Registers := []

namespace Writer

/-- Makes calls until one is refused; whether all were accepted is the first part. -/
def sendAll (answers : Answers) : List Bytes → Writer → Bool × Writer
  | [], w => (true, w)
  | chunk :: rest, w =>
    let answer := answers w.calls.length
    let w := { w with calls := w.calls ++ [callOf chunk] }
    if accepted answer then sendAll answers rest w else (false, w)

def send (answers : Answers) (bytes : Bytes) (w : Writer) : Bool × Writer :=
  sendAll answers (chunks consoleCallBytes bytes) w

/-- Sends what is pending. Nothing is pending afterwards, sent or not. -/
def flush (answers : Answers) (w : Writer) : Bool × Writer :=
  send answers w.pending { w with pending := [] }

/-- Takes one piece of text. A piece that no longer fits is gathered behind a flush, and a piece of
the buffer's size or more is sent past it. -/
def put (answers : Answers) (piece : Bytes) (w : Writer) : Bool × Writer :=
  if piece.length < bufferSize then
    let (flushed, w) :=
      if bufferSize - w.pending.length < piece.length then w.flush answers else (true, w)
    if flushed then (true, { w with pending := w.pending ++ piece }) else (false, w)
  else
    let (flushed, w) := w.flush answers
    if flushed then w.send answers piece else (false, w)

/-- The pieces of one record. That a piece which cannot be written is the last one is the contract of
whatever formats the text; the writer itself would take the next one. -/
def putAll (answers : Answers) : List Bytes → Writer → Bool × Writer
  | [], w => (true, w)
  | piece :: rest, w =>
    let (written, w) := w.put answers piece
    if written then putAll answers rest w else (false, w)

end Writer

/-- Writes a record piece by piece, on from the calls made before; its end is sent too unless a
call was refused. -/
def writeRecord (answers : Answers) (pieces : List Bytes) (calls : List Registers) :
    List Registers :=
  let (written, w) := Writer.putAll answers pieces { calls := calls }
  if written then (w.flush answers).2.calls else w.calls

def utf8 (s : String) : Bytes := s.toUTF8.toList

def line (level : Level) (text : List String) : List Bytes :=
  utf8 level.name :: utf8 ": " :: text.map utf8 ++ [utf8 "\n"]

def log (answers : Answers) (l : Logger) (level : Level) (target : String) (text : List String)
    (calls : List Registers) : List Registers :=
  if l.enabled level target then writeRecord answers (line level text) calls else calls

end StandaloneMm.Console
