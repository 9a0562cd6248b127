import StandaloneMm.Journal

/-!
Gathering the descriptors of every provider into one reply. Providers are first asked for their
sizes; if the caller has room for the sum, each then writes behind the one before it. A caller
without the room gets the totals alone and can come back with enough.
-/
namespace StandaloneMm.ErrorSource

structure Summary where
  /-- Length of the descriptors in bytes. -/
  length : UInt64 := 0
  count : UInt64 := 0
  deriving DecidableEq, Repr, Inhabited

/-- What a provider reports of its descriptors, and with which result. -/
structure Report where
  summary : Summary
  result : Except Error Unit

/-- A provider is trusted with nothing: it may report anything, and leave anything in the buffer it
is given, whose contents it sees. -/
structure Provider where
  probe : Report
  fill : Bytes → Bytes × Report

structure Outcome where
  result : Except Error Unit
  body : Bytes
  events : List Event

def located (published : List Provider) : Except Error (List Provider) :=
  if published.isEmpty then .error .notFound else .ok published

/-- A sum that stays a word. -/
def sum? (a b : UInt64) : Option UInt64 :=
  if a.toNat + b.toNat ≤ maxSize then some (a + b) else none

/-- Takes a report into the totals. A provider asked for its size answers that there was no buffer;
any other result, and a sum past a word, leaves the totals as they were. -/
def Summary.add? (totals : Summary) (report : Report) : Option Summary :=
  match report.result with
  | .error .bufferTooSmall => do
    let length ← sum? totals.length report.summary.length
    let count ← sum? totals.count report.summary.count
    return { length, count }
  | _ => none

def probeFrom (index : Nat) (totals : Summary) : List Provider → Summary × List Event
  | [] => (totals, [])
  | provider :: rest =>
    match totals.add? provider.probe with
    | some more =>
      let (final, events) := probeFrom (index + 1) more rest
      (final, .probe index :: .log .trace .hest :: events)
    | none =>
      let (final, events) := probeFrom (index + 1) totals rest
      (final, .probe index :: .log .warn .hest :: events)

def probeAll (providers : List Provider) : Summary × List Event := probeFrom 0 {} providers

/-- The area behind the two words, and how far it is taken. -/
structure Writer where
  payload : Bytes
  cursor : Nat := 0
  count : UInt64 := 0

namespace Writer

/-- Counts stay at the largest word once they reach it. -/
def addCount (a b : UInt64) : UInt64 := (sum? a b).getD (UInt64.ofNat maxSize)

/-- Lets a provider write at the cursor, with all that is left of the area. The cursor moves only
past a success that claims no more than was left. -/
def append (w : Writer) (index : Nat) (provider : Provider) : Writer × List Event :=
  let room := w.payload.drop w.cursor
  let (left, report) := provider.fill room
  let w := { w with payload := w.payload.take w.cursor ++ overlay room left }
  let claimed := report.summary.length.toNat
  match report.result with
  | .ok _ =>
    if claimed ≤ room.length then
      let count := addCount w.count report.summary.count
      ({ w with cursor := w.cursor + claimed, count := count }, [.fill index room.length])
    else (w, [.fill index room.length, .log .warn .hest])
  | .error _ => (w, [.fill index room.length, .log .warn .hest])

def appendFrom (index : Nat) (w : Writer) : List Provider → Writer × List Event
  | [] => (w, [])
  | provider :: rest =>
    let (w, events) := w.append index provider
    let (w, more) := appendFrom (index + 1) w rest
    (w, events ++ more)

def summary (w : Writer) : Summary where
  length := UInt64.ofNat w.cursor
  count := w.count

end Writer

def Summary.info (s : Summary) : Info where
  count := s.count
  length := s.length

/-- The second pass: the providers share the area behind the two words, and words that turn out
wrong are written again. -/
def fillAll (providers : List Provider) (totals : Summary) (body : Bytes) : Bytes × List Event :=
  let area := (body.drop Info.size).take totals.length.toNat
  let (w, events) := Writer.appendFrom 0 { payload := area } providers
  let body := overlayAt body Info.size w.payload
  if w.summary = totals then (body, events ++ [.log .debug .hest])
  else (overlay body w.summary.info.encode,
    events ++ [.log .error .hest, .log .debug .hest])

def aggregate (published : Except Error (List Provider)) (body : Bytes) : Outcome :=
  if body.length < Info.size then ⟨.error .invalidParameter, body, [.log .error .hest]⟩
  else match published with
  | .error _ => ⟨.error .notFound, body, [.log .error .hest]⟩
  | .ok providers =>
    let (totals, events) := probeAll providers
    if totals.count = 0 ∨ totals.length = 0 then
      ⟨.error .notFound, body, events ++ [.log .info .hest]⟩
    else
      let announcing := overlay body totals.info.encode
      let required := Info.size + totals.length.toNat
      if maxSize < required then ⟨.error .bufferTooSmall, announcing, events⟩
      else if body.length < required then
        ⟨.error .bufferTooSmall, announcing, events ++ [.log .info .hest]⟩
      else
        let (body, more) := fillAll providers totals announcing
        ⟨.ok (), body, events ++ more⟩

end StandaloneMm.ErrorSource
