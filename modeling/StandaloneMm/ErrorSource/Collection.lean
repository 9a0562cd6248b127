import StandaloneMm.Session.Channel

/-!
Collecting the descriptors from outside the partition. The first request has room for the two
leading words only and learns from them how large the second one has to be; there is no third.
-/
namespace StandaloneMm.ErrorSource

variable {ω : Type}

/-- The most bytes that can be asked for at a time: half the address space. Whether there is so much
memory left is not modelled, and every request up to here is granted. -/
def allocatable : Nat := 0x7FFFFFFFFFFFFFFF

/-- A message with room for the two words and `length` bytes of descriptors, all zero. A size that is
no word is an error; a word that no allocation can have stops the collector for good. -/
def request (length : Nat) : Except Fault Bytes :=
  let body := Info.size + length
  let total := MessageHeader.size + body
  if maxSize < total then .error (.error .outOfResources)
  else if allocatable < total then .error (.assertion .capacityOverflow)
  else .ok (MessageHeader.encode ⟨aggregatorGuid, UInt64.ofNat body⟩ ++ zeros body)

/-- The totals announced by the first reply; nothing is published if either is zero. -/
def announced (message : Bytes) : Except Error Info :=
  match Info.read (message.drop MessageHeader.size) with
  | .error e => .error e
  | .ok info => if info.count = 0 ∨ info.length = 0 then .error .notFound else .ok info

/-- The descriptors in the second reply, which may hold fewer bytes than it has room for. -/
def extract (message : Bytes) : Except Error Collection :=
  let payload := message.drop MessageHeader.size
  match Info.read payload with
  | .error e => .error e
  | .ok info =>
    let descriptors := payload.drop Info.size
    if descriptors.length < info.length.toNat then .error .badBufferSize
    else if info.count = 0 ∨ info.length = 0 then .error .notFound
    else .ok ⟨info.count, descriptors.take info.length.toNat⟩

/-- Only an announcement of nothing is on record. -/
def announcedRecords : Except Error Info → List Event
  | .error .notFound => [.log .info .hest]
  | _ => []

def extractRecords : Except Error Collection → List Event
  | .ok _ => [.log .info .hest]
  | .error .badBufferSize => [.log .error .hest]
  | .error _ => []

def failureRecords : Fault → List Event
  | .error _ => [.log .error .hest]
  | .assertion _ => []

def fetch (channel : Channel ω) (length : Nat) (m : Machine ω) :
    Except Fault Collection × Machine ω :=
  match request length with
  | .error fault => (.error fault, m)
  | .ok message =>
    let (exchange, m) := channel message none m
    match exchange.result with
    | .error fault => (.error fault, m.append (failureRecords fault))
    | .ok _ =>
      let found := extract exchange.message
      (found.mapError .error, m.append (extractRecords found))

def continueWith (channel : Channel ω) (reply : Bytes) (m : Machine ω) :
    Except Fault Collection × Machine ω :=
  let totals := announced reply
  let m := m.append (announcedRecords totals)
  match totals with
  | .error e => (.error (.error e), m)
  | .ok info => fetch channel info.length.toNat m

/-- Retrieves every descriptor. A first reply that did not fit still announces the totals. -/
def collect (channel : Channel ω) (m : Machine ω) : Except Fault Collection × Machine ω :=
  match request 0 with
  | .error fault => (.error fault, m)
  | .ok message =>
    let (exchange, m) := channel message none m
    match exchange.result with
    | .ok _ | .error (.error .bufferTooSmall) => continueWith channel exchange.message m
    | .error fault => (.error fault, m.append (failureRecords fault))

abbrev Table := Bytes → UInt64 → Except Error Unit

def append (channel : Channel ω) (table : Table) (m : Machine ω) :
    Except Fault Unit × Machine ω :=
  match collect channel m with
  | (.error fault, m) => (.error fault, m)
  | (.ok found, m) =>
    let m := m.record (.table found.descriptors found.count)
    match table found.descriptors found.count with
    | .ok _ => (.ok (), m)
    | .error e => (.error (.error e), m.log .error .hest)

end StandaloneMm.ErrorSource
