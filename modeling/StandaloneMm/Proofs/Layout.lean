import StandaloneMm.Proofs.Codec

/-! Records at the start of a buffer, byte by byte. A record has a written form of a fixed size; a buffer holds
the record whose form it starts with, and a write changes that part alone. A buffer that is too short for the
form holds no record and takes none. -/
namespace StandaloneMm

/-- The low `n` bytes of a number, each shifted down from its place, the lowest first. -/
def octets (n value : Nat) : Bytes := (List.range n).map fun i => UInt8.ofNat (value >>> (8 * i))

/-- The first three fields stand with their low bytes first, the last one with its high bytes first. -/
def Guid.form (g : Guid) : Bytes :=
  octets 4 g.data1.toNat ++ octets 2 g.data2.toNat ++ octets 2 g.data3.toNat ++ (octets 8 g.data4.toNat).reverse

def MessageHeader.form (h : MessageHeader) : Bytes := h.recipient.form ++ octets 8 h.length.toNat

def ErrorSource.Info.form (i : Info) : Bytes := octets 8 i.count.toNat ++ octets 8 i.length.toNat

def PartitionDescriptor.form (d : PartitionDescriptor) : Bytes :=
  octets 2 d.id.toNat ++ octets 2 d.contexts.toNat ++ octets 4 d.properties.toNat

theorem littleEndian_eq_octets (n value : Nat) : littleEndian n value = octets n value := by
  induction n generalizing value with
  | zero => rfl
  | succ n ih =>
    have next (i : Nat) : (value / 256) >>> (8 * i) = value >>> (8 * (i + 1)) := by
      rw [Nat.mul_succ, Nat.add_comm, Nat.shiftRight_add, Nat.shiftRight_eq_div_pow value 8]
    rw [littleEndian, ih, octets, octets, List.range_succ_eq_map, List.map_cons, List.map_map]
    simp only [next, Function.comp_def, Nat.succ_eq_add_one, Nat.mul_zero, Nat.shiftRight_zero]

theorem Guid.encode_eq_form (g : Guid) : g.encode = g.form := by
  simp only [encode, form, bigEndian, littleEndian_eq_octets]

theorem MessageHeader.encode_eq_form (h : MessageHeader) : h.encode = h.form := by
  simp only [encode, form, Guid.encode_eq_form, littleEndian_eq_octets]

theorem ErrorSource.Info.encode_eq_form (i : Info) : i.encode = i.form := by
  simp only [encode, form, littleEndian_eq_octets]

theorem PartitionDescriptor.encode_eq_form (d : PartitionDescriptor) : d.encode = d.form := by
  simp only [encode, form, littleEndian_eq_octets]

/-- The bytes of a buffer after a write to it; a write that fails leaves them as they are. -/
def afterWrite (write : Bytes → Except Error Bytes) (buffer : Bytes) : Bytes :=
  match write buffer with
  | .ok written => written
  | .error _ => buffer

section

variable {α : Type} {size : Nat} {form : α → Bytes} {decode? : Bytes → Option α}
  {read : Bytes → Except Error α} {write : α → Bytes → Except Error Bytes}

/-- A buffer holds the record whose form it starts with, and none just if it is too short for one. -/
structure Layout (size : Nat) (form : α → Bytes) (decode? : Bytes → Option α) : Prop where
  length_form (a : α) : (form a).length = size
  decode?_eq_some_iff {buffer : Bytes} {a : α} : decode? buffer = some a ↔ form a <+: buffer
  decode?_eq_none_iff {buffer : Bytes} : decode? buffer = none ↔ buffer.length < size

theorem Layout.of_laws (length_form : ∀ a, (form a).length = size)
    (decode?_form_append : ∀ a rest, decode? (form a ++ rest) = some a)
    (form_of_decode? : ∀ {buffer a}, decode? buffer = some a → form a = buffer.take size)
    (decode?_eq_none_iff : ∀ {buffer}, decode? buffer = none ↔ buffer.length < size) :
    Layout size form decode? where
  length_form := length_form
  decode?_eq_some_iff {buffer a} := by
    constructor
    · intro found
      exact form_of_decode? found ▸ List.take_prefix _ _
    · rintro ⟨rest, rfl⟩
      exact decode?_form_append a rest
  decode?_eq_none_iff := decode?_eq_none_iff

/-- Records are written over the start of buffers and read from there. -/
structure Inscribes (size : Nat) (form : α → Bytes) (read : Bytes → Except Error α)
    (write : α → Bytes → Except Error Bytes) : Prop where
  length_form (a : α) : (form a).length = size
  write_ok_iff (a : α) (buffer : Bytes) : (∃ written, write a buffer = .ok written) ↔ size ≤ buffer.length
  written (a : α) (buffer : Bytes) : size ≤ buffer.length →
    afterWrite (write a) buffer = form a ++ buffer.drop size
  read_written (a : α) (buffer : Bytes) : size ≤ buffer.length → read (afterWrite (write a) buffer) = .ok a
  write_short (a : α) (buffer : Bytes) : buffer.length < size →
    write a buffer = .error .bufferTooSmall ∧ afterWrite (write a) buffer = buffer
  read_ok_iff (a : α) (buffer : Bytes) : read buffer = .ok a ↔ form a <+: buffer
  read_short (buffer : Bytes) : buffer.length < size → read buffer = .error .invalidParameter
  write_read (a : α) (buffer : Bytes) : read buffer = .ok a → write a buffer = .ok buffer

section

variable (layout : Layout size form decode?)
  (reads : ∀ buffer, read buffer =
    match decode? buffer with
    | some a => .ok a
    | none => .error .invalidParameter)
  (writes : ∀ a buffer, write a buffer =
    if buffer.length < size then .error .bufferTooSmall else .ok (overlay buffer (form a)))

include layout reads in
theorem Layout.read_ok_iff (a : α) (buffer : Bytes) : read buffer = .ok a ↔ form a <+: buffer := by
  rw [reads, ← layout.decode?_eq_some_iff]
  cases decode? buffer with
  | none | some => simp

include writes in
theorem Layout.write_short (a : α) {buffer : Bytes} (less : buffer.length < size) :
    write a buffer = .error .bufferTooSmall := by
  rw [writes, if_pos less]

include layout writes in
theorem Layout.write_fits (a : α) {buffer : Bytes} (room : size ≤ buffer.length) :
    write a buffer = .ok (form a ++ buffer.drop size) := by
  have within : (form a).length ≤ buffer.length := by rw [layout.length_form]; exact room
  rw [writes, if_neg (Nat.not_lt.mpr room), overlay_of_length_le within, layout.length_form]

include layout reads writes in
/-- All that reading and writing do follows from where records lie. -/
theorem Layout.inscribes : Inscribes size form read write where
  length_form := layout.length_form
  write_ok_iff a buffer := by
    refine ⟨fun ⟨written, done⟩ => Nat.not_lt.mp fun less => ?_, fun room => ⟨_, layout.write_fits writes a room⟩⟩
    rw [write_short writes a less] at done
    contradiction
  written a buffer room := by rw [afterWrite, layout.write_fits writes a room]
  read_written a buffer room := by
    rw [afterWrite, layout.write_fits writes a room, layout.read_ok_iff reads]
    exact List.prefix_append _ _
  write_short a buffer less := by
    rw [afterWrite, write_short writes a less]
    exact ⟨rfl, rfl⟩
  read_ok_iff := layout.read_ok_iff reads
  read_short buffer less := by rw [reads, layout.decode?_eq_none_iff.mpr less]
  write_read a buffer found := by
    obtain ⟨rest, rfl⟩ := (layout.read_ok_iff reads a buffer).mp found
    have length := layout.length_form a
    rw [layout.write_fits writes a (by simp [length]), ← length, List.drop_left]

end

end

theorem MessageHeader.layout : Layout size form decode? :=
  funext encode_eq_form ▸ .of_laws length_encode decode?_encode_append encode_of_decode? decode?_eq_none_iff

theorem ErrorSource.Info.layout : Layout size form decode? :=
  funext encode_eq_form ▸ .of_laws length_encode decode?_encode_append encode_of_decode? decode?_eq_none_iff

theorem PartitionDescriptor.layout : Layout size form decode? :=
  funext encode_eq_form ▸ .of_laws length_encode decode?_encode_append encode_of_decode? decode?_eq_none_iff

namespace MessageHeader

variable {h h' : MessageHeader}

theorem total_eq (h : MessageHeader) :
    h.total = if size + h.length.toNat ≤ maxSize then size + h.length.toNat else maxSize := by
  rw [total, Nat.min_def]

theorem total_le_total (shorter : h.length ≤ h'.length) : h.total ≤ h'.total := by
  have ordered := UInt64.le_iff_toNat_le.mp shorter
  unfold total
  omega

theorem le_total_iff {room : Nat} (representable : room ≤ maxSize) :
    room ≤ h.total ↔ room ≤ size + h.length.toNat := by
  rw [total, Nat.le_min, and_iff_left representable]

end MessageHeader

/-- The records of the wire lie in their buffers as their forms say. A header is written over the first bytes of
a buffer, if it has as many, and read back as it was; what is read and written back changes nothing; a shorter
buffer is left alone and holds no header. The total size that a message header declares is exact as long as it
is a word, so that no length is long enough to be taken for a short one. -/
theorem records_inscribed :
    Inscribes 24 MessageHeader.form MessageHeader.read MessageHeader.write ∧
    Inscribes 16 ErrorSource.Info.form ErrorSource.Info.read ErrorSource.Info.write ∧
    Layout 8 PartitionDescriptor.form PartitionDescriptor.decode? ∧
    (∀ h : MessageHeader, h.total =
      if 24 + h.length.toNat ≤ 0xFFFFFFFFFFFFFFFF then 24 + h.length.toNat else 0xFFFFFFFFFFFFFFFF) ∧
    (∀ h h' : MessageHeader, h.length ≤ h'.length → h.total ≤ h'.total) ∧
    ∀ (h : MessageHeader) (room : UInt64), room.toNat ≤ h.total ↔ room.toNat ≤ 24 + h.length.toNat := by
  refine ⟨MessageHeader.layout.inscribes (fun message => ?_) fun h message => ?_,
    ErrorSource.Info.layout.inscribes (fun body => ?_) fun i body => ?_, PartitionDescriptor.layout,
    MessageHeader.total_eq, fun h h' => MessageHeader.total_le_total, fun h room => ?_⟩
  · rw [MessageHeader.read]
    cases MessageHeader.decode? message with
    | none | some => rfl
  · rw [MessageHeader.write, MessageHeader.encode_eq_form]
  · rw [ErrorSource.Info.read]
    cases ErrorSource.Info.decode? body with
    | none | some => rfl
  · rw [ErrorSource.Info.write, ErrorSource.Info.encode_eq_form]
  · have representable : room.toNat ≤ maxSize := Nat.le_pred_of_lt room.toNat_lt
    exact MessageHeader.le_total_iff representable

/-- A header over the front of a buffer with two bytes to spare, a buffer one byte too short for one, and a
length whose total is one more than a word can tell. -/
theorem records_inscribed_at_limits :
    let h : MessageHeader := ⟨⟨0x12345678, 0x9ABC, 0xDEF0, 0x0102030405060708⟩, 0x1122⟩
    let longest : MessageHeader := { h with length := 0xFFFFFFFFFFFFFFE8 }
    let buffer : Bytes := List.replicate 26 0xAA
    let laid : Bytes := [0x78, 0x56, 0x34, 0x12, 0xBC, 0x9A, 0xF0, 0xDE, 1, 2, 3, 4, 5, 6, 7, 8,
      0x22, 0x11, 0, 0, 0, 0, 0, 0, 0xAA, 0xAA]
    afterWrite h.write buffer = laid ∧ MessageHeader.read laid = .ok h ∧ h.write laid = .ok laid ∧
      MessageHeader.read (buffer.take 23) = .error .invalidParameter ∧
      h.write (buffer.take 23) = .error .bufferTooSmall ∧ h.total ≤ longest.total ∧
      longest.total = 0xFFFFFFFFFFFFFFFF ∧
      PartitionDescriptor.decode? [3, 0x80, 1, 0, 3, 0, 0, 0, 0xAA] = some ⟨0x8003, 1, 3⟩ := by
  intro h longest buffer laid
  obtain ⟨headers, _, descriptors, total, ordered, _⟩ := records_inscribed
  have room : 24 ≤ buffer.length := by decide
  have short : (buffer.take 23).length < 24 := by decide
  have written : afterWrite h.write buffer = laid := (headers.written h buffer room).trans (by decide)
  have read : MessageHeader.read laid = .ok h := written ▸ headers.read_written h buffer room
  exact ⟨written, read, headers.write_read h laid read, headers.read_short _ short,
    (headers.write_short h _ short).1, ordered h longest (by decide), (total longest).trans (by decide),
    descriptors.decode?_eq_some_iff.mpr ⟨[0xAA], by decide⟩⟩

end StandaloneMm
