/-!
Byte strings and the words written in them. A word of `n` bytes is written least significant
byte first; `ofLittleEndian` reads back what `littleEndian` writes.
-/
namespace StandaloneMm

abbrev Bytes := List UInt8

/-- The `n` low bytes of `value`, least significant first. -/
def littleEndian : Nat → Nat → Bytes
  | 0, _ => []
  | n + 1, value => UInt8.ofNat value :: littleEndian n (value / 256)

/-- The number whose bytes are given, least significant first. -/
def ofLittleEndian : Bytes → Nat
  | [] => 0
  | b :: rest => b.toNat + 256 * ofLittleEndian rest

/-- The `n` low bytes of `value`, most significant first. -/
def bigEndian (n value : Nat) : Bytes := (littleEndian n value).reverse

def ofBigEndian (bytes : Bytes) : Nat := ofLittleEndian bytes.reverse

@[simp] theorem length_littleEndian (n value : Nat) : (littleEndian n value).length = n := by
  induction n generalizing value with
  | zero => rfl
  | succ n ih => simp [littleEndian, ih]

@[simp] theorem length_bigEndian (n value : Nat) : (bigEndian n value).length = n := by
  simp [bigEndian]

theorem ofLittleEndian_lt (bytes : Bytes) :
    ofLittleEndian bytes < Nat.pow 256 bytes.length := by
  induction bytes with
  | nil => exact Nat.one_pos
  | cons b rest ih =>
    have hb := b.toNat_lt
    have step : Nat.pow 256 (rest.length + 1) = Nat.pow 256 rest.length * 256 := rfl
    rw [List.length_cons, step, ofLittleEndian]
    omega

theorem ofLittleEndian_littleEndian (n value : Nat) :
    ofLittleEndian (littleEndian n value) = value % Nat.pow 256 n := by
  induction n generalizing value with
  | zero => exact (Nat.mod_one value).symm
  | succ n ih =>
    have step : Nat.pow 256 (n + 1) = 256 * Nat.pow 256 n := Nat.mul_comm _ _
    rw [littleEndian, ofLittleEndian, ih, UInt8.toNat_ofNat', step, Nat.mod_mul]

theorem littleEndian_ofLittleEndian (bytes : Bytes) :
    littleEndian bytes.length (ofLittleEndian bytes) = bytes := by
  induction bytes with
  | nil => rfl
  | cons b rest ih =>
    have hb := b.toNat_lt
    simp only [List.length_cons, littleEndian, ofLittleEndian]
    rw [show (b.toNat + 256 * ofLittleEndian rest) / 256 = ofLittleEndian rest by omega, ih]
    congr 1
    apply UInt8.toNat_inj.mp
    simp only [UInt8.toNat_ofNat']
    omega

/-- `fresh` laid over the start of `old`, cut to its room. -/
def overlay (old fresh : Bytes) : Bytes := fresh.take old.length ++ old.drop fresh.length

@[simp] theorem length_overlay (old fresh : Bytes) : (overlay old fresh).length = old.length := by
  simp [overlay]; omega

theorem overlay_of_length_le {old fresh : Bytes} (fits : fresh.length ≤ old.length) :
    overlay old fresh = fresh ++ old.drop fresh.length := by
  rw [overlay, List.take_of_length_le fits]

/-- `fresh` laid over `old` from `offset` on, cut to the room behind it. -/
def overlayAt (old : Bytes) (offset : Nat) (fresh : Bytes) : Bytes :=
  old.take offset ++ overlay (old.drop offset) fresh

def zeros (n : Nat) : Bytes := List.replicate n 0

@[simp] theorem length_zeros (n : Nat) : (zeros n).length = n := by simp [zeros]

end StandaloneMm
