import StandaloneMm.Memory
import StandaloneMm.Proofs.Codec

/-! Loads of neighbouring and overlapping ranges. A store is seen by a load that starts where it
does, and by no load of other addresses. -/
namespace StandaloneMm.Memory

theorem load_congr {m m' : Memory} {base length : Nat}
    (same : ∀ address, base ≤ address → address < base + length → m'.byte address = m.byte address) :
    m'.load base length = m.load base length := by
  apply List.map_congr_left
  intro i member
  have bound := List.mem_range.mp member
  exact same (base + i) (by omega) (by omega)

theorem getElem?_load (m : Memory) {base length i : Nat} (inside : i < length) :
    (m.load base length)[i]? = some (m.byte (base + i)) := by
  simp [load, inside]

theorem load_add (m : Memory) (base n k : Nat) :
    m.load base (n + k) = m.load base n ++ m.load (base + n) k := by
  simp only [load, List.range_add, List.map_append, List.map_map]
  congr 1
  apply List.map_congr_left
  intro i _
  simp [Nat.add_assoc]

theorem drop_load (m : Memory) (base length n : Nat) :
    (m.load base length).drop n = m.load (base + n) (length - n) := by
  by_cases inside : n ≤ length
  · conv => lhs; rw [← Nat.add_sub_cancel' inside, load_add]
    exact List.drop_left' (length_load ..)
  · rw [List.drop_eq_nil_of_le (by simp; omega), Nat.sub_eq_zero_of_le (by omega)]
    rfl

theorem load_store_append (m : Memory) (base : Nat) (data : Bytes) (k : Nat) :
    (m.store base data).load base (data.length + k) = data ++ m.load (base + data.length) k := by
  rw [load_add, load_store]
  congr 1
  apply load_congr
  intro address low _
  exact byte_store_outside m (Or.inr low)

theorem load_store_outside (m : Memory) {base address length : Nat} {data : Bytes}
    (outside : address + length ≤ base ∨ base + data.length ≤ address) :
    (m.store base data).load address length = m.load address length := by
  apply load_congr
  intro a low high
  exact byte_store_outside m (by omega)

theorem load_store_inside (m : Memory) {base offset length : Nat} {data : Bytes}
    (inside : offset + data.length ≤ length) :
    (m.store (base + offset) data).load base length =
      m.load base offset ++ data ++ m.load (base + offset + data.length) (length - (offset + data.length)) := by
  conv => lhs; rw [show length = offset + (data.length + (length - (offset + data.length))) by omega]
  rw [load_add, load_store_append, load_store_outside m (Or.inl (Nat.le_refl _)), List.append_assoc]

theorem store_load (m : Memory) (base length : Nat) : m.store base (m.load base length) = m := by
  have same : (m.store base (m.load base length)).byte = m.byte := by
    funext address
    by_cases low : address < base
    · exact byte_store_outside m (Or.inl low)
    by_cases high : base + length ≤ address
    · exact byte_store_outside m (Or.inr (by simpa using high))
    obtain ⟨i, rfl⟩ := Nat.exists_eq_add_of_le (Nat.le_of_not_lt low)
    rw [byte_store_inside m (by simp; omega)]
    simp [load]
  exact congrArg Memory.mk same

theorem read_front (m : Memory) (base length : Nat) :
    MessageHeader.read (m.load base (min MessageHeader.size length)) =
      MessageHeader.read (m.load base length) := by
  rw [← take_load, MessageHeader.read, MessageHeader.decode?_take (Nat.le_refl _), MessageHeader.read]

end StandaloneMm.Memory
