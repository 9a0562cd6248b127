import StandaloneMm.Bytes

/-!
Memory that both worlds reach by address, and spans of it. Every address holds a byte; reading
back a store gives the stored bytes inside it and the older bytes around it.
-/
namespace StandaloneMm

structure Memory where
  byte : Nat → UInt8

structure Span where
  base : Nat
  length : Nat
  deriving DecidableEq, Repr

namespace Memory

def blank : Memory := ⟨fun _ => 0⟩

def load (m : Memory) (base length : Nat) : Bytes :=
  (List.range length).map fun i => m.byte (base + i)

def store (m : Memory) (base : Nat) (data : Bytes) : Memory :=
  let stored := data.toArray
  ⟨fun address =>
    if address < base then m.byte address
    else match stored[address - base]? with
      | some b => b
      | none => m.byte address⟩

def loadSpan (m : Memory) (s : Span) : Bytes := m.load s.base s.length

@[simp] theorem length_load (m : Memory) (base length : Nat) :
    (m.load base length).length = length := by simp [load]

theorem take_load (m : Memory) (base length n : Nat) :
    (m.load base length).take n = m.load base (min n length) := by
  simp [load, ← List.map_take, List.take_range]

theorem byte_store (m : Memory) (base : Nat) (data : Bytes) (address : Nat) :
    (m.store base data).byte address =
      if address < base then m.byte address else data.getD (address - base) (m.byte address) := by
  simp only [store, List.getElem?_toArray, List.getD]
  split
  · rfl
  · cases data[address - base]? <;> rfl

theorem byte_store_outside (m : Memory) {base address : Nat} {data : Bytes}
    (outside : address < base ∨ base + data.length ≤ address) :
    (m.store base data).byte address = m.byte address := by
  rw [byte_store]
  split
  · rfl
  · rw [List.getD_eq_getElem?_getD, List.getElem?_eq_none (by omega), Option.getD_none]

theorem byte_store_inside (m : Memory) {base i : Nat} {data : Bytes} (inside : i < data.length) :
    (m.store base data).byte (base + i) = data[i] := by
  rw [byte_store, if_neg (by omega), Nat.add_sub_cancel_left, List.getD_eq_getElem?_getD,
    List.getElem?_eq_getElem inside, Option.getD_some]

theorem load_store (m : Memory) (base : Nat) (data : Bytes) :
    (m.store base data).load base data.length = data := by
  apply List.ext_getElem
  · simp
  · intro i _ inside
    simp [load, byte_store_inside m inside]

end Memory
end StandaloneMm
