import StandaloneMm.Version

/-! The word of a version as a number, and what a register says of a version by the number it holds. -/
namespace StandaloneMm.Version

theorem toNat_pack (v : Version) : v.pack.toNat = v.major.toNat % 0x8000 * 0x10000 + v.minor.toNat := by
  have minor := v.minor.toNat_lt
  have major : (v.major.toUInt32 &&& 0x7FFF).toNat = v.major.toNat % 0x8000 := by
    rw [UInt32.toNat_and, UInt16.toNat_toUInt32]
    exact Nat.and_two_pow_sub_one_eq_mod _ 15
  have shifted : ((v.major.toUInt32 &&& 0x7FFF) <<< 16).toNat = (v.major.toNat % 0x8000) <<< 16 := by
    rw [UInt32.toNat_shiftLeft, major, Nat.shiftLeft_eq, Nat.shiftLeft_eq]
    exact Nat.mod_eq_of_lt (by simp; omega)
  rw [pack, UInt32.toNat_or, shifted, UInt16.toNat_toUInt32, ← Nat.shiftLeft_add_eq_or_of_lt minor,
    Nat.shiftLeft_eq]

/-- Only the low half of a register is read, and of that not the top bit unless all are set. -/
theorem ofRegister_eq (value : UInt64) : ofRegister value =
    if value.toNat % 0x100000000 = 0xFFFFFFFF then none
    else some ⟨UInt16.ofNat (value.toNat / 0x10000 % 0x8000), UInt16.ofNat (value.toNat % 0x10000)⟩ := by
  have word : value.toUInt32.toNat = value.toNat % 0x100000000 := UInt64.toNat_toUInt32 value
  have silent : value.toUInt32 = notSupported ↔ value.toNat % 0x100000000 = 0xFFFFFFFF := by
    rw [← word]
    exact UInt32.toNat_inj.symm
  have major : ((value.toUInt32 >>> 16) &&& 0x7FFF).toUInt16 =
      UInt16.ofNat (value.toNat / 0x10000 % 0x8000) := by
    have shifted : (value.toUInt32 >>> 16).toNat = value.toNat % 0x100000000 / 0x10000 := by
      rw [UInt32.toNat_shiftRight, word]
      exact Nat.shiftRight_eq_div_pow _ 16
    have masked : ((value.toUInt32 >>> 16) &&& 0x7FFF).toNat = value.toNat % 0x100000000 / 0x10000 % 0x8000 := by
      rw [UInt32.toNat_and, shifted]
      exact Nat.and_two_pow_sub_one_eq_mod _ 15
    apply UInt16.toNat_inj.mp
    rw [UInt32.toNat_toUInt16, masked, UInt16.toNat_ofNat']
    omega
  have minor : value.toUInt32.toUInt16 = UInt16.ofNat (value.toNat % 0x10000) := by
    apply UInt16.toNat_inj.mp
    rw [UInt32.toNat_toUInt16, word, UInt16.toNat_ofNat']
    omega
  simp only [ofRegister, silent, major, minor]

theorem ofRegister_pack (v : Version) :
    ofRegister v.pack.toUInt64 = some ⟨UInt16.ofNat (v.major.toNat % 0x8000), v.minor⟩ := by
  have minor := v.minor.toNat_lt
  have word : v.pack.toUInt64.toNat = v.major.toNat % 0x8000 * 0x10000 + v.minor.toNat := by
    rw [UInt32.toNat_toUInt64, toNat_pack]
  have spoken : ¬ v.pack.toUInt64.toNat % 0x100000000 = 0xFFFFFFFF := by omega
  have high : v.pack.toUInt64.toNat / 0x10000 % 0x8000 = v.major.toNat % 0x8000 := by omega
  have low : v.pack.toUInt64.toNat % 0x10000 = v.minor.toNat := by omega
  rw [ofRegister_eq, if_neg spoken, high, low, UInt16.ofNat_toNat]

theorem ofRegister_notSupported : ofRegister notSupported.toUInt64 = none := rfl

end StandaloneMm.Version
