import Mathlib

/-! Machine words: page arithmetic as masks, and little-endian byte strings of
any width. -/

namespace Minemu.Library

abbrev Byte := BitVec 8

/-- Masking away the low bits is rounding down. -/
theorem toNat_and_high (x : BitVec w) (k : Nat) :
    (x &&& (BitVec.allOnes w <<< k)).toNat = x.toNat / 2 ^ k * 2 ^ k := by
  have shifted : x &&& (BitVec.allOnes w <<< k) = (x >>> k) <<< k := by
    ext i bound
    by_cases low : i < k
    · simp [low]
    · have index : k + (i - k) = i := by omega
      simp [low, index, BitVec.getLsbD_eq_getElem bound]
  rw [shifted, BitVec.toNat_shiftLeft, BitVec.toNat_ushiftRight, Nat.shiftLeft_eq,
    Nat.shiftRight_eq_div_pow]
  exact Nat.mod_eq_of_lt (Nat.lt_of_le_of_lt (Nat.div_mul_le_self _ _) x.isLt)

/-- Masking away the high bits is taking a remainder. -/
theorem toNat_and_low (x : BitVec w) (k : Nat) (fits : k ≤ w) :
    (x &&& BitVec.ofNat w (2 ^ k - 1)).toNat = x.toNat % 2 ^ k := by
  have bound := Nat.pow_le_pow_right (n := 2) (by decide) fits
  have positive := Nat.two_pow_pos k
  rw [BitVec.toNat_and, BitVec.toNat_ofNat, Nat.mod_eq_of_lt (by omega),
    Nat.and_two_pow_sub_one_eq_mod]

/-- An aligned base and a small offset combine without carries. -/
theorem toNat_or_low (x y : BitVec w) (k : Nat) (aligned : x.toNat % 2 ^ k = 0)
    (small : y.toNat < 2 ^ k) : (x ||| y).toNat = x.toNat + y.toNat := by
  have base : x.toNat = 2 ^ k * (x.toNat / 2 ^ k) := by
    have split := Nat.div_add_mod x.toNat (2 ^ k)
    omega
  rw [BitVec.toNat_or, base, ← Nat.two_pow_add_eq_or_of_lt small]

/-- A masked word is zero when every bit of the mask is clear in it. -/
theorem and_eq_zero_iff {x mask : BitVec w} :
    x &&& mask = 0#w ↔ ∀ bit < w, mask.getLsbD bit = true → x.getLsbD bit = false := by
  constructor
  · intro empty bit inside set
    have bit := congrArg (BitVec.getLsbD · bit) empty
    simpa [set] using bit
  · intro clear
    refine BitVec.eq_of_getLsbD_eq fun bit inside => ?_
    cases set : mask.getLsbD bit with
    | false => simp [set]
    | true => simp [clear bit inside set]

/-- Testing a single bit through a mask. -/
theorem and_bit_ne_zero (x : BitVec w) {bit : Nat} (inside : bit < w) :
    x &&& (1#w <<< bit) ≠ 0#w ↔ x.getLsbD bit = true := by
  rw [Ne, and_eq_zero_iff]
  constructor
  · intro nonzero
    by_contra clear
    refine nonzero fun other bound set => ?_
    have same : other = bit := by
      simp [BitVec.getLsbD_shiftLeft, BitVec.getLsbD_one] at set
      omega
    exact same ▸ Bool.eq_false_iff.mpr clear
  · intro set empty
    have clear := empty bit inside (by simp [BitVec.getLsbD_shiftLeft, BitVec.getLsbD_one]; omega)
    simp [set] at clear

/-- The field of some width above a shift. -/
theorem toNat_shift_and_low (x : BitVec w) (shift : Nat) {k : Nat} (fits : k ≤ w) :
    ((x >>> shift) &&& BitVec.ofNat w (2 ^ k - 1)).toNat = (x.extractLsb' shift k).toNat := by
  rw [toNat_and_low _ k fits, BitVec.toNat_ushiftRight, BitVec.extractLsb'_toNat]

/-- Words that agree outside some bits agree through every mask without them. -/
theorem and_congr_of_disjoint {x y ignored mask : BitVec w}
    (same : x &&& ~~~ignored = y &&& ~~~ignored) (disjoint : mask &&& ~~~ignored = mask) :
    x &&& mask = y &&& mask := by
  rw [← disjoint, BitVec.and_comm mask, ← BitVec.and_assoc, ← BitVec.and_assoc, same]

/-- Setting ignored bits is invisible outside them. -/
theorem or_and_not_of_subset {x set ignored : BitVec w} (subset : set &&& ~~~ignored = 0#w) :
    (x ||| set) &&& ~~~ignored = x &&& ~~~ignored := by
  rw [BitVec.and_or_distrib_right, subset, BitVec.or_zero]

/-- The number a byte string spells, least significant byte first. -/
def littleEndian : List Byte → Nat
  | [] => 0
  | byte :: rest => byte.toNat + 256 * littleEndian rest

/-- The first `width` bytes of a number, least significant byte first. -/
def toBytes : Nat → Nat → List Byte
  | 0, _ => []
  | width + 1, value => BitVec.ofNat 8 value :: toBytes width (value / 256)

@[simp] theorem length_toBytes (width value : Nat) : (toBytes width value).length = width := by
  induction width generalizing value with
  | zero => rfl
  | succ width ih => simp [toBytes, ih]

/-- Setting bits of a number lowers none of its bytes. -/
theorem toBytes_or_le (width value bits index : Nat) :
    ((toBytes width value).getD index 0).toNat ≤
      ((toBytes width (value ||| bits)).getD index 0).toNat := by
  induction width generalizing value bits index with
  | zero => rfl
  | succ width ih =>
    cases index with
    | zero =>
      have low : (value ||| bits) % 256 = value % 256 ||| bits % 256 := Nat.or_mod_two_pow (n := 8)
      simp only [toBytes, List.getD_cons_zero, BitVec.toNat_ofNat]
      exact Nat.left_le_or.trans low.ge
    | succ index =>
      have high : (value ||| bits) / 256 = value / 256 ||| bits / 256 :=
        Nat.or_div_two_pow (n := 8)
      simp only [toBytes, List.getD_cons_succ, high]
      exact ih (value / 256) (bits / 256) index

theorem littleEndian_lt (bytes : List Byte) : littleEndian bytes < 256 ^ bytes.length := by
  induction bytes with
  | nil => simp [littleEndian]
  | cons byte rest ih =>
    have low := byte.isLt
    simp only [littleEndian, List.length_cons, Nat.pow_succ]
    omega

theorem littleEndian_toBytes (width value : Nat) (fits : value < 256 ^ width) :
    littleEndian (toBytes width value) = value := by
  induction width generalizing value with
  | zero => simp [toBytes, littleEndian] at fits ⊢; omega
  | succ width ih =>
    rw [Nat.pow_succ] at fits
    have high := ih (value / 256) (by omega)
    simp only [toBytes, littleEndian, high, BitVec.toNat_ofNat]
    omega

theorem toBytes_littleEndian (bytes : List Byte) :
    toBytes bytes.length (littleEndian bytes) = bytes := by
  induction bytes with
  | nil => rfl
  | cons byte rest ih =>
    have low := byte.isLt
    have quotient : littleEndian (byte :: rest) / 256 = littleEndian rest := by
      simp only [littleEndian]
      omega
    rw [List.length_cons, toBytes, quotient, ih]
    refine congrArg (· :: rest) (BitVec.eq_of_toNat_eq ?_)
    simp only [littleEndian, BitVec.toNat_ofNat]
    omega

end Minemu.Library
