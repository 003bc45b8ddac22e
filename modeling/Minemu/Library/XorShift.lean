import Mathlib

/-! Xor with a shift of the same word. The shift is linear over xor and dies out after as many
steps as there are bits, so nothing is lost. What a linear map does to a word is decided by what it
does to single bits. -/

namespace Minemu.Library

/-- Linear over xor, and nothing is left after some number of steps. -/
structure Vanishing {width : Nat} (shift : BitVec width → BitVec width) : Prop where
  xor : ∀ first second, shift (first ^^^ second) = shift first ^^^ shift second
  dies : ∃ steps, ∀ word, shift^[steps] word = 0

def xorShift {width : Nat} (shift : BitVec width → BitVec width) (word : BitVec width) :
    BitVec width := word ^^^ shift word

variable {width : Nat} {shift : BitVec width → BitVec width}

namespace Vanishing

/-- A word that a vanishing shift keeps is zero. -/
theorem eq_zero_of_fixed (vanishing : Vanishing shift) {word : BitVec width}
    (fixed : shift word = word) : word = 0 := by
  obtain ⟨steps, dies⟩ := vanishing.dies
  have kept : shift^[steps] word = word := Function.iterate_fixed fixed steps
  rw [← kept]
  exact dies word

theorem xorShift_injective (vanishing : Vanishing shift) : Function.Injective (xorShift shift) := by
  intro first second same
  -- The difference of two words with one image is a fixed word of the shift.
  have fixed : shift (first ^^^ second) = first ^^^ second := by
    unfold xorShift at same
    have moved : shift first = first ^^^ (second ^^^ shift second) := by
      rw [← same, ← BitVec.xor_assoc, BitVec.xor_self, BitVec.zero_xor]
    rw [vanishing.xor, moved, BitVec.xor_assoc, BitVec.xor_assoc, BitVec.xor_self,
      BitVec.xor_zero]
  have apart := vanishing.eq_zero_of_fixed fixed
  exact BitVec.xor_eq_zero_iff.mp apart

theorem xorShift_bijective (vanishing : Vanishing shift) : Function.Bijective (xorShift shift) :=
  Finite.injective_iff_bijective.mp vanishing.xorShift_injective

end Vanishing

theorem iterate_shiftLeft (bits steps : Nat) (word : BitVec width) :
    (fun word : BitVec width => word <<< bits)^[steps] word = word <<< (bits * steps) := by
  induction steps generalizing word with
  | zero => exact (BitVec.shiftLeft_zero word).symm
  | succ steps ih =>
    rw [Function.iterate_succ_apply, ih, ← BitVec.shiftLeft_add, Nat.mul_succ, Nat.add_comm]

theorem iterate_shiftRight (bits steps : Nat) (word : BitVec width) :
    (fun word : BitVec width => word >>> bits)^[steps] word = word >>> (bits * steps) := by
  induction steps generalizing word with
  | zero => exact (BitVec.ushiftRight_zero word).symm
  | succ steps ih =>
    rw [Function.iterate_succ_apply, ih, ← BitVec.shiftRight_add, Nat.mul_succ, Nat.add_comm]

theorem vanishing_shiftLeft {bits : Nat} (moves : 0 < bits) :
    Vanishing fun word : BitVec width => word <<< bits := by
  constructor
  · intro first second
    exact BitVec.shiftLeft_xor_distrib first second bits
  · refine ⟨width, fun word => ?_⟩
    rw [iterate_shiftLeft]
    exact BitVec.shiftLeft_eq_zero (Nat.le_mul_of_pos_left width moves)

theorem vanishing_shiftRight {bits : Nat} (moves : 0 < bits) :
    Vanishing fun word : BitVec width => word >>> bits := by
  constructor
  · intro first second
    exact BitVec.ushiftRight_xor_distrib first second bits
  · refine ⟨width, fun word => ?_⟩
    rw [iterate_shiftRight]
    exact BitVec.ushiftRight_eq_zero (Nat.le_mul_of_pos_left width moves)

/-! ### Linear maps -/

/-- A map that is linear over xor. -/
def Linear (map : BitVec width → BitVec width) : Prop :=
  ∀ first second, map (first ^^^ second) = map first ^^^ map second

theorem Vanishing.xorShift_linear (vanishing : Vanishing shift) : Linear (xorShift shift) := by
  intro first second
  unfold xorShift
  rw [vanishing.xor]
  ac_rfl

theorem Linear.comp {outer inner : BitVec width → BitVec width} (linear : Linear outer)
    (linear' : Linear inner) : Linear (outer ∘ inner) := by
  intro first second
  simp only [Function.comp_apply, linear' first second, linear (inner first) (inner second)]

theorem Linear.zero {map : BitVec width → BitVec width} (linear : Linear map) : map 0 = 0 := by
  have twice := linear 0 0
  rwa [BitVec.xor_self, BitVec.xor_self] at twice

/-- The low bits of a word. -/
def lowBits (word : BitVec width) (count : Nat) : BitVec width := (word.setWidth count).setWidth width

theorem lowBits_succ (word : BitVec width) (count : Nat) :
    lowBits word (count + 1) =
      lowBits word count ^^^ (if word.getLsbD count then BitVec.twoPow width count else 0) := by
  apply BitVec.eq_of_getLsbD_eq
  intro bit inside
  have selected : (if word.getLsbD count then BitVec.twoPow width count else 0).getLsbD bit =
      (word.getLsbD count && decide (count = bit)) := by
    split
    · rename_i set
      have within : count < width := BitVec.lt_of_getLsbD set
      rw [BitVec.getLsbD_twoPow, set, decide_eq_true within]
    · rename_i clear
      rw [Bool.eq_false_of_not_eq_true clear]
      exact BitVec.getLsbD_zero
  rw [BitVec.getLsbD_xor, selected]
  simp only [lowBits, BitVec.getLsbD_setWidth, inside, decide_true, Bool.true_and]
  by_cases same : count = bit
  · subst same
    simp
  · have order : bit < count + 1 ↔ bit < count := by omega
    simp [same, order]

/-- A linear map that keeps every single bit keeps every word. -/
theorem Linear.eq_of_bits {map : BitVec width → BitVec width} (linear : Linear map)
    (bits : ∀ bit < width, map (BitVec.twoPow width bit) = BitVec.twoPow width bit)
    (word : BitVec width) : map word = word := by
  have low (count : Nat) (within : count ≤ width) :
      map (lowBits word count) = lowBits word count := by
    induction count with
    | zero =>
      have nothing : lowBits word 0 = 0 := by
        apply BitVec.eq_of_getLsbD_eq
        intro bit _
        simp [lowBits]
      rw [nothing, linear.zero]
    | succ count ih =>
      rw [lowBits_succ, linear, ih (by omega)]
      congr 1
      split
      · exact bits count within
      · exact linear.zero
  have whole : lowBits word width = word := by simp [lowBits]
  rw [← whole, low width le_rfl]

/-- The columns that the bits of a word select, from one bit on. -/
def combine (word : BitVec width) : Nat → List (BitVec width) → BitVec width
  | _, [] => 0
  | bit, column :: columns =>
    (if word.getLsbD bit then column else 0) ^^^ combine word (bit + 1) columns

theorem combine_linear (bit : Nat) (columns : List (BitVec width)) :
    Linear fun word => combine word bit columns := by
  induction columns generalizing bit with
  | nil =>
    intro first second
    exact (BitVec.xor_self).symm
  | cons column columns ih =>
    intro first second
    have rest : combine (first ^^^ second) (bit + 1) columns =
        combine first (bit + 1) columns ^^^ combine second (bit + 1) columns :=
      ih (bit + 1) first second
    have head : (if (first ^^^ second).getLsbD bit then column else 0) =
        (if first.getLsbD bit then column else 0) ^^^
          (if second.getLsbD bit then column else 0) := by
      rw [BitVec.getLsbD_xor]
      cases first.getLsbD bit <;> cases second.getLsbD bit <;> simp
    simp only [combine, head, rest]
    ac_rfl

/-- A linear map that some columns undo on single bits sends no other word to zero. -/
theorem Linear.eq_zero_of_undone {map : BitVec width → BitVec width} (linear : Linear map)
    (columns : List (BitVec width))
    (undone : ∀ bit < width, combine (map (BitVec.twoPow width bit)) 0 columns =
      BitVec.twoPow width bit)
    {word : BitVec width} (vanished : map word = 0) : word = 0 := by
  have undo : Linear fun word => combine word 0 columns := combine_linear 0 columns
  have back : combine (map word) 0 columns = word :=
    (Linear.comp undo linear).eq_of_bits undone word
  rw [← back, vanished]
  exact undo.zero

end Minemu.Library
