import Mathlib

/-! Numerals read digit by digit under a bound: a reading succeeds exactly on the numerals of the
numbers below it, whatever their leading zeros. -/

namespace Minemu.Library

variable {α : Type u}

/-- The symbols spell the number in this base, the highest digit first. -/
def Spells (base : Nat) (digit : α → Option Nat) (text : List α) (number : Nat) : Prop :=
  ∃ values : List Nat, text.map digit = values.map some ∧
    Nat.ofDigits base values.reverse = number

/-- What spells a number is digits only. -/
theorem Spells.digits {base : Nat} {digit : α → Option Nat} {text : List α} {number : Nat}
    (spells : Spells base digit text number) {symbol : α} (member : symbol ∈ text) :
    (digit symbol).isSome = true := by
  obtain ⟨values, same, _⟩ := spells
  have image : digit symbol ∈ values.map some := by
    rw [← same]
    exact List.mem_map_of_mem member
  obtain ⟨value, _, read⟩ := List.mem_map.mp image
  rw [← read]
  rfl

/-- One digit more, unless the bound is reached. -/
def pushDigit (base bound : Nat) (digit : α → Option Nat) (value : Nat) (symbol : α) :
    Option Nat := do
  let next := value * base + (← digit symbol)
  if next < bound then some next else none

variable {base bound : Nat} {digit : α → Option Nat} {text : List α} {number : Nat}

theorem pushDigit_eq_some {value next : Nat} {symbol : α} :
    pushDigit base bound digit value symbol = some next ↔
      ∃ last, digit symbol = some last ∧ value * base + last = next ∧ next < bound := by
  unfold pushDigit
  cases digit symbol with
  | none => exact ⟨fun pushed => (by cases pushed), fun ⟨last, read, _⟩ => (by cases read)⟩
  | some last =>
    change (if value * base + last < bound then some (value * base + last) else none) = _ ↔ _
    constructor
    · intro pushed
      split at pushed
      · cases pushed
        exact ⟨last, rfl, rfl, ‹_›⟩
      · cases pushed
    · intro described
      obtain ⟨_, read, same, small⟩ := described
      cases read
      cases same
      exact if_pos small

theorem ofDigits_reverse_cons (base first : Nat) (rest : List Nat) :
    Nat.ofDigits base (first :: rest).reverse =
      first * base ^ rest.length + Nat.ofDigits base rest.reverse := by
  rw [List.reverse_cons, Nat.ofDigits_append, Nat.ofDigits_singleton, List.length_reverse]
  ring

/-- Reading on from a value multiplies it up, and never passes the bound. -/
theorem foldlM_pushDigit (positive : 0 < base) {value : Nat} (below : value < bound) :
    text.foldlM (pushDigit base bound digit) value = some number ↔
      (∃ values : List Nat, text.map digit = values.map some ∧
        value * base ^ values.length + Nat.ofDigits base values.reverse = number) ∧
      number < bound := by
  induction text generalizing value with
  | nil =>
    constructor
    · intro read
      cases read
      exact ⟨⟨[], rfl, by simp⟩, below⟩
    · intro described
      obtain ⟨⟨values, same, total⟩, _⟩ := described
      obtain rfl := List.map_eq_nil_iff.mp same.symm
      have kept : value = number := by simpa using total
      exact congrArg some kept
  | cons symbol rest ih =>
    rw [List.foldlM_cons]
    change (pushDigit base bound digit value symbol).bind _ = _ ↔ _
    rw [Option.bind_eq_some_iff]
    constructor
    · intro read
      obtain ⟨next, pushed, tail⟩ := read
      obtain ⟨first, found, rfl, small⟩ := pushDigit_eq_some.mp pushed
      obtain ⟨⟨values, same, total⟩, fits⟩ := (ih small).mp tail
      refine ⟨⟨first :: values, by rw [List.map_cons, List.map_cons, found, same], ?_⟩, fits⟩
      rw [ofDigits_reverse_cons, ← total, List.length_cons, pow_succ]
      ring
    · intro described
      obtain ⟨⟨values, same, total⟩, fits⟩ := described
      cases values with
      | nil => cases same
      | cons first values =>
        obtain ⟨found, same⟩ := List.cons.inj same
        rw [ofDigits_reverse_cons, List.length_cons, pow_succ] at total
        have carried : (value * base + first) * base ^ values.length +
            Nat.ofDigits base values.reverse = number := by
          rw [← total]
          ring
        have scaled := Nat.le_mul_of_pos_right (value * base + first)
          (Nat.pow_pos (n := values.length) positive)
        have small : value * base + first < bound := by omega
        refine ⟨value * base + first, pushDigit_eq_some.mpr ⟨first, found, rfl, small⟩, ?_⟩
        exact (ih small).mpr ⟨⟨values, same, carried⟩, fits⟩

/-- A numeral is read exactly if its number is below the bound. -/
theorem foldlM_pushDigit_zero (positive : 0 < base) (room : 0 < bound) :
    text.foldlM (pushDigit base bound digit) 0 = some number ↔
      Spells base digit text number ∧ number < bound := by
  rw [foldlM_pushDigit positive room]
  unfold Spells
  simp only [Nat.zero_mul, Nat.zero_add]

/-! ### The numerals of numbers -/

theorem Spells.single {symbol : α} {value : Nat} (read : digit symbol = some value) :
    Spells base digit [symbol] value :=
  ⟨[value], by rw [List.map_singleton, read, List.map_singleton], Nat.ofDigits_singleton⟩

/-- A digit more at the end. -/
theorem Spells.snoc {symbol : α} {value : Nat} (spells : Spells base digit text number)
    (read : digit symbol = some value) :
    Spells base digit (text ++ [symbol]) (number * base + value) := by
  obtain ⟨values, same, total⟩ := spells
  refine ⟨values ++ [value], ?_, ?_⟩
  · rw [List.map_append, List.map_append, same, List.map_singleton, read, List.map_singleton]
  · rw [List.reverse_append, List.reverse_singleton, List.singleton_append, Nat.ofDigits_cons,
      total, Nat.mul_comm, Nat.add_comm]

/-- The numeral of a number spells it, where its symbols are read as digits. -/
theorem spells_toDigits {digit : Char → Option Nat} (proper : 1 < base)
    (read : ∀ value < base, digit value.digitChar = some value) (number : Nat) :
    Spells base digit (Nat.toDigits base number) number := by
  induction number using Nat.strong_induction_on with
  | _ number ih =>
    rw [Nat.toDigits_eq_if proper]
    split
    · rename_i small
      exact .single (read number small)
    · rename_i large
      have shorter := ih (number / base) (Nat.div_lt_self (by omega) proper)
      have last := read (number % base) (Nat.mod_lt _ (by omega))
      have whole := shorter.snoc last
      rwa [Nat.div_add_mod'] at whole

end Minemu.Library
