import Mathlib

/-! Searching for a pattern: the first index in a list, and the same scan over overlapping
windows of a text that is read window by window. -/

namespace Minemu.Library

variable {α : Type u}

/-- The pattern stands in the text at an index. -/
def Matches (text : Nat → α) (pattern : List α) (start : Nat) : Prop :=
  ∀ index, (bound : index < pattern.length) → text (start + index) = pattern[index]

/-- The pattern stands in a text of some size, all of it. -/
def Occurs (text : Nat → α) (size : Nat) (pattern : List α) (start : Nat) : Prop :=
  start + pattern.length ≤ size ∧ Matches text pattern start

/-- The least number with a property, or none when none has it. -/
def FirstOf (property : Nat → Prop) : Option Nat → Prop
  | some first => property first ∧ ∀ other, property other → first ≤ other
  | none => ∀ other, ¬property other

/-- A window of the text. -/
def window (text : Nat → α) (start length : Nat) : List α :=
  (List.range length).map fun index => text (start + index)

@[simp] theorem length_window (text : Nat → α) (start length : Nat) :
    (window text start length).length = length := by
  rw [window, List.length_map, List.length_range]

theorem window_eq_iff {text : Nat → α} {pattern : List α} {start : Nat} :
    window text start pattern.length = pattern ↔ Matches text pattern start := by
  constructor
  · intro same index bound
    have cell := congrArg (·[index]?) same
    simp only [window, List.getElem?_map, List.getElem?_range bound, Option.map_some,
      List.getElem?_eq_getElem bound] at cell
    exact Option.some.inj cell
  · intro same
    apply List.ext_getElem (length_window _ _ _)
    intro index inside bound
    rw [← same index bound]
    simp only [window, List.getElem_map, List.getElem_range]

theorem take_drop_window (text : Nat → α) {start length index part : Nat}
    (inside : index + part ≤ length) :
    ((window text start length).drop index).take part = window text (start + index) part := by
  apply List.ext_getElem
  · simp only [List.length_take, List.length_drop, length_window]
    omega
  · intro place left right
    simp only [window, List.getElem_take, List.getElem_drop, List.getElem_map, List.getElem_range,
      Nat.add_assoc]

variable [DecidableEq α]

/-- The first index at which a pattern stands in a list. -/
def firstIndex (list pattern : List α) : Option Nat :=
  (List.range (list.length + 1 - pattern.length)).find? fun index =>
    (list.drop index).take pattern.length = pattern

theorem firstIndex_window (text : Nat → α) (start length : Nat) (pattern : List α) :
    FirstOf (fun index => index + pattern.length ≤ length ∧ Matches text pattern (start + index))
      (firstIndex (window text start length) pattern) := by
  have here {index : Nat} (inside : index + pattern.length ≤ length) :
      decide (((window text start length).drop index).take pattern.length = pattern) = true ↔
        Matches text pattern (start + index) := by
    rw [decide_eq_true_iff, take_drop_window text inside, window_eq_iff]
  cases found : firstIndex (window text start length) pattern with
  | none =>
    intro index both
    rw [firstIndex, List.find?_range_eq_none, length_window] at found
    have missed := found index (by have := both.1; omega)
    rw [(here both.1).mpr both.2] at missed
    cases missed
  | some first =>
    rw [firstIndex, List.find?_range_eq_some, length_window, List.mem_range] at found
    have inside : first + pattern.length ≤ length := by have := found.2.1; omega
    refine ⟨⟨inside, (here inside).mp found.1⟩, fun other both => ?_⟩
    by_contra earlier
    have missed := found.2.2 other (Nat.not_le.mp earlier)
    rw [(here both.1).mpr both.2] at missed
    cases missed

/-- The scan: the windows from the offsets on are a chunk and the overlap that the pattern needs,
cut at the end of the text. -/
def scan (text : Nat → α) (size chunk : Nat) (pattern : List α) : List Nat → Option Nat
  | [] => none
  | offset :: offsets =>
    match firstIndex (window text offset (min (chunk + (pattern.length - 1)) (size - offset)))
        pattern with
    | some index => some (offset + index)
    | none => scan text size chunk pattern offsets

theorem firstOf_scan_chunks (text : Nat → α) {size chunk : Nat} {pattern : List α}
    (nonempty : 0 < pattern.length) (start count : Nat) (covered : size ≤ (start + count) * chunk)
    (before : ∀ index < start * chunk, ¬Occurs text size pattern index) :
    FirstOf (Occurs text size pattern)
      (scan text size chunk pattern ((List.range' start count).map (· * chunk))) := by
  induction count generalizing start with
  | zero =>
    intro index occurs
    have fits := occurs.1
    rw [Nat.add_zero] at covered
    exact before index (by omega) occurs
  | succ count ih =>
    have next : (start + 1) * chunk = start * chunk + chunk := Nat.succ_mul start chunk
    have first := firstIndex_window text (start * chunk)
      (min (chunk + (pattern.length - 1)) (size - start * chunk)) pattern
    rw [List.range'_succ, List.map_cons, scan]
    split
    · rename_i index found
      rw [found] at first
      refine ⟨⟨?_, first.1.2⟩, ?_⟩
      · have fits := first.1.1
        omega
      · intro other occurs
        have after : start * chunk ≤ other :=
          Nat.le_of_not_lt fun early => before other early occurs
        by_contra earlier
        have inside := first.1.1
        have fits := occurs.1
        obtain ⟨place, rfl⟩ := Nat.exists_eq_add_of_le after
        have least := first.2 place ⟨by omega, occurs.2⟩
        omega
    · rename_i missed
      rw [missed] at first
      apply ih (start + 1)
      · rwa [Nat.add_right_comm, Nat.add_assoc]
      · intro index early occurs
        have after : start * chunk ≤ index :=
          Nat.le_of_not_lt fun sooner => before index sooner occurs
        have fits := occurs.1
        obtain ⟨place, rfl⟩ := Nat.exists_eq_add_of_le after
        exact first place ⟨by omega, occurs.2⟩

/-- A scan over chunks that cover the text finds what a plain search finds. -/
theorem firstOf_scan (text : Nat → α) {size chunk : Nat} {pattern : List α}
    (nonempty : 0 < pattern.length) {count : Nat} (covered : size ≤ count * chunk) :
    FirstOf (Occurs text size pattern)
      (scan text size chunk pattern ((List.range count).map (· * chunk))) := by
  rw [List.range_eq_range']
  apply firstOf_scan_chunks text nonempty 0 count
  · rwa [Nat.zero_add]
  · intro index early
    rw [Nat.zero_mul] at early
    exact absurd early (Nat.not_lt_zero _)

end Minemu.Library
