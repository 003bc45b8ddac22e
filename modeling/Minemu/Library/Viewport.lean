import Mathlib.Algebra.Order.Group.Nat
import Mathlib.Algebra.Order.Sub.Basic
import Mathlib.Data.Nat.Order.Lemmas
import Mathlib.Tactic.Common

/-! A window of whole rows over a range of positions, and where it is placed so that it shows a
position. -/

namespace Minemu.Library

/-- `size` positions from `base` on in rows of `columns`, seen through a window of whole rows. -/
structure Viewport where
  base : Nat
  size : Nat
  columns : Nat
  window : Nat
  positive : 0 < columns
  base_rows : columns ∣ base
  size_rows : columns ∣ size
  window_rows : columns ∣ window
  row_fits : columns ≤ window
  window_fits : window ≤ size

namespace Viewport

variable (viewport : Viewport)

/-- The start of the row of a position. -/
def row (position : Nat) : Nat := position / viewport.columns * viewport.columns

def lastStart : Nat := viewport.base + viewport.size - viewport.window

/-- The window from `start` on shows the position. -/
def Shows (start position : Nat) : Prop := start ≤ position ∧ position < start + viewport.window

/-- The row of a wanted start, or the last start there is. -/
def place (wanted : Nat) : Nat := viewport.row (min wanted viewport.lastStart)

variable {viewport} {wanted position : Nat}

theorem row_rows (position : Nat) : viewport.columns ∣ viewport.row position :=
  Nat.dvd_mul_left _ _

theorem row_le (position : Nat) : viewport.row position ≤ position := Nat.div_mul_le_self _ _

theorem lt_row_add (position : Nat) : position < viewport.row position + viewport.columns := by
  have rest := Nat.mod_lt position viewport.positive
  have whole := Nat.div_add_mod' position viewport.columns
  rw [row]
  omega

theorem row_of_rows (rows : viewport.columns ∣ position) : viewport.row position = position :=
  Nat.div_mul_cancel rows

theorem row_mono {first second : Nat} (ordered : first ≤ second) :
    viewport.row first ≤ viewport.row second :=
  Nat.mul_le_mul_right _ (Nat.div_le_div_right ordered)

/-- Rows counted from the base are the same rows. -/
theorem base_add_row (after : viewport.base ≤ position) :
    viewport.base + viewport.row (position - viewport.base) = viewport.row position := by
  obtain ⟨offset, rfl⟩ := Nat.exists_eq_add_of_le after
  obtain ⟨rows, whole⟩ := viewport.base_rows
  rw [Nat.add_sub_cancel_left, row, row, whole, Nat.mul_add_div viewport.positive, Nat.add_mul,
    Nat.mul_comm viewport.columns rows]

theorem lastStart_rows : viewport.columns ∣ viewport.lastStart :=
  Nat.dvd_sub (Nat.dvd_add viewport.base_rows viewport.size_rows) viewport.window_rows

theorem base_le_lastStart : viewport.base ≤ viewport.lastStart := by
  have fits := viewport.window_fits
  rw [lastStart]
  omega

theorem lastStart_add_window :
    viewport.lastStart + viewport.window = viewport.base + viewport.size := by
  have fits := viewport.window_fits
  rw [lastStart]
  omega

theorem place_le (wanted : Nat) : viewport.place wanted ≤ wanted :=
  (row_le _).trans (Nat.min_le_left _ _)

/-- A placed window lies inside the range. -/
theorem place_inside (after : viewport.base ≤ wanted) :
    viewport.base ≤ viewport.place wanted ∧
      viewport.place wanted + viewport.window ≤ viewport.base + viewport.size := by
  constructor
  · rw [← row_of_rows viewport.base_rows]
    exact row_mono (Nat.le_min.mpr ⟨after, base_le_lastStart⟩)
  · rw [← lastStart_add_window]
    exact Nat.add_le_add_right ((row_le _).trans (Nat.min_le_right _ _)) _

/-- A window wanted no later than the position shows it unless it ends, row-aligned, before it. -/
theorem shows_place_iff (inside : position < viewport.base + viewport.size)
    (before : wanted ≤ position) :
    viewport.Shows (viewport.place wanted) position ↔
      position < viewport.row wanted + viewport.window := by
  have reached : viewport.place wanted ≤ position := (place_le wanted).trans before
  rw [Shows, place] at *
  by_cases early : wanted ≤ viewport.lastStart
  · rw [Nat.min_eq_left early] at reached ⊢
    exact and_iff_right reached
  · have late := (Nat.not_le.mp early).le
    rw [Nat.min_eq_right late, row_of_rows lastStart_rows] at reached ⊢
    have further : viewport.row viewport.lastStart ≤ viewport.row wanted := row_mono late
    rw [row_of_rows lastStart_rows] at further
    have whole : viewport.lastStart + viewport.window = viewport.base + viewport.size :=
      lastStart_add_window
    constructor
    · intro shown
      exact shown.2.trans_le (Nat.add_le_add_right further _)
    · intro _
      exact ⟨reached, whole ▸ inside⟩

/-- Placed at the row of the position the window shows it. -/
theorem shows_place_row (inside : position < viewport.base + viewport.size) :
    viewport.Shows (viewport.place (viewport.row position)) position := by
  apply (shows_place_iff inside (row_le position)).mpr
  rw [row_of_rows (row_rows position)]
  exact (lt_row_add position).trans_le (Nat.add_le_add_left viewport.row_fits _)

/-- Placed so that the row of the position is the last, it shows it. -/
theorem shows_place_below (inside : position < viewport.base + viewport.size)
    (far : viewport.window - viewport.columns ≤ position) :
    viewport.Shows (viewport.place (position - (viewport.window - viewport.columns))) position := by
  apply (shows_place_iff inside (Nat.sub_le _ _)).mpr
  have next : position - (viewport.window - viewport.columns) <
      viewport.row (position - (viewport.window - viewport.columns)) + viewport.columns :=
    lt_row_add _
  have fits := viewport.row_fits
  omega

end Viewport

end Minemu.Library
