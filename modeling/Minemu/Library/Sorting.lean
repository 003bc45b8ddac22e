import Mathlib

/-! Sorting by a key: equal keys end up side by side, and where there are none the order of
the input is lost. -/

namespace Minemu.Library

section Sorting

variable {Item : Type u} {Key : Type v} [LinearOrder Key] (key : Item → Key)

/-- A stable sort by a key. -/
def sortOn (items : List Item) : List Item :=
  items.mergeSort fun first second => key first ≤ key second

/-- Whether two neighbours have one key. -/
def adjacentSame (items : List Item) : Bool :=
  (items.zip items.tail).any fun pair => key pair.1 = key pair.2

variable {key} {items other : List Item}

theorem sortOn_perm (key : Item → Key) (items : List Item) : (sortOn key items).Perm items :=
  List.mergeSort_perm items _

theorem sortOn_sorted (key : Item → Key) (items : List Item) :
    (sortOn key items).Pairwise fun first second => key first ≤ key second := by
  have trans (first second third : Item) (before : decide (key first ≤ key second) = true)
      (after : decide (key second ≤ key third) = true) :
      decide (key first ≤ key third) = true := by
    rw [decide_eq_true_iff] at before after ⊢
    exact before.trans after
  have total (first second : Item) :
      (decide (key first ≤ key second) || decide (key second ≤ key first)) = true := by
    simpa using le_total (key first) (key second)
  have sorted := List.pairwise_mergeSort trans total items
  simp only [decide_eq_true_iff] at sorted
  exact sorted

/-- In a sorted list, keys that occur twice occur side by side. -/
theorem adjacentSame_eq_false
    (sorted : items.Pairwise fun first second => key first ≤ key second) :
    adjacentSame key items = false ↔ (items.map key).Nodup := by
  induction items with
  | nil => simp [adjacentSame]
  | cons first items ih =>
    rw [List.pairwise_cons] at sorted
    have rest := ih sorted.2
    cases items with
    | nil => simp [adjacentSame]
    | cons second items =>
      have neighbours : adjacentSame key (first :: second :: items) = false ↔
          key first ≠ key second ∧ adjacentSame key (second :: items) = false := by
        simp [adjacentSame]
      have split : ((first :: second :: items).map key).Nodup ↔
          key first ∉ (second :: items).map key ∧ ((second :: items).map key).Nodup :=
        List.nodup_cons
      rw [neighbours, rest, split]
      refine and_congr_left fun _ => ?_
      constructor
      · intro different same
        obtain ⟨item, member, equal⟩ := List.mem_map.mp same
        have above := sorted.1 second (.head _)
        rcases List.mem_cons.mp member with rfl | behind
        · exact different equal.symm
        · have below := (List.pairwise_cons.mp sorted.2).1 item behind
          rw [equal] at below
          exact different (le_antisymm above below)
      · intro absent same
        exact absent (same ▸ List.mem_map_of_mem (.head _))

/-- Without repeated keys the sorted list does not depend on the order of the input. -/
theorem sortOn_congr (perm : items.Perm other) (distinct : (items.map key).Nodup) :
    sortOn key items = sortOn key other := by
  have both := ((sortOn_perm key items).trans perm).trans (sortOn_perm key other).symm
  refine both.eq_of_pairwise ?_ (sortOn_sorted key items) (sortOn_sorted key other)
  intro first second member member' below above
  have injective := List.inj_on_of_nodup_map distinct
  exact injective ((sortOn_perm key items).mem_iff.mp member)
    (perm.mem_iff.mpr ((sortOn_perm key other).mem_iff.mp member')) (le_antisymm below above)

end Sorting

end Minemu.Library
