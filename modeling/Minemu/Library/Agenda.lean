import Mathlib

/-! Timed items in a queue: those that are due come off its front. -/

namespace Minemu.Library

variable {Item : Type u} {time : Item → Nat} {now : Nat} {items ordered : List Item}

/-- A list in the order of its times, items of one time in the order they had. -/
structure StableOrder (time : Item → Nat) (items ordered : List Item) : Prop where
  perm : ordered.Perm items
  sorted : ordered.Pairwise fun first second => time first ≤ time second
  stable : ∀ moment, ordered.filter (fun item => time item = moment) =
    items.filter fun item => time item = moment

/-- The items at the front whose time has come. -/
def due (time : Item → Nat) (now : Nat) (items : List Item) : List Item :=
  items.takeWhile fun item => time item ≤ now

/-- What is left of the queue without them. -/
def later (time : Item → Nat) (now : Nat) (items : List Item) : List Item :=
  items.dropWhile fun item => time item ≤ now

theorem due_append_later : due time now items ++ later time now items = items :=
  List.takeWhile_append_dropWhile

theorem later_sublist : (later time now items).Sublist items := List.dropWhile_sublist _

/-- In a sorted queue nothing due is left behind. -/
theorem later_ahead (sorted : items.Pairwise fun first second => time first ≤ time second) :
    ∀ item ∈ later time now items, now < time item := by
  induction items with
  | nil => simp [later]
  | cons head items ih =>
    rw [List.pairwise_cons] at sorted
    intro item member
    by_cases reached : time head ≤ now
    · rw [later, List.dropWhile_cons_of_pos (by simpa using reached)] at member
      exact ih sorted.2 item member
    · rw [later, List.dropWhile_cons_of_neg (by simpa using reached)] at member
      rcases List.mem_cons.mp member with rfl | behind
      · omega
      · have order := sorted.1 item behind
        omega

/-- What is due in a queue without overdue items is due now. -/
theorem due_exact (ahead : ∀ item ∈ items, now ≤ time item) :
    ∀ item ∈ due time now items, time item = now := by
  intro item member
  have reached := List.mem_takeWhile_imp member
  have bound := ahead item ((List.takeWhile_sublist _).mem member)
  rw [decide_eq_true_iff] at reached
  omega

/-- Merge sort by time keeps the order of items of one time. -/
theorem stableOrder_mergeSort (time : Item → Nat) (items : List Item) :
    StableOrder time items (items.mergeSort fun first second => time first ≤ time second) := by
  have total (first second : Item) :
      (decide (time first ≤ time second) || decide (time second ≤ time first)) = true := by
    simpa using le_total (time first) (time second)
  have trans (first second third : Item) (before : decide (time first ≤ time second) = true)
      (after : decide (time second ≤ time third) = true) :
      decide (time first ≤ time third) = true := by
    rw [decide_eq_true_iff] at before after ⊢
    exact before.trans after
  have perm := List.mergeSort_perm items fun first second => time first ≤ time second
  refine ⟨perm, ?_, fun moment => ?_⟩
  · simpa using List.pairwise_mergeSort trans total items
  · have level : (items.filter fun item => time item = moment).Pairwise fun first second =>
        decide (time first ≤ time second) = true := by
      refine List.pairwise_of_forall_mem_list ?_
      intro first member second member'
      have at' := (List.mem_filter.mp member).2
      have at'' := (List.mem_filter.mp member').2
      rw [decide_eq_true_iff] at at' at'' ⊢
      omega
    have kept := (List.sublist_mergeSort trans total level List.filter_sublist).filter
      fun item => time item = moment
    rw [List.filter_filter] at kept
    simp only [Bool.and_self] at kept
    exact (kept.eq_of_length (perm.filter _).length_eq.symm).symm

end Minemu.Library
