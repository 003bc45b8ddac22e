import Minemu.Library.Fallible

/-! Half-open ranges that are taken one after another, each only if it fits and overlaps
nothing taken before it. -/

namespace Minemu.Library

/-- The range `[start, stop)`. -/
structure Span where
  start : Nat
  stop : Nat
  ordered : start ≤ stop
deriving DecidableEq

namespace Span

def overlaps (span other : Span) : Bool := span.start < other.stop ∧ other.start < span.stop

/-- The test above fails. -/
def Apart (span other : Span) : Prop := ¬ (span.start < other.stop ∧ other.start < span.stop)

/-- The points of a range. -/
def points (span : Span) : Set Nat := Set.Ico span.start span.stop

/-- An empty range strictly inside another one. -/
def Within (span other : Span) : Prop :=
  span.start = span.stop ∧ other.start < span.start ∧ span.start < other.stop

variable {span other : Span} {limit : Nat} {taken first second : List Span}

@[simp] theorem overlaps_eq_false : span.overlaps other = false ↔ span.Apart other :=
  decide_eq_false_iff_not

theorem Apart.symm (apart : span.Apart other) : other.Apart span := fun overlap =>
  apart overlap.symm

instance : Std.Symm Apart := ⟨fun _ _ apart => apart.symm⟩

/-- The test finds a common point, or an empty range strictly inside the other one. -/
theorem apart_iff : span.Apart other ↔
    Disjoint span.points other.points ∧ ¬ span.Within other ∧ ¬ other.Within span := by
  have ordered := span.ordered
  have ordered' := other.ordered
  simp only [Apart, Within, points, Set.Ico_disjoint_Ico, inf_le_iff, le_sup_iff]
  omega

/-- The points of a range are below a limit exactly when the range is empty or stops there. -/
theorem points_subset_iff : span.points ⊆ Set.Iio limit ↔
    span.start = span.stop ∨ span.stop ≤ limit := by
  have ordered := span.ordered
  constructor
  · intro inside
    by_contra outside
    have last : span.stop - 1 ∈ span.points := ⟨by omega, by omega⟩
    have bound : span.stop - 1 < limit := inside last
    omega
  · rintro (empty | fits) point ⟨above, below⟩
    · omega
    · exact below.trans_le fits

/-- The candidates fit and overlap neither each other nor what is taken. -/
structure Admissible (limit : Nat) (taken candidates : List Span) : Prop where
  fits : ∀ candidate ∈ candidates, candidate.stop ≤ limit
  apart : candidates.Pairwise Apart
  free : ∀ span ∈ taken, ∀ candidate ∈ candidates, span.Apart candidate

@[simp] theorem admissible_nil (limit : Nat) (taken : List Span) : Admissible limit taken [] :=
  ⟨by simp, .nil, by simp⟩

theorem admissible_singleton : Admissible limit taken [span] ↔
    span.stop ≤ limit ∧ ∀ other ∈ taken, other.Apart span := by
  constructor
  · rintro ⟨fits, _, free⟩
    exact ⟨fits span (by simp), fun other member => free other member span (by simp)⟩
  · rintro ⟨fits, free⟩
    exact ⟨by simpa using fits, by simp, by simpa using free⟩

/-- Taking two lists is taking the one and then the other. -/
theorem admissible_append : Admissible limit taken (first ++ second) ↔
    Admissible limit taken first ∧ Admissible limit (taken ++ first) second := by
  constructor
  · rintro ⟨fits, apart, free⟩
    obtain ⟨apart, apart', between⟩ := List.pairwise_append.mp apart
    refine ⟨⟨?_, apart, ?_⟩, ⟨?_, apart', ?_⟩⟩
    · intro candidate member
      exact fits candidate (List.mem_append_left _ member)
    · intro span taken candidate member
      exact free span taken candidate (List.mem_append_left _ member)
    · intro candidate member
      exact fits candidate (List.mem_append_right _ member)
    · intro span taken candidate member
      rcases List.mem_append.mp taken with before | earlier
      · exact free span before candidate (List.mem_append_right _ member)
      · exact between span earlier candidate member
  · rintro ⟨⟨fits, apart, free⟩, ⟨fits', apart', free'⟩⟩
    refine ⟨?_, List.pairwise_append.mpr ⟨apart, apart', ?_⟩, ?_⟩
    · intro candidate member
      exact (List.mem_append.mp member).elim (fits candidate) (fits' candidate)
    · intro span earlier candidate member
      exact free' span (List.mem_append_right _ earlier) candidate member
    · intro span before candidate member
      rcases List.mem_append.mp member with earlier | later
      · exact free span before candidate earlier
      · exact free' span (List.mem_append_left _ before) candidate later

theorem admissible_cons : Admissible limit taken (span :: second) ↔
    Admissible limit taken [span] ∧ Admissible limit (taken ++ [span]) second := by
  rw [← List.singleton_append, admissible_append]

/-- From nothing on, what has been taken fits and is pairwise apart. -/
theorem admissible_empty : Admissible limit [] first ↔
    (∀ candidate ∈ first, candidate.stop ≤ limit) ∧ first.Pairwise Apart :=
  ⟨fun admissible => ⟨admissible.fits, admissible.apart⟩, fun ⟨fits, apart⟩ =>
    ⟨fits, apart, by simp⟩⟩

/-! ### Loops that take the ranges of the items they collect -/

section Collecting

variable {Item : Type u} (spansOf : Item → List Span)

/-- An item's ranges are taken and the item is collected. -/
def collect (state : List Span × List Item) (item : Item) : List Span × List Item :=
  (state.1 ++ spansOf item, state.2 ++ [item])

theorem foldl_collect (state : List Span × List Item) (items : List Item) :
    items.foldl (collect spansOf) state =
      (state.1 ++ items.flatMap spansOf, state.2 ++ items) := by
  induction items generalizing state with
  | nil => simp
  | cons item items ih => simp [ih, collect]

/-- Collecting items one by one takes all their ranges at once. -/
theorem admitsAll_collect (state : List Span × List Item) (items : List Item) :
    AdmitsAll (fun state item => Admissible limit state.1 (spansOf item)) (collect spansOf) state
        items ↔ Admissible limit state.1 (items.flatMap spansOf) := by
  induction items generalizing state with
  | nil => simp [AdmitsAll]
  | cons item items ih => rw [AdmitsAll, ih, List.flatMap_cons, admissible_append]; rfl

end Collecting

end Span

end Minemu.Library
