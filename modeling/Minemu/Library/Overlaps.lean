import Mathlib.Data.List.DropRight
import Mathlib.Data.List.Infix
import Mathlib.Order.Bounds.Basic

/-! Overlaps of two lists: the prefixes of a pattern that a text ends with. A text that is read
element by element keeps its longest overlap by falling from one prefix of the pattern to the
longest overlap of that prefix with itself. -/

namespace Minemu.Library

variable {α : Type*} {pattern text : List α} {value : α} {bound length : Nat}

/-- The text ends with the prefix of that length. -/
def Overlap (pattern text : List α) (length : Nat) : Prop :=
  length ≤ pattern.length ∧ pattern.take length <:+ text

/-- The longest overlap below a bound. -/
def LongestOverlap (pattern text : List α) (bound length : Nat) : Prop :=
  IsGreatest {candidate | candidate < bound ∧ Overlap pattern text candidate} length

/-- An overlap that no longer one below the bound extends by `value`. -/
structure OverlapFor (pattern text : List α) (value : α) (bound length : Nat) : Prop where
  below : length < bound
  overlap : Overlap pattern text length
  refused : ∀ longer, length < longer → longer < bound → Overlap pattern text longer →
    pattern[longer]? ≠ some value

theorem overlap_zero : Overlap pattern text 0 := ⟨Nat.zero_le _, List.nil_suffix⟩

theorem Overlap.length_le (overlap : Overlap pattern text length) : length ≤ text.length := by
  have short := overlap.2.length_le
  rwa [List.length_take_of_le overlap.1] at short

theorem overlap_iff : Overlap pattern text length ↔
    length ≤ pattern.length ∧ length ≤ text.length ∧
      ∀ index < length, pattern[index]? = text[text.length - length + index]? := by
  constructor
  · intro overlap
    refine ⟨overlap.1, overlap.length_le, fun index early => ?_⟩
    have same := List.suffix_iff_eq_drop.mp overlap.2
    rw [List.length_take_of_le overlap.1] at same
    rw [← List.getElem?_drop, ← same, List.getElem?_take_of_lt early]
  · intro ⟨inPattern, inText, same⟩
    refine ⟨inPattern, List.suffix_iff_eq_drop.mpr (List.ext_getElem? fun index => ?_)⟩
    rw [List.length_take_of_le inPattern, List.getElem?_drop]
    by_cases early : index < length
    · rw [List.getElem?_take_of_lt early, same index early]
    · rw [List.getElem?_eq_none (by rw [List.length_take]; omega),
        List.getElem?_eq_none (by omega)]

/-- An overlap grows by the next element of the pattern. -/
theorem overlap_snoc : Overlap pattern (text ++ [value]) (length + 1) ↔
    Overlap pattern text length ∧ pattern[length]? = some value := by
  constructor
  · intro overlap
    have inside : length < pattern.length := overlap.1
    have ends := overlap.2
    rw [List.take_add_one, List.getElem?_eq_getElem inside, Option.toList_some] at ends
    obtain ⟨front, ends⟩ := ends
    rw [← List.append_assoc] at ends
    have parts := List.append_inj' ends rfl
    refine ⟨⟨inside.le, front, parts.1⟩, ?_⟩
    rw [List.getElem?_eq_getElem inside, List.singleton_inj.mp parts.2]
  · intro ⟨overlap, next⟩
    obtain ⟨front, ends⟩ := overlap.2
    refine ⟨(List.getElem?_eq_some_iff.mp next).1, front, ?_⟩
    rw [List.take_add_one, next, Option.toList_some, ← List.append_assoc, ends]

/-- Below an overlap, the overlaps with the text are those with the prefix it ends with. -/
theorem Overlap.within {long : Nat} (overlap : Overlap pattern text long) (shorter : length ≤ long) :
    Overlap pattern (pattern.take long) length ↔ Overlap pattern text length := by
  constructor
  · intro inner
    exact ⟨inner.1, inner.2.trans overlap.2⟩
  · intro outer
    refine ⟨outer.1, List.suffix_of_suffix_length_le outer.2 overlap.2 ?_⟩
    rw [List.length_take_of_le outer.1, List.length_take_of_le overlap.1]
    exact shorter

namespace LongestOverlap

theorem forValue (longest : LongestOverlap pattern text bound length) (value : α) :
    OverlapFor pattern text value bound length where
  below := longest.1.1
  overlap := longest.1.2
  refused _ further below overlap :=
    absurd (longest.2 ⟨below, overlap⟩) (Nat.not_le.mpr further)

/-- Falling from an overlap to the longest one inside it keeps the longest one below it. -/
theorem fall {next : Nat} (overlap : Overlap pattern text length)
    (inner : LongestOverlap pattern (pattern.take length) length next) :
    LongestOverlap pattern text length next := by
  refine ⟨⟨inner.1.1, (overlap.within inner.1.1.le).mp inner.1.2⟩, ?_⟩
  intro candidate below
  exact inner.2 ⟨below.1, (overlap.within below.1.le).mpr below.2⟩

/-- A bound that the longest overlap stays under can be lowered. -/
theorem lower {lower : Nat} (longest : LongestOverlap pattern text bound length)
    (below : length < lower) (smaller : lower ≤ bound) :
    LongestOverlap pattern text lower length := by
  refine ⟨⟨below, longest.1.2⟩, ?_⟩
  intro candidate within
  exact longest.2 ⟨within.1.trans_le smaller, within.2⟩

end LongestOverlap

namespace OverlapFor

/-- An overlap that `value` does not extend gives way to the longest one inside it. -/
theorem fall {next : Nat} (candidate : OverlapFor pattern text value bound length)
    (refused : pattern[length]? ≠ some value)
    (inner : LongestOverlap pattern (pattern.take length) length next) :
    OverlapFor pattern text value bound next := by
  have fallen := LongestOverlap.fall candidate.overlap inner
  refine ⟨fallen.1.1.trans candidate.below, fallen.1.2, ?_⟩
  intro longer further below overlap
  rcases Nat.lt_trichotomy longer length with shorter | rfl | longest
  · exact absurd (fallen.2 ⟨shorter, overlap⟩) (Nat.not_le.mpr further)
  · exact refused
  · exact candidate.refused longer longest below overlap

theorem extend (candidate : OverlapFor pattern text value bound length)
    (next : pattern[length]? = some value) :
    LongestOverlap pattern (text ++ [value]) (bound + 1) (length + 1) := by
  refine ⟨⟨Nat.succ_lt_succ candidate.below, overlap_snoc.mpr ⟨candidate.overlap, next⟩⟩, ?_⟩
  intro longer within
  cases longer with
  | zero => exact Nat.zero_le _
  | succ longer =>
    have extended := overlap_snoc.mp within.2
    refine Nat.succ_le_succ (Nat.le_of_not_lt fun further => ?_)
    exact candidate.refused longer further (Nat.lt_of_succ_lt_succ within.1) extended.1 extended.2

theorem restart (candidate : OverlapFor pattern text value bound 0)
    (refused : pattern[0]? ≠ some value) :
    LongestOverlap pattern (text ++ [value]) (bound + 1) 0 := by
  refine ⟨⟨Nat.succ_pos _, overlap_zero⟩, ?_⟩
  intro longer within
  cases longer with
  | zero => exact Nat.zero_le _
  | succ longer =>
    have extended := overlap_snoc.mp within.2
    rcases Nat.eq_zero_or_pos longer with rfl | further
    · exact absurd extended.2 refused
    · exact absurd extended.2
        (candidate.refused longer further (Nat.lt_of_succ_lt_succ within.1) extended.1)

end OverlapFor

/-! ### The newest part of a log, before and after new items -/

variable {sent fresh : List α} {capacity : Nat}

/-- What the newest items of the log still hold of the old ones. -/
def heldOver (sent fresh : List α) (capacity : Nat) : Nat :=
  min sent.length (capacity - fresh.length)

/-- The log is full, and some period no longer than the new items maps what the longer log has
last dropped and all it still holds of the old items onto the log itself. -/
def Repeats (sent fresh : List α) (capacity : Nat) : Prop :=
  ∃ period, 0 < period ∧ period ≤ fresh.length ∧ capacity + period ≤ (sent ++ fresh).length ∧
    ∀ index, (sent ++ fresh).length - capacity - period ≤ index → index < sent.length →
      (sent ++ fresh)[index]? = (sent ++ fresh)[index + period]?

theorem length_rtake (log : List α) (capacity : Nat) :
    (log.rtake capacity).length = min log.length capacity := by
  rw [List.rtake, List.length_drop]
  omega

/-- An overlap of the two newest parts, by positions in the whole log. -/
theorem overlap_newest :
    Overlap ((sent ++ fresh).rtake capacity) (sent.rtake capacity) length ↔
      length ≤ min (sent ++ fresh).length capacity ∧ length ≤ min sent.length capacity ∧
        ∀ index < length, (sent ++ fresh)[(sent ++ fresh).length - capacity + index]? =
          (sent ++ fresh)[sent.length - length + index]? := by
  rw [overlap_iff, length_rtake, length_rtake]
  refine and_congr_right fun _ => and_congr_right fun inOld => ?_
  refine forall_congr' fun index => imp_congr_right fun early => ?_
  have place : sent.length - capacity + (min sent.length capacity - length + index) =
      sent.length - length + index := by omega
  have old : sent.length - length + index < sent.length := by omega
  rw [List.rtake, List.rtake, List.getElem?_drop, List.getElem?_drop, place,
    List.getElem?_append_left old]

theorem overlap_heldOver (sent : List α) (fits : fresh.length ≤ capacity) :
    Overlap ((sent ++ fresh).rtake capacity) (sent.rtake capacity)
      (heldOver sent fresh capacity) := by
  rw [overlap_newest, List.length_append, heldOver]
  refine ⟨by omega, by omega, fun index _ => ?_⟩
  congr 1
  omega

/-- A longer overlap than the true one is a repetition. -/
theorem repeats_iff (fits : fresh.length ≤ capacity) :
    Repeats sent fresh capacity ↔ ∃ longer, heldOver sent fresh capacity < longer ∧
      Overlap ((sent ++ fresh).rtake capacity) (sent.rtake capacity) longer := by
  simp only [overlap_newest, Repeats, heldOver, List.length_append]
  constructor
  · intro ⟨period, positive, short, full, same⟩
    refine ⟨capacity - fresh.length + period, by omega, by omega, by omega, ?_⟩
    intro index early
    have moved : sent.length + fresh.length - capacity + index =
        sent.length - (capacity - fresh.length + period) + index + period := by omega
    rw [moved]
    exact (same _ (by omega) (by omega)).symm
  · intro ⟨longer, further, inNew, inOld, same⟩
    refine ⟨longer - (capacity - fresh.length), by omega, by omega, by omega, ?_⟩
    intro index late early
    obtain ⟨offset, rfl⟩ : ∃ offset, index = sent.length - longer + offset :=
      ⟨index - (sent.length - longer), by omega⟩
    rw [← same offset (by omega)]
    congr 1
    omega

/-- Past the true overlap the newest items are the new ones. -/
theorem drop_heldOver (sent : List α) (fits : fresh.length ≤ capacity) :
    ((sent ++ fresh).rtake capacity).drop (heldOver sent fresh capacity) = fresh := by
  have place : (sent ++ fresh).length - capacity + heldOver sent fresh capacity = sent.length := by
    rw [List.length_append, heldOver]
    omega
  rw [List.rtake, List.drop_drop, place, List.drop_left]

/-- What follows the longest overlap is the new items, or less when the log repeats. -/
theorem drop_longest (fits : fresh.length ≤ capacity)
    (longest : LongestOverlap ((sent ++ fresh).rtake capacity) (sent.rtake capacity)
      (((sent ++ fresh).rtake capacity).length + 1) length) :
    let rest := ((sent ++ fresh).rtake capacity).drop length
    (¬Repeats sent fresh capacity → rest = fresh) ∧
      (Repeats sent fresh capacity → rest.length < fresh.length) := by
  intro rest
  have held := overlap_heldOver sent fits
  have least : heldOver sent fresh capacity ≤ length :=
    longest.2 ⟨Nat.lt_succ_of_le held.1, held⟩
  have repeats : Repeats sent fresh capacity ↔ heldOver sent fresh capacity < length := by
    rw [repeats_iff fits]
    constructor
    · intro ⟨longer, further, overlap⟩
      exact further.trans_le (longest.2 ⟨Nat.lt_succ_of_le overlap.1, overlap⟩)
    · intro further
      exact ⟨length, further, longest.1.2⟩
  rw [repeats]
  constructor
  · intro once
    have exactly := Nat.le_antisymm (Nat.not_lt.mp once) least
    rw [← drop_heldOver sent fits, ← exactly]
  · intro further
    have whole := congrArg List.length (drop_heldOver sent fits)
    have inside := longest.1.2.1
    have size : rest.length = ((sent ++ fresh).rtake capacity).length - length := List.length_drop
    rw [List.length_drop] at whole
    omega

end Minemu.Library
