import Minemu.Tui.Console

/-! The overlap again, with the panics of its indexing and its `while` loops on fuel: no index is
out of range, and the loops end. -/

namespace Minemu.Tui

open Platform Library

/-- What can go wrong in a checked run. -/
inductive Trap where
  | index (index length : Nat)
  | subtraction
  | fuel
deriving DecidableEq

/-- `list[index]`. -/
def item (list : List α) (index : Nat) : Except Trap α :=
  match list[index]? with
  | some value => .ok value
  | none => .error (.index index list.length)

/-- `list[index] = value`. -/
def setItem (list : List α) (index : Nat) (value : α) : Except Trap (List α) :=
  if index < list.length then .ok (list.set index value) else .error (.index index list.length)

/-- `number - 1` in `usize`. -/
def minusOne (number : Nat) : Except Trap Nat :=
  if 0 < number then .ok (number - 1) else .error .subtraction

namespace Checked

/-- `matched > 0 && byte != current[matched]`, which looks only where the first part holds. -/
def mismatched (current : List U8) (byte : U8) (matched : Nat) : Except Trap Bool :=
  if 0 < matched then (item current matched).map (byte ≠ ·) else .ok false

/-- The `while` loop on that condition, which is tested `fuel` times at most. -/
def fallBack (current : List U8) (table : List Nat) (byte : U8) : Nat → Nat → Except Trap Nat
  | 0, _ => .error .fuel
  | fuel + 1, matched => do
    if ← mismatched current byte matched then
      let shorter ← item table (← minusOne matched)
      fallBack current table byte fuel shorter
    else return matched

def advance (fuel : Nat) (current : List U8) (table : List Nat) (matched : Nat) (byte : U8) :
    Except Trap Nat := do
  let matched ← fallBack current table byte fuel matched
  if byte = (← item current matched) then return matched + 1 else return matched

/-- One turn of the loop that fills the table. -/
def fill (fuel : Nat) (current : List U8) (table : List Nat) (index : Nat) :
    Except Trap (List Nat) := do
  let matched ← item table (← minusOne index)
  let entry ← advance fuel current table matched (← item current index)
  setItem table index entry

def prefixTable (fuel : Nat) (current : List U8) : Except Trap (List Nat) :=
  (List.range' 1 (current.length - 1)).foldlM (fill fuel current) (List.replicate current.length 0)

def scan (fuel : Nat) (current : List U8) (table : List Nat) : Nat → List U8 → Except Trap Nat
  | matched, [] => return matched
  | matched, byte :: rest => do
    let matched ← advance fuel current table matched byte
    if matched = current.length ∧ rest ≠ [] then
      scan fuel current table (← item table (← minusOne matched)) rest
    else scan fuel current table matched rest

def suffixPrefixOverlap (fuel : Nat) (previous current : List U8) : Except Trap Nat :=
  if previous = [] ∨ current = [] then return 0
  else do
    let table ← prefixTable fuel current
    scan fuel current table 0 previous

end Checked

section Safe

variable {current : List U8} {table : List Nat} {matched reach fuel : Nat}

theorem item_eq {list : List α} {index : Nat} (inside : index < list.length) :
    item list index = .ok list[index] := by
  rw [item, List.getElem?_eq_getElem inside]

theorem item_eq_getD {index : Nat} (inside : index < table.length) :
    item table index = .ok (table.getD index 0) := by
  rw [item_eq inside, List.getD_eq_getElem?_getD, List.getElem?_eq_getElem inside,
    Option.getD_some]

theorem minusOne_eq {number : Nat} (positive : 0 < number) : minusOne number = .ok (number - 1) :=
  if_pos positive

theorem fallBack_le (filled : Filled current table reach) (byte : U8) (steps : Nat) (known : matched ≤ reach) :
    fallBack current table byte steps matched ≤ matched := by
  induction steps generalizing matched with
  | zero => exact le_rfl
  | succ steps ih =>
    rw [fallBack]
    split
    · rename_i refused
      have smaller : table.getD (matched - 1) 0 < matched := (filled matched refused.1 known).1.1
      exact (ih (smaller.le.trans known)).trans smaller.le
    · exact le_rfl

theorem mismatched_eq (inside : matched < current.length) (byte : U8) :
    Checked.mismatched current byte matched =
      .ok (decide (0 < matched ∧ current[matched]? ≠ some byte)) := by
  rw [Checked.mismatched, List.getElem?_eq_getElem inside, item_eq inside]
  by_cases positive : 0 < matched
  · rw [if_pos positive]
    simp only [Except.map, positive, true_and, ne_eq, Option.some.injEq, eq_comm]
  · rw [if_neg positive]
    simp only [positive, false_and, decide_false]

/-- The inner loop stays in both lists, since every entry is smaller than its position, and takes
`matched` turns at most. -/
theorem checked_fallBack (filled : Filled current table reach) (byte : U8)
    (sized : reach ≤ table.length) (known : matched ≤ reach) (inside : matched < current.length)
    (steps : Nat) (taken : matched ≤ steps) (enough : matched < fuel) :
    Checked.fallBack current table byte fuel matched =
      .ok (fallBack current table byte steps matched) := by
  induction fuel generalizing matched steps with
  | zero => exact absurd enough (Nat.not_lt_zero _)
  | succ fuel ih =>
    rw [Checked.fallBack, mismatched_eq inside byte]
    by_cases refused : 0 < matched ∧ current[matched]? ≠ some byte
    · have smaller : table.getD (matched - 1) 0 < matched :=
        (filled matched refused.1 known).1.1
      have here : matched - 1 < table.length :=
        (Nat.sub_lt refused.1 Nat.one_pos).trans_le (known.trans sized)
      obtain ⟨steps, rfl⟩ := Nat.exists_eq_succ_of_ne_zero
        (Nat.ne_of_gt (refused.1.trans_le taken))
      have fallen := ih (smaller.le.trans known) (smaller.trans inside) steps
        (Nat.le_of_lt_succ (smaller.trans_le taken)) (smaller.trans_le (Nat.le_of_lt_succ enough))
      rw [decide_eq_true refused, fallBack, if_pos refused, minusOne_eq refused.1]
      simp only [bind, Except.bind, if_true, item_eq_getD here, fallen]
    · have settled : fallBack current table byte steps matched = matched := by
        cases steps with
        | zero => rfl
        | succ steps => exact if_neg refused
      rw [settled, decide_eq_false refused]
      rfl

theorem checked_advance (filled : Filled current table reach) (byte : U8)
    (sized : reach ≤ table.length) (known : matched ≤ reach) (inside : matched < current.length) (enough : matched < fuel) :
    Checked.advance fuel current table matched byte = .ok (advance current table matched byte) := by
  have fallen := checked_fallBack filled byte sized known inside matched le_rfl enough
  have within := (fallBack_le filled byte matched known).trans_lt inside
  rw [Checked.advance, fallen, advance, List.getElem?_eq_getElem within]
  have compared : (item current (fallBack current table byte matched matched) >>= fun next =>
      if byte = next then (.ok (fallBack current table byte matched matched + 1) : Except Trap Nat)
      else .ok (fallBack current table byte matched matched)) =
      .ok (if some current[fallBack current table byte matched matched] = some byte then
        fallBack current table byte matched matched + 1
        else fallBack current table byte matched matched) := by
    rw [item_eq within]
    by_cases next : byte = current[fallBack current table byte matched matched]
    · rw [if_pos (congrArg some next.symm)]
      exact if_pos next
    · rw [if_neg (fun same => next (Option.some.inj same).symm)]
      exact if_neg next
  exact compared

/-- The table is filled without a trap, round by round. -/
theorem checked_rounds (enough : current.length ≤ fuel) {count : Nat}
    (more : count < current.length) :
    (List.range' 1 count).foldlM (Checked.fill fuel current) (List.replicate current.length 0) =
      .ok (prefixRounds current count) := by
  induction count with
  | zero => rfl
  | succ count ih =>
    have early := Nat.lt_of_succ_lt more
    obtain ⟨sized, filled⟩ := prefixRounds_filled early
    have shorter : (prefixRounds current count).getD count 0 < count + 1 :=
      (filled (count + 1) (Nat.succ_pos _) le_rfl).1.1
    have advanced := checked_advance filled current[count + 1] (sized ▸ more.le) shorter.le
      (shorter.trans more) (shorter.trans_le (more.le.trans enough))
    have stored : count + 1 < (prefixRounds current count).length := sized ▸ more
    have known : item (prefixRounds current count) count =
        .ok ((prefixRounds current count).getD count 0) := item_eq_getD (sized ▸ early)
    have byte : current.getD (count + 1) 0 = current[count + 1] := by
      rw [List.getD_eq_getElem?_getD, List.getElem?_eq_getElem more, Option.getD_some]
    have turn : Checked.fill fuel current (prefixRounds current count) (count + 1) =
        .ok (prefixRounds current (count + 1)) := by
      rw [Checked.fill, minusOne_eq (Nat.succ_pos count), Nat.succ_sub_one, prefixRounds_succ, byte]
      simp only [bind, Except.bind, known, item_eq more, advanced, setItem, if_pos stored]
    rw [List.range'_1_concat, List.foldlM_append, ih early, Nat.add_comm 1 count]
    simp only [bind, Except.bind, List.foldlM_cons, List.foldlM_nil, turn]
    rfl

theorem checked_prefixTable (some : current ≠ []) (enough : current.length ≤ fuel) :
    Checked.prefixTable fuel current = .ok (prefixTable current) :=
  checked_rounds enough (Nat.sub_lt (List.length_pos_of_ne_nil some) Nat.one_pos)

/-- The pass over `previous` stays in `current`: a full match falls back before the next byte. -/
theorem checked_scan (filled : Filled current table current.length)
    (sized : current.length ≤ table.length) (enough : current.length ≤ fuel)
    (previous : List U8) {text : List U8}
    (longest : LongestOverlap current text current.length matched) :
    Checked.scan fuel current table matched previous = .ok (scan current table matched previous) := by
  induction previous generalizing text matched with
  | nil => rfl
  | cons byte rest ih =>
    have inside : matched < current.length := longest.1.1
    have advanced := checked_advance filled byte sized inside.le inside (inside.trans_le enough)
    have next := advance_overlap filled longest inside.le byte
    rw [Checked.scan, scan, advanced]
    simp only [bind, Except.bind]
    by_cases full : advance current table matched byte = current.length ∧ rest ≠ []
    · have positive : 0 < current.length := (Nat.zero_le matched).trans_lt inside
      have here : current.length - 1 < table.length :=
        (Nat.sub_lt positive Nat.one_pos).trans_le sized
      rw [if_pos full, if_pos full, full.1, minusOne_eq positive]
      simp only [item_eq_getD here]
      rw [full.1] at next
      exact ih (LongestOverlap.fall next.1.2 (filled current.length positive le_rfl))
    · rw [if_neg full, if_neg full]
      cases rest with
      | nil => rfl
      | cons second rest =>
        apply ih
        apply next.lower _ (Nat.le_succ _)
        apply Nat.lt_of_le_of_ne (Nat.le_of_lt_succ next.1.1)
        intro whole
        exact full ⟨whole, List.cons_ne_nil _ _⟩

/-- The function ends without an index out of range, with the greatest number of last bytes of
`previous` that are the first bytes of `current`. -/
theorem suffixPrefixOverlap_exact (previous current : List U8) :
    ∃ overlap, (∀ fuel ≥ current.length,
        Checked.suffixPrefixOverlap fuel previous current = .ok overlap) ∧
      IsGreatest {count | count ≤ previous.length ∧ count ≤ current.length ∧
        previous.drop (previous.length - count) = current.take count} overlap ∧
      (previous = [] ∨ current = [] → overlap = 0) := by
  refine ⟨suffixPrefixOverlap previous current, ?_, ?_, ?_⟩
  · intro fuel enough
    rw [Checked.suffixPrefixOverlap, suffixPrefixOverlap]
    by_cases empty : previous = [] ∨ current = []
    · rw [if_pos empty, if_pos empty]
      rfl
    · have some := (not_or.mp empty).2
      have positive := List.length_pos_of_ne_nil some
      have sized : current.length ≤ (prefixTable current).length :=
        (prefixRounds_filled (Nat.sub_lt positive Nat.one_pos)).1.ge
      have start : LongestOverlap current [] current.length 0 :=
        ⟨⟨positive, overlap_zero⟩, fun candidate within => within.2.length_le⟩
      rw [if_neg empty, if_neg empty, checked_prefixTable some enough]
      exact checked_scan (prefixTable_filled current) sized enough previous start
  · have longest := suffixPrefixOverlap_longest previous current
    have same : {count | count < current.length + 1 ∧ Overlap current previous count} =
        {count | count ≤ previous.length ∧ count ≤ current.length ∧
          previous.drop (previous.length - count) = current.take count} := by
      ext count
      constructor
      · intro both
        obtain ⟨_, overlap⟩ := both
        have ends := List.suffix_iff_eq_drop.mp overlap.2
        rw [List.length_take_of_le overlap.1] at ends
        exact ⟨overlap.length_le, overlap.1, ends.symm⟩
      · intro both
        obtain ⟨_, inCurrent, ends⟩ := both
        exact ⟨Nat.lt_succ_of_le inCurrent, inCurrent, ends ▸ List.drop_suffix _ _⟩
    exact same ▸ longest
  · intro empty
    exact if_pos empty

end Safe

end Minemu.Tui
