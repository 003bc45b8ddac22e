import Minemu.Library.Words

/-! Fixed-size storage and byte strings with bounds-checked slices. A slice
outside the storage is refused as a whole, so a partial access never happens. -/

namespace Minemu.Library

/-- Storage of a fixed size, as a total map from its indices. -/
abbrev Storage (size : Nat) (α : Type u) := Fin size → α

namespace Storage

variable {size : Nat} {α : Type u}

/-- Read `length` cells from `offset`, when all of them exist. -/
def slice (storage : Storage size α) (offset length : Nat) : Option (List α) :=
  if fits : offset + length ≤ size then
    some (List.ofFn fun index : Fin length => storage ⟨offset + index, by omega⟩)
  else none

/-- Replace the cells from `offset`, when all of them exist. -/
def splice (storage : Storage size α) (offset : Nat) (values : List α) : Option (Storage size α) :=
  if offset + values.length ≤ size then
    some fun index =>
      if inside : offset ≤ index ∧ index < offset + values.length then
        values.get ⟨index.val - offset, by omega⟩
      else storage index
  else none

theorem slice_eq_some {storage : Storage size α} {offset length : Nat} {values : List α} :
    storage.slice offset length = some values ↔
      ∃ fits : offset + length ≤ size, values.length = length ∧
        ∀ index (inside : index < length),
          values[index]? = some (storage ⟨offset + index, by omega⟩) := by
  unfold slice
  constructor
  · intro read
    split at read
    · rename_i fits
      cases Option.some.inj read
      exact ⟨fits, List.length_ofFn, fun index inside => by simp [inside]⟩
    · cases read
  · rintro ⟨fits, length_eq, cells⟩
    rw [dif_pos fits]
    refine congrArg some (List.ext_getElem? fun index => ?_)
    by_cases inside : index < length
    · simp [inside, cells index inside]
    · rw [List.getElem?_eq_none (by simpa using inside),
        List.getElem?_eq_none (by omega)]

theorem splice_isSome (storage : Storage size α) (offset : Nat) (values : List α) :
    (storage.splice offset values).isSome = true ↔ offset + values.length ≤ size := by
  unfold splice
  split <;> simp [*]

theorem length_of_slice {storage : Storage size α} (read : storage.slice offset length = some values) :
    values.length = length :=
  (slice_eq_some.mp read).2.1

/-- What a splice stores, cell by cell. -/
theorem splice_apply {storage after : Storage size α} {values : List α}
    (written : storage.splice offset values = some after) (index : Fin size) :
    after index = if offset ≤ index ∧ index.val < offset + values.length then
      values.getD (index.val - offset) (storage index) else storage index := by
  unfold splice at written
  split at written
  · cases Option.some.inj written
    by_cases inside : offset ≤ index ∧ index.val < offset + values.length
    · have bound : index.val - offset < values.length := by omega
      simp [inside, List.getElem?_eq_getElem bound]
    · simp [inside]
  · cases written

/-- Cells outside the written range keep their value. -/
theorem splice_outside {storage after : Storage size α} {values : List α}
    (written : storage.splice offset values = some after) (index : Fin size)
    (outside : index.val < offset ∨ offset + values.length ≤ index.val) :
    after index = storage index := by
  rw [splice_apply written, if_neg (by omega)]

end Storage

/-- `bytes[start..stop]`, when the range is well formed and inside. -/
def slice? (bytes : List α) (start stop : Nat) : Option (List α) :=
  if start ≤ stop ∧ stop ≤ bytes.length then some ((bytes.take stop).drop start) else none

/-- Replace `bytes[start..start + data.length]`, when that range is inside. -/
def overwrite? (bytes : List α) (start : Nat) (data : List α) : Option (List α) :=
  if start + data.length ≤ bytes.length then
    some (bytes.take start ++ data ++ bytes.drop (start + data.length))
  else none

theorem slice?_eq_some {bytes values : List α} :
    slice? bytes start stop = some values ↔
      start ≤ stop ∧ stop ≤ bytes.length ∧ values = (bytes.take stop).drop start := by
  unfold slice?
  split <;> simp_all [eq_comm]

theorem getElem?_slice {bytes values : List α} (read : slice? bytes start stop = some values)
    (index : Nat) : values[index]? = if index < stop - start then bytes[start + index]? else none := by
  obtain ⟨ordered, fits, rfl⟩ := slice?_eq_some.mp read
  rw [List.getElem?_drop, List.getElem?_take]
  split <;> split <;> first | rfl | omega

theorem length_of_slice? {bytes values : List α} (read : slice? bytes start stop = some values) :
    values.length = stop - start := by
  obtain ⟨ordered, fits, rfl⟩ := slice?_eq_some.mp read
  simp only [List.length_drop, List.length_take]
  omega

theorem length_overwrite {bytes data after : List α}
    (written : overwrite? bytes start data = some after) : after.length = bytes.length := by
  unfold overwrite? at written
  split at written
  · cases Option.some.inj written
    simp only [List.length_append, List.length_take, List.length_drop]
    omega
  · cases written

/-- What an overwrite stores, index by index. -/
theorem getElem?_overwrite {bytes data after : List α}
    (written : overwrite? bytes start data = some after) (index : Nat) :
    after[index]? = if start ≤ index ∧ index < start + data.length then data[index - start]?
      else bytes[index]? := by
  unfold overwrite? at written
  split at written
  · rename_i fits
    cases Option.some.inj written
    have front : (bytes.take start).length = start := by
      rw [List.length_take]
      omega
    rw [List.append_assoc]
    by_cases before : index < start
    · rw [List.getElem?_append_left (by omega), List.getElem?_take, if_pos before,
        if_neg (by omega)]
    · rw [List.getElem?_append_right (by omega), front]
      by_cases inside : index < start + data.length
      · rw [List.getElem?_append_left (by omega), if_pos (by omega)]
      · rw [List.getElem?_append_right (by omega), List.getElem?_drop, if_neg (by omega)]
        congr 1
        omega
  · cases written

theorem slice?_overwrite {bytes data after : List α}
    (written : overwrite? bytes start data = some after) :
    slice? after start (start + data.length) = some data := by
  have fits : start + data.length ≤ bytes.length := by
    by_contra outside
    simp [overwrite?, outside] at written
  refine slice?_eq_some.mpr ⟨by omega, by rw [length_overwrite written]; exact fits, ?_⟩
  refine List.ext_getElem? fun index => ?_
  rw [List.getElem?_drop, List.getElem?_take, getElem?_overwrite written]
  by_cases inside : index < data.length
  · rw [if_pos (by omega), if_pos (by omega), Nat.add_sub_cancel_left]
  · rw [if_neg (by omega), List.getElem?_eq_none (by omega)]

theorem slice?_overwrite_disjoint {bytes data after : List α}
    (written : overwrite? bytes start data = some after)
    (disjoint : stop ≤ start ∨ start + data.length ≤ from') :
    slice? after from' stop = slice? bytes from' stop := by
  unfold slice?
  rw [length_overwrite written]
  split
  · refine congrArg some (List.ext_getElem? fun index => ?_)
    simp only [List.getElem?_drop, List.getElem?_take]
    split
    · rw [getElem?_overwrite written, if_neg (by omega)]
    · rfl
  · rfl

end Minemu.Library
