import Minemu.Library.Storage

/-! Numbers at fixed offsets of a byte string, least significant byte first. -/

namespace Minemu.Library

variable {bytes part data : List Byte}

/-- The number in the `width` bytes from `offset`. -/
def field (bytes : List Byte) (offset width : Nat) : Nat :=
  littleEndian ((bytes.take (offset + width)).drop offset)

/-- All `length` bytes from `offset` are there and zero. -/
def Zeros (bytes : List Byte) (offset length : Nat) : Prop :=
  ∀ index < length, bytes[offset + index]? = some 0

/-- Overwrite a range of the string; a range outside it is left alone. -/
def patch (bytes : List Byte) (offset : Nat) (data : List Byte) : List Byte :=
  (overwrite? bytes offset data).getD bytes

theorem slice?_of_fits (bytes : List α) {start stop : Nat} (ordered : start ≤ stop)
    (fits : stop ≤ bytes.length) : slice? bytes start stop = some ((bytes.take stop).drop start) :=
  slice?_eq_some.mpr ⟨ordered, fits, rfl⟩

theorem slice?_eq_none {bytes : List α} {start stop : Nat} (ordered : start ≤ stop) :
    slice? bytes start stop = none ↔ bytes.length < stop := by
  unfold slice?
  split
  · simp
    omega
  · simp
    omega

theorem overwrite?_of_fits {bytes data : List α} {start : Nat}
    (fits : start + data.length ≤ bytes.length) : ∃ after, overwrite? bytes start data = some after :=
  ⟨_, if_pos fits⟩

theorem patch_of_fits (fits : offset + data.length ≤ bytes.length) :
    overwrite? bytes offset data = some (patch bytes offset data) := by
  obtain ⟨after, written⟩ := overwrite?_of_fits fits
  rw [patch, written]
  rfl

@[simp] theorem length_patch (bytes : List Byte) (offset : Nat) (data : List Byte) :
    (patch bytes offset data).length = bytes.length := by
  unfold patch
  cases written : overwrite? bytes offset data with
  | none => rfl
  | some after => exact length_overwrite written

/-- A field of a slice is a field of the whole. -/
theorem field_slice (read : slice? bytes start stop = some part)
    (fits : offset + width ≤ stop - start) : field part offset width = field bytes (start + offset) width := by
  unfold field
  refine congrArg littleEndian (List.ext_getElem? fun index => ?_)
  simp only [List.getElem?_drop, List.getElem?_take, getElem?_slice read]
  by_cases inside : index < width
  · rw [if_pos (by omega), if_pos (by omega), if_pos (by omega), Nat.add_assoc]
  · rw [if_neg (by omega), if_neg (by omega)]

theorem zeros_slice (read : slice? bytes start stop = some part)
    (fits : offset + length ≤ stop - start) :
    Zeros part offset length ↔ Zeros bytes (start + offset) length := by
  unfold Zeros
  refine forall₂_congr fun index inside => ?_
  rw [getElem?_slice read, if_pos (by omega), Nat.add_assoc]

/-! ### Strings that their fields determine -/

theorem field_lt (bytes : List Byte) (offset width : Nat) : field bytes offset width < 256 ^ width := by
  refine (littleEndian_lt _).trans_le (Nat.pow_le_pow_right (by decide) ?_)
  rw [List.length_drop, List.length_take]
  omega

theorem field_of_zeros (zeros : Zeros bytes offset length) : field bytes offset length = 0 := by
  have clear : (bytes.take (offset + length)).drop offset = List.replicate length 0 := by
    refine List.ext_getElem? fun index => ?_
    rw [List.getElem?_drop, List.getElem?_take, List.getElem?_replicate]
    by_cases inside : index < length
    · rw [if_pos (by omega), if_pos inside, zeros index inside]
    · rw [if_neg (by omega), if_neg inside]
  rw [field, clear]
  clear clear zeros
  induction length with
  | zero => rfl
  | succ length ih => rw [List.replicate_succ, littleEndian, ih]; rfl

/-- Two strings agree in fields of these widths, one behind the other. -/
def SameFields (left right : List Byte) : Nat → List Nat → Prop
  | _, [] => True
  | offset, width :: widths =>
    field left offset width = field right offset width ∧
      SameFields left right (offset + width) widths

/-- A field determines its bytes. -/
theorem slice_of_field {left right : List Byte} (fits : offset + width ≤ left.length)
    (fits' : offset + width ≤ right.length)
    (same : field left offset width = field right offset width) :
    (left.take (offset + width)).drop offset = (right.take (offset + width)).drop offset := by
  have long : ((left.take (offset + width)).drop offset).length = width := by
    rw [List.length_drop, List.length_take]
    omega
  have long' : ((right.take (offset + width)).drop offset).length = width := by
    rw [List.length_drop, List.length_take]
    omega
  have spelled := toBytes_littleEndian ((left.take (offset + width)).drop offset)
  rw [long] at spelled
  rw [← spelled, ← toBytes_littleEndian ((right.take (offset + width)).drop offset), long']
  exact congrArg (toBytes width) same

/-- Fields that follow each other determine the bytes they cover. -/
theorem SameFields.take_eq {left right : List Byte} {widths : List Nat}
    (same : SameFields left right offset widths) (before : left.take offset = right.take offset)
    (fits : offset + widths.sum ≤ left.length) (fits' : offset + widths.sum ≤ right.length) :
    left.take (offset + widths.sum) = right.take (offset + widths.sum) := by
  induction widths generalizing offset with
  | nil => exact before
  | cons width widths ih =>
    rw [List.sum_cons, ← Nat.add_assoc] at fits fits' ⊢
    refine ih same.2 ?_ fits fits'
    have field := slice_of_field (by omega) (by omega) same.1
    rw [← List.take_append_drop offset (left.take (offset + width)),
      ← List.take_append_drop offset (right.take (offset + width)), field, List.take_take,
      List.take_take, Nat.min_eq_left (Nat.le_add_right offset width), before]

/-! ### Fields of a patched string -/

theorem getElem?_patch (fits : offset + data.length ≤ bytes.length) (index : Nat) :
    (patch bytes offset data)[index]? =
      if offset ≤ index ∧ index < offset + data.length then data[index - offset]?
      else bytes[index]? :=
  getElem?_overwrite (patch_of_fits fits) index

/-- A patched range reads back. -/
theorem field_patch_same (fits : offset + data.length ≤ bytes.length) :
    field (patch bytes offset data) offset data.length = littleEndian data := by
  unfold field
  refine congrArg littleEndian (List.ext_getElem? fun index => ?_)
  rw [List.getElem?_drop, List.getElem?_take, getElem?_patch fits]
  by_cases inside : index < data.length
  · rw [if_pos (by omega), if_pos (by omega), Nat.add_sub_cancel_left]
  · rw [if_neg (by omega), List.getElem?_eq_none (by omega)]

/-- A patch changes no field apart from its range. -/
theorem field_patch_apart (fits : offset + data.length ≤ bytes.length)
    (apart : start + width ≤ offset ∨ offset + data.length ≤ start) :
    field (patch bytes offset data) start width = field bytes start width := by
  unfold field
  refine congrArg littleEndian (List.ext_getElem? fun index => ?_)
  rw [List.getElem?_drop, List.getElem?_take, List.getElem?_drop, List.getElem?_take]
  split
  · rw [getElem?_patch fits, if_neg (by omega)]
  · rfl

theorem zeros_patch_apart (fits : offset + data.length ≤ bytes.length)
    (apart : start + length ≤ offset ∨ offset + data.length ≤ start) :
    Zeros (patch bytes offset data) start length ↔ Zeros bytes start length := by
  unfold Zeros
  refine forall₂_congr fun index inside => ?_
  rw [getElem?_patch fits, if_neg (by omega)]

theorem zeros_replicate (fits : start + length ≤ size) :
    Zeros (List.replicate size (0 : Byte)) start length := by
  intro index inside
  rw [List.getElem?_replicate, if_pos (by omega)]

end Minemu.Library
