import Minemu.Library.Storage

/-! A write-back image: a cached copy of a persisted image, and the set of blocks
that may differ from it. -/

namespace Minemu.Library

variable {α : Type u}

/-- Block `index` of an image cut into blocks of one width. -/
def block (width : Nat) (image : List α) (index : Nat) : List α :=
  (image.drop (index * width)).take width

/-- The cached image equals the persisted one outside its dirty blocks. -/
structure Tracks (width : Nat) (cached persisted : List α) (dirty : Finset Nat) : Prop where
  nonempty : cached ≠ []
  whole : width ∣ cached.length
  sameLength : persisted.length = cached.length
  covered : ∀ index, block width cached index ≠ block width persisted index → index ∈ dirty
  inside : ∀ index ∈ dirty, (index + 1) * width ≤ cached.length

theorem getElem?_block (width : Nat) (image : List α) (index offset : Nat) :
    (block width image index)[offset]? =
      if offset < width then image[index * width + offset]? else none := by
  rw [block, List.getElem?_take, List.getElem?_drop]

/-- Images of equal length with equal blocks are equal. -/
theorem eq_of_blocks {width : Nat} {left right : List α} (positive : 0 < width)
    (same : ∀ index, block width left index = block width right index) : left = right := by
  refine List.ext_getElem? fun position => ?_
  have cell := congrArg (fun cells => cells[position % width]?) (same (position / width))
  have below := Nat.mod_lt position positive
  have split : position / width * width + position % width = position := by
    rw [Nat.mul_comm]
    exact Nat.div_add_mod position width
  simpa only [getElem?_block, below, ↓reduceIte, split] using cell

/-- An overwrite that starts and ends on block boundaries changes only its own blocks. -/
theorem block_overwrite {width first count index : Nat} {image data after : List α}
    (written : overwrite? image (first * width) data = some after)
    (whole : data.length = count * width) (outside : index < first ∨ first + count ≤ index) :
    block width after index = block width image index := by
  refine List.ext_getElem? fun offset => ?_
  rw [getElem?_block, getElem?_block]
  split
  · rename_i below
    rw [getElem?_overwrite written, if_neg]
    rintro ⟨low, high⟩
    rcases outside with before | beyond
    · have bound := Nat.mul_le_mul_right width (show index + 1 ≤ first from before)
      rw [Nat.succ_mul] at bound
      omega
    · have bound := Nat.mul_le_mul_right width beyond
      rw [Nat.add_mul] at bound
      omega
  · rfl

namespace Tracks

variable {width : Nat} {cached persisted : List α} {dirty : Finset Nat}

/-- A freshly attached image is its own persisted image. -/
theorem attach {image : List α} (nonempty : image ≠ []) (whole : width ∣ image.length) :
    Tracks width image image ∅ :=
  ⟨nonempty, whole, rfl, fun _ differs => absurd rfl differs, by simp⟩

/-- Writing whole blocks and marking them keeps the image tracked. -/
theorem write (tracks : Tracks width cached persisted dirty) {first count : Nat}
    {data after : List α} (written : overwrite? cached (first * width) data = some after)
    (whole : data.length = count * width) :
    Tracks width after persisted (dirty ∪ Finset.Ico first (first + count)) := by
  have length := length_overwrite written
  have fits : first * width + data.length ≤ cached.length := by
    by_contra outside
    simp [overwrite?, outside] at written
  refine ⟨fun empty => tracks.nonempty ?_, length ▸ tracks.whole,
    tracks.sameLength.trans length.symm, fun index differs => ?_, fun index member => ?_⟩
  · rw [← List.length_eq_zero_iff, ← length, empty]
    rfl
  · rw [Finset.mem_union, Finset.mem_Ico]
    by_cases touched : first ≤ index ∧ index < first + count
    · exact .inr touched
    · rw [block_overwrite written whole (by omega)] at differs
      exact .inl (tracks.covered index differs)
  · rw [length]
    rcases Finset.mem_union.mp member with old | marked
    · exact tracks.inside index old
    · have bound := Nat.mul_le_mul_right width
        (show index + 1 ≤ first + count from (Finset.mem_Ico.mp marked).2)
      rw [Nat.add_mul first] at bound
      omega

/-- Persisting the whole image leaves nothing dirty. -/
theorem flush (tracks : Tracks width cached persisted dirty) : Tracks width cached cached ∅ :=
  attach tracks.nonempty tracks.whole

/-- An image without dirty blocks is the persisted image. -/
theorem clean (tracks : Tracks width cached persisted ∅) (positive : 0 < width) :
    cached = persisted :=
  eq_of_blocks positive fun index => by
    by_contra differs
    exact absurd (tracks.covered index differs) (Finset.notMem_empty index)

end Tracks

end Minemu.Library
