import Minemu.Library.Spans

/-! Pieces of data laid over a map from places to values. Where no two pieces share a place
the order in which they are laid does not matter. -/

namespace Minemu.Library

/-- Values for the places from `start` on. -/
structure Piece (α : Type u) where
  start : Nat
  data : List α

namespace Piece

variable {α : Type u}

/-- The places of a piece. -/
def places (piece : Piece α) : Set Nat := Set.Ico piece.start (piece.start + piece.data.length)

theorem mem_places {piece : Piece α} {place : Nat} :
    place ∈ piece.places ↔ piece.start ≤ place ∧ place < piece.start + piece.data.length :=
  Iff.rfl

end Piece

/-- `after` is `before` under the pieces. -/
structure Overlay {α : Type u} (before after : Nat → α) (pieces : List (Piece α)) : Prop where
  inside : ∀ piece ∈ pieces, ∀ index, (bound : index < piece.data.length) →
    after (piece.start + index) = piece.data[index]
  outside : ∀ place, (∀ piece ∈ pieces, place ∉ piece.places) → after place = before place

namespace Overlay

variable {α : Type u} {before middle after after' : Nat → α} {first second : List (Piece α)}

theorem refl (before : Nat → α) : Overlay before before [] :=
  ⟨fun piece member => (by cases member), fun _ _ => rfl⟩

/-- Pieces laid over others that they do not meet. -/
theorem append (lower : Overlay before middle first) (upper : Overlay middle after second)
    (apart : ∀ piece ∈ first, ∀ other ∈ second, Disjoint piece.places other.places) :
    Overlay before after (first ++ second) := by
  constructor
  · intro piece member index bound
    rcases List.mem_append.mp member with below | above
    · rw [upper.outside, lower.inside piece below index bound]
      intro other member inside
      have place : piece.start + index ∈ piece.places := ⟨by omega, by omega⟩
      exact Set.disjoint_left.mp (apart piece below other member) place inside
    · exact upper.inside piece above index bound
  · intro place clear
    rw [upper.outside place fun piece member => clear piece (List.mem_append_right _ member),
      lower.outside place fun piece member => clear piece (List.mem_append_left _ member)]

theorem cons {piece : Piece α} (lower : Overlay before middle [piece])
    (upper : Overlay middle after second)
    (apart : ∀ other ∈ second, Disjoint piece.places other.places) :
    Overlay before after (piece :: second) :=
  lower.append upper (by simpa using apart)

/-- Two pieces end to end are one. -/
theorem join {start : Nat} {left right : List α} (lower : Overlay before middle [⟨start, left⟩])
    (upper : Overlay middle after [⟨start + left.length, right⟩]) :
    Overlay before after [⟨start, left ++ right⟩] := by
  have apart : Disjoint (Piece.places ⟨start, left⟩) (Piece.places ⟨start + left.length, right⟩) := by
    rw [Piece.places, Piece.places, Set.Ico_disjoint_Ico]
    simp only
    omega
  have both := lower.cons upper (by simpa using apart)
  constructor
  · intro piece member index bound
    cases List.mem_singleton.mp member
    simp only [List.length_append] at bound
    by_cases front : index < left.length
    · rw [List.getElem_append_left front]
      exact both.inside ⟨start, left⟩ (by simp) index front
    · rw [List.getElem_append_right (by omega)]
      have back := both.inside ⟨start + left.length, right⟩ (by simp) (index - left.length)
        (by simp only; omega)
      simp only at back ⊢
      rw [← back]
      congr 1
      omega
  · intro place clear
    refine both.outside place fun piece member inside => ?_
    refine clear ⟨start, left ++ right⟩ (by simp) ?_
    rw [Piece.mem_places] at inside ⊢
    simp only [List.length_append]
    rcases List.mem_cons.mp member with rfl | member
    · simp only at inside
      omega
    · cases List.mem_singleton.mp member
      simp only at inside
      omega

/-- The pieces alone determine the result, not their order. -/
theorem unique (laid : Overlay before after first) (laid' : Overlay before after' second)
    (same : ∀ piece, piece ∈ first ↔ piece ∈ second) : after = after' := by
  funext place
  by_cases covered : ∃ piece ∈ first, place ∈ piece.places
  · obtain ⟨piece, member, above, below⟩ := covered
    have value := laid.inside piece member (place - piece.start) (by omega)
    have value' := laid'.inside piece ((same piece).mp member) (place - piece.start) (by omega)
    rw [Nat.add_sub_cancel' above] at value value'
    rw [value, value']
  · rw [laid.outside place fun piece member inside => covered ⟨piece, member, inside⟩,
      laid'.outside place fun piece member inside =>
        covered ⟨piece, (same piece).mpr member, inside⟩]

end Overlay

end Minemu.Library
