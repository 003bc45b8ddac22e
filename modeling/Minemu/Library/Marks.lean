import Mathlib

/-! Users of a store who look at it, answer, and join a value into a cell of their choice. Users
that do not see each other's marks can go in any order, and again. -/

namespace Minemu.Library

variable {Cell : Type u} {Value : Type v} {Answer : Type w}

/-- What a user makes of a store: an answer, and the mark it leaves, if any. -/
structure Marker (Cell : Type u) (Value : Type v) (Answer : Type w) where
  answer : (Cell → Value) → Answer
  choice : (Cell → Value) → Option (Cell × Value)

namespace Marker

variable [DecidableEq Cell] {join : Value → Value → Value} {first second user : Marker Cell Value Answer}
  {store : Cell → Value}

/-- The store with a value joined into one cell. -/
def joinAt (join : Value → Value → Value) (store : Cell → Value) (cell : Cell) (value : Value) :
    Cell → Value := Function.update store cell (join (store cell) value)

/-- The store after the user. -/
def mark (join : Value → Value → Value) (user : Marker Cell Value Answer) (store : Cell → Value) :
    Cell → Value :=
  (user.choice store).elim store fun chosen => joinAt join store chosen.1 chosen.2

/-- The user makes the same of both stores. -/
structure Blind (user : Marker Cell Value Answer) (store other : Cell → Value) : Prop where
  answer : user.answer other = user.answer store
  choice : user.choice other = user.choice store

theorem mark_none (nothing : user.choice store = none) : user.mark join store = store := by
  rw [mark, nothing, Option.elim_none]

theorem mark_some {cell : Cell} {value : Value} (chosen : user.choice store = some (cell, value)) :
    user.mark join store = joinAt join store cell value := by
  rw [mark, chosen, Option.elim_some]

theorem joinAt_comm [Std.Commutative join] [Std.Associative join] (store : Cell → Value)
    (cell other : Cell) (value added : Value) :
    joinAt join (joinAt join store cell value) other added =
      joinAt join (joinAt join store other added) cell value := by
  have assoc : ∀ x y z, join (join x y) z = join x (join y z) := Std.Associative.assoc
  have comm : ∀ x y, join x y = join y x := Std.Commutative.comm
  unfold joinAt
  by_cases same : cell = other
  · subst same
    rw [Function.update_idem, Function.update_idem, Function.update_self, Function.update_self,
      assoc, comm value, ← assoc]
  · rw [Function.update_of_ne (Ne.symm same), Function.update_of_ne same,
      Function.update_comm same]

theorem joinAt_again [Std.Associative join] [Std.IdempotentOp join] (store : Cell → Value)
    (cell : Cell) (value : Value) :
    joinAt join (joinAt join store cell value) cell value = joinAt join store cell value := by
  have assoc : ∀ x y z, join (join x y) z = join x (join y z) := Std.Associative.assoc
  have idempotent : ∀ x, join x x = x := Std.IdempotentOp.idempotent
  unfold joinAt
  rw [Function.update_idem, Function.update_self, assoc, idempotent]

/-- Users that do not see each other's marks leave the same store in either order. -/
theorem mark_comm [Std.Commutative join] [Std.Associative join]
    (unseen : first.Blind store (second.mark join store))
    (unseenToo : second.Blind store (first.mark join store)) :
    first.mark join (second.mark join store) = second.mark join (first.mark join store) := by
  have left := unseen.choice
  have right := unseenToo.choice
  cases mine : first.choice store with
  | none =>
    rw [mine] at left
    rw [mark_none left, mark_none mine]
  | some chosen =>
    obtain ⟨cell, value⟩ := chosen
    rw [mine] at left
    rw [mark_some left, mark_some mine]
    rw [mark_some mine] at right
    cases yours : second.choice store with
    | none =>
      rw [yours] at right
      rw [mark_none right, mark_none yours]
    | some taken =>
      obtain ⟨other, added⟩ := taken
      rw [yours] at right
      rw [mark_some right, mark_some yours, joinAt_comm]

/-- A user that does not see its own mark leaves nothing more the second time. -/
theorem mark_again [Std.Associative join] [Std.IdempotentOp join]
    (unseen : user.Blind store (user.mark join store)) :
    user.mark join (user.mark join store) = user.mark join store := by
  have again := unseen.choice
  cases mine : user.choice store with
  | none =>
    rw [mine] at again
    rw [mark_none again]
  | some chosen =>
    obtain ⟨cell, value⟩ := chosen
    rw [mine] at again
    rw [mark_some again, mark_some mine, joinAt_again]

end Marker

end Minemu.Library
