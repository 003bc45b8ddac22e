import Mathlib

/-! Work in a queue: the item at the front is done, and what it asks for goes to the back. When
every item weighs more than all that it asks for, the queue is done after finitely many items. -/

namespace Minemu.Library

variable {State : Type u} {Item : Type v} {Error : Type w}

/-- Does the items of the queue from the front on, at most so many of them. -/
def workOff (act : State → Item → Except Error (State × List Item)) :
    Nat → State → List Item → Except Error (State × List Item)
  | 0, state, items => .ok (state, items)
  | _ + 1, state, [] => .ok (state, [])
  | rounds + 1, state, item :: items =>
    match act state item with
    | .ok (state, more) => workOff act rounds state (items ++ more)
    | .error error => .error error

/-- How a loop that takes items from the front until there is none left ends, and after how many
items. -/
inductive Finishes (act : State → Item → Except Error (State × List Item)) :
    Nat → State → List Item → Except Error State → Prop
  | empty {state : State} : Finishes act 0 state [] (.ok state)
  | failed {state : State} {item : Item} {items : List Item} {error : Error}
      (acted : act state item = .error error) : Finishes act 1 state (item :: items) (.error error)
  | next {rounds : Nat} {state after : State} {item : Item} {items more : List Item}
      {result : Except Error State} (acted : act state item = .ok (after, more))
      (rest : Finishes act rounds after (items ++ more) result) :
      Finishes act (rounds + 1) state (item :: items) result

/-- The weight of a whole queue. -/
def load (weight : Item → Nat) (items : List Item) : Nat := (items.map weight).sum

/-- Every item has a weight, and more of it than all that it asks for. -/
structure Lightens (act : State → Item → Except Error (State × List Item)) (weight : Item → Nat) :
    Prop where
  positive : ∀ item, 0 < weight item
  lighter : ∀ state item after more, act state item = .ok (after, more) →
    load weight more < weight item

variable {act : State → Item → Except Error (State × List Item)} {weight : Item → Nat}
  {rounds : Nat} {state after : State} {items left : List Item}

@[simp] theorem load_nil : load weight [] = 0 := rfl

@[simp] theorem load_cons (item : Item) (items : List Item) :
    load weight (item :: items) = weight item + load weight items := by
  simp [load]

@[simp] theorem load_append (first second : List Item) :
    load weight (first ++ second) = load weight first + load weight second := by
  simp [load]

@[simp] theorem workOff_nil : workOff act rounds state [] = .ok (state, []) := by
  cases rounds <;> rfl

/-- As many rounds as the queue weighs are enough for all that comes after its first item. -/
theorem Lightens.less (lightens : Lightens act weight) {item : Item} {more : List Item}
    (acted : act state item = .ok (after, more)) (enough : load weight (item :: items) ≤ rounds + 1) :
    load weight (items ++ more) ≤ rounds := by
  have lighter := lightens.lighter state item after more acted
  rw [load_cons] at enough
  rw [load_append]
  omega

theorem Lightens.no_rounds (lightens : Lightens act weight) (enough : load weight items ≤ 0) :
    items = [] := by
  cases items with
  | nil => rfl
  | cons item items =>
    have positive := lightens.positive item
    rw [load_cons] at enough
    omega

/-- With as many rounds as the queue weighs, nothing is left of it. -/
theorem Lightens.done (lightens : Lightens act weight) (enough : load weight items ≤ rounds)
    (worked : workOff act rounds state items = .ok (after, left)) : left = [] := by
  induction rounds generalizing state items with
  | zero =>
    rw [lightens.no_rounds enough] at worked
    cases worked
    rfl
  | succ rounds ih =>
    cases items with
    | nil =>
      cases worked
      rfl
    | cons item items =>
      rw [workOff] at worked
      split at worked
      · rename_i next more acted
        exact ih (lightens.less acted enough) worked
      · cases worked

/-- The loop ends after as many items as the queue weighs at most, with what that many rounds
leave. -/
theorem Lightens.finishes (lightens : Lightens act weight) (enough : load weight items ≤ rounds) :
    ∃ count, count ≤ rounds ∧
      Finishes act count state items ((workOff act rounds state items).map Prod.fst) := by
  induction rounds generalizing state items with
  | zero =>
    rw [lightens.no_rounds enough]
    exact ⟨0, le_rfl, .empty⟩
  | succ rounds ih =>
    cases items with
    | nil => exact ⟨0, Nat.zero_le _, .empty⟩
    | cons item items =>
      rw [workOff]
      split
      · rename_i next more acted
        obtain ⟨count, few, finishes⟩ := ih (lightens.less acted enough)
        exact ⟨count + 1, Nat.succ_le_succ few, .next acted finishes⟩
      · rename_i error acted
        exact ⟨1, Nat.succ_le_succ (Nat.zero_le _), .failed acted⟩

/-- A queue weighs at most as much as its length allows. -/
theorem load_le {most : Nat} (bounded : ∀ item, weight item ≤ most) (items : List Item) :
    load weight items ≤ most * items.length := by
  induction items with
  | nil => exact Nat.zero_le _
  | cons item items ih =>
    have first := bounded item
    rw [load_cons, List.length_cons, Nat.mul_succ]
    omega

/-- What doing one item keeps of the state and the queue, doing the queue keeps. -/
theorem workOff_invariant {Invariant : State → List Item → Prop}
    (kept : ∀ state item items after more, act state item = .ok (after, more) →
      Invariant state (item :: items) → Invariant after (items ++ more))
    (holds : Invariant state items) (worked : workOff act rounds state items = .ok (after, left)) :
    Invariant after left := by
  induction rounds generalizing state items with
  | zero =>
    cases worked
    exact holds
  | succ rounds ih =>
    cases items with
    | nil =>
      cases worked
      exact holds
    | cons item items =>
      rw [workOff] at worked
      split at worked
      · rename_i next more acted
        exact ih (kept state item items next more acted holds) worked
      · cases worked

end Minemu.Library
