import Mathlib

/-! Computations that can fail: what a success went through, which failures cannot happen,
and loops that collect items. -/

namespace Minemu.Library

variable {Error : Type u} {Other : Type v} {Value : Type w} {First Last : Type x}

/-- Go on when a condition holds, fail otherwise. -/
def require (condition : Prop) [Decidable condition] (error : Error) : Except Error Unit :=
  if condition then .ok () else .error error

@[simp] theorem require_eq_ok {condition : Prop} [Decidable condition] {error : Error} {done : Unit} :
    require condition error = .ok done ↔ condition := by
  unfold require
  split <;> simp [*]

/-- A sequence that succeeds went through a success of its first part. -/
theorem bind_eq_ok {first : Except Error First} {next : First → Except Error Last} {last : Last} :
    first >>= next = .ok last ↔ ∃ value, first = .ok value ∧ next value = .ok last := by
  cases first with
  | error error => exact ⟨fun done => (by cases done), fun ⟨_, done, _⟩ => (by cases done)⟩
  | ok value =>
    constructor
    · intro done
      exact ⟨value, rfl, done⟩
    · rintro ⟨_, same, done⟩
      cases same
      exact done

theorem bind_ok {first : Except Error First} {next : First → Except Error Last} {last : Last}
    (done : first >>= next = .ok last) : ∃ value, first = .ok value ∧ next value = .ok last :=
  bind_eq_ok.mp done

@[simp] theorem mapError_eq_ok {result : Except Error Value} {translate : Error → Other}
    {value : Value} : result.mapError translate = .ok value ↔ result = .ok value := by
  cases result <;> simp [Except.mapError]

theorem toOption_eq_some {result : Except Error Value} {value : Value} :
    result.toOption = some value ↔ result = .ok value := by
  cases result <;> simp [Except.toOption]

theorem mapError_ok {result : Except Error Value} {translate : Error → Other} {value : Value}
    (done : result.mapError translate = .ok value) : result = .ok value :=
  mapError_eq_ok.mp done

/-! ### Failures that cannot happen -/

/-- The computation does not end in any of these failures. -/
def Avoids (bad : Error → Prop) (result : Except Error Value) : Prop :=
  ∀ error, result = .error error → ¬ bad error

section Avoids

variable {bad : Error → Prop}

theorem avoids_ok (value : Value) : Avoids bad (.ok value) := by
  intro error failed
  cases failed

theorem avoids_error {error : Error} (harmless : ¬ bad error) :
    Avoids bad (.error error : Except Error Value) := by
  intro other failed
  cases failed
  exact harmless

theorem avoids_require {condition : Prop} [Decidable condition] {error : Error}
    (harmless : ¬ bad error) : Avoids bad (require condition error) := by
  unfold require
  split
  · exact avoids_ok ()
  · exact avoids_error harmless

theorem avoids_mapError {result : Except Other Value} {translate : Other → Error}
    (harmless : ∀ error, ¬ bad (translate error)) : Avoids bad (result.mapError translate) := by
  cases result with
  | error error => exact avoids_error (harmless error)
  | ok value => exact avoids_ok value

theorem Avoids.bind {first : Except Error First} {next : First → Except Error Last}
    (before : Avoids bad first) (after : ∀ value, first = .ok value → Avoids bad (next value)) :
    Avoids bad (first >>= next) := by
  cases first with
  | error error => exact avoids_error (before error rfl)
  | ok value => exact after value rfl

end Avoids

/-! ### Lists related item by item -/

section Related

variable {Left : Type u} {Right : Type v} {related : Left → Right → Prop} {lefts : List Left}
  {rights : List Right}

theorem forall₂_left (all : List.Forall₂ related lefts rights) :
    ∀ left ∈ lefts, ∃ right ∈ rights, related left right := by
  induction all with
  | nil => simp
  | cons head _ ih =>
    refine List.forall_mem_cons.mpr ⟨⟨_, .head _, head⟩, fun left member => ?_⟩
    obtain ⟨right, member', same⟩ := ih left member
    exact ⟨right, .tail _ member', same⟩

theorem forall₂_right {property : Right → Prop} (all : List.Forall₂ related lefts rights)
    (each : ∀ left right, related left right → property right) :
    ∀ right ∈ rights, property right := by
  induction all with
  | nil => simp
  | cons head _ ih => exact List.forall_mem_cons.mpr ⟨each _ _ head, ih⟩

theorem exists_forall₂ (each : ∀ left ∈ lefts, ∃ right, related left right) :
    ∃ rights, List.Forall₂ related lefts rights := by
  induction lefts with
  | nil => exact ⟨[], .nil⟩
  | cons left lefts ih =>
    rw [List.forall_mem_cons] at each
    obtain ⟨⟨right, head⟩, others⟩ := each
    obtain ⟨rights, rest⟩ := ih others
    exact ⟨right :: rights, .cons head rest⟩

end Related

/-! ### Loops -/

section Loops

variable {State : Type u} {Item : Type v} {Part : Type w}

/-- A predicate that every successful turn of a fallible loop preserves holds at its end. -/
theorem foldlM_invariant {turn : State → Item → Except Error State} {Invariant : State → Prop}
    (preserved : ∀ state item after, Invariant state → turn state item = .ok after →
      Invariant after)
    (items : List Item) {start last : State} (initial : Invariant start)
    (done : items.foldlM turn start = .ok last) : Invariant last := by
  induction items generalizing start with
  | nil =>
    cases done
    exact initial
  | cons item items ih =>
    rw [List.foldlM_cons] at done
    obtain ⟨after, next, done⟩ := bind_ok done
    exact ih (preserved start item after initial next) done

theorem avoids_foldlM {bad : Error → Prop} {turn : State → Item → Except Error State}
    (items : List Item) (turns : ∀ state, ∀ item ∈ items, Avoids bad (turn state item))
    (start : State) : Avoids bad (items.foldlM turn start) := by
  induction items generalizing start with
  | nil => exact avoids_ok start
  | cons item items ih =>
    rw [List.foldlM_cons]
    refine (turns start item (by simp)).bind fun after _ => ?_
    exact ih (fun state other member => turns state other (by simp [member])) after

/-- A loop of checks passes exactly when every check does. -/
theorem forM_eq_ok {check : Item → Except Error Unit} {items : List Item} {done : Unit} :
    items.forM check = .ok done ↔ ∀ item ∈ items, check item = .ok done := by
  induction items with
  | nil => exact ⟨fun _ => by simp, fun _ => rfl⟩
  | cons item items ih =>
    rw [show (item :: items).forM check = (check item >>= fun _ => items.forM check) from rfl,
      bind_eq_ok, List.forall_mem_cons]
    constructor
    · rintro ⟨_, first, rest⟩
      exact ⟨first, ih.mp rest⟩
    · rintro ⟨first, rest⟩
      exact ⟨done, first, ih.mpr rest⟩

/-- A fallible map succeeds exactly with the images of its items in order. -/
theorem mapM_eq_ok {map : Item → Except Error Part} {items : List Item} {parts : List Part} :
    items.mapM map = .ok parts ↔ List.Forall₂ (fun item part => map item = .ok part) items parts := by
  induction items generalizing parts with
  | nil => simp [pure, Except.pure, eq_comm]
  | cons item items ih =>
    simp only [List.mapM_cons, bind_eq_ok, ih, pure, Except.pure, Except.ok.injEq]
    constructor
    · rintro ⟨part, first, rest, others, rfl⟩
      exact .cons first others
    · intro all
      cases all with
      | cons first others => exact ⟨_, first, _, others, rfl⟩

/-- Every part is admitted by the state that the parts before it were taken into. -/
def AdmitsAll (admits : State → Part → Prop) (take : State → Part → State) : State → List Part → Prop
  | _, [] => True
  | state, part :: parts => admits state part ∧ AdmitsAll admits take (take state part) parts

/-- A loop that reads one part per item, refuses what its state does not admit and takes in
the rest succeeds exactly when every item reads and every part is admitted. -/
theorem foldlM_eq_ok {turn : State → Item → Except Error State} {reads : Item → Part → Prop}
    {admits : State → Part → Prop} {take : State → Part → State}
    (turns : ∀ state item after, turn state item = .ok after ↔
      ∃ part, reads item part ∧ admits state part ∧ after = take state part)
    (items : List Item) (start last : State) :
    items.foldlM turn start = .ok last ↔
      ∃ parts, List.Forall₂ reads items parts ∧ AdmitsAll admits take start parts ∧
        last = parts.foldl take start := by
  induction items generalizing start with
  | nil =>
    constructor
    · intro done
      cases done
      exact ⟨[], .nil, trivial, rfl⟩
    · rintro ⟨parts, read, _, rfl⟩
      cases read
      rfl
  | cons item items ih =>
    rw [List.foldlM_cons, bind_eq_ok]
    constructor
    · rintro ⟨after, turned, done⟩
      obtain ⟨part, read, admitted, rfl⟩ := (turns start item after).mp turned
      obtain ⟨parts, rest, all, rfl⟩ := (ih _).mp done
      exact ⟨part :: parts, .cons read rest, ⟨admitted, all⟩, rfl⟩
    · rintro ⟨parts, read, all, rfl⟩
      cases read with
      | cons first rest =>
        exact ⟨_, (turns start item _).mpr ⟨_, first, all.1, rfl⟩, (ih _).mpr ⟨_, rest, all.2, rfl⟩⟩

end Loops

end Minemu.Library
