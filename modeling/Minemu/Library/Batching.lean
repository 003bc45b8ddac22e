import Mathlib

/-! Actions between which time passes, and the same actions run in batches that let
the time pass only at their end. -/

namespace Minemu.Library

variable {State : Type u} {Label : Type v} {Output : Type w}

section
variable (act : Label → State → Output × State) (tick : State → State)

/-- One action after the other, one tick after each. -/
def interleaved : List Label → State → List Output × State
  | [], state => ([], state)
  | label :: labels, state =>
    let (output, state) := act label state
    let (outputs, state) := interleaved labels (tick state)
    (output :: outputs, state)

/-- The actions alone. -/
def untimed : List Label → State → List Output × State
  | [], state => ([], state)
  | label :: labels, state =>
    let (output, state) := act label state
    let (outputs, state) := untimed labels state
    (output :: outputs, state)

/-- The actions, and then all their ticks. -/
def batched (labels : List Label) (state : State) : List Output × State :=
  ((untimed act labels state).1, tick^[labels.length] (untimed act labels state).2)

/-- The action does not notice whether `late` ticks are still to come. -/
def Settles (late : Nat) (label : Label) (state : State) : Prop :=
  act label (tick^[late] state) = ((act label state).1, tick^[late] (act label state).2)

/-- No action of a batch notices the ticks that those before it left to come. -/
def AllSettle : Nat → List Label → State → Prop
  | _, [], _ => True
  | late, label :: labels, state =>
    Settles act tick late label state ∧ AllSettle (late + 1) labels (act label state).2

end

variable {act : Label → State → Output × State} {tick : State → State}

theorem interleaved_append (act : Label → State → Output × State) (tick : State → State)
    (first second : List Label) (state : State) :
    interleaved act tick (first ++ second) state =
      ((interleaved act tick first state).1 ++
          (interleaved act tick second (interleaved act tick first state).2).1,
        (interleaved act tick second (interleaved act tick first state).2).2) := by
  induction first generalizing state with
  | nil => rfl
  | cons label labels ih => simp only [List.cons_append, interleaved, ih]

/-- An action that commutes with every single tick still to come settles. -/
theorem settles_of_ticks {label : Label} {state : State} (late : Nat)
    (commutes : ∀ passed < late, act label (tick (tick^[passed] state)) =
      ((act label (tick^[passed] state)).1, tick (act label (tick^[passed] state)).2)) :
    Settles act tick late label state := by
  induction late with
  | zero => rfl
  | succ late ih =>
    have earlier : Settles act tick late label state :=
      ih fun passed before => commutes passed (before.trans late.lt_succ_self)
    have last := commutes late late.lt_succ_self
    unfold Settles at earlier ⊢
    rw [earlier] at last
    rw [Function.iterate_succ_apply', last, Function.iterate_succ_apply']

/-- Ticks that nothing notices may come after the actions. -/
theorem interleaved_late (late : Nat) (labels : List Label) (state : State)
    (settle : AllSettle act tick late labels state) :
    interleaved act tick labels (tick^[late] state) =
      ((untimed act labels state).1, tick^[late + labels.length] (untimed act labels state).2) := by
  induction labels generalizing late state with
  | nil => rfl
  | cons label labels ih =>
    obtain ⟨settles, rest⟩ := settle
    have passed := ih (late + 1) (act label state).2 rest
    rw [Function.iterate_succ_apply'] at passed
    unfold Settles at settles
    simp only [interleaved, untimed, settles, passed, List.length_cons]
    rw [show late + 1 + labels.length = late + (labels.length + 1) by omega]

/-- A batch in which every action settles does what its actions do one at a time. -/
theorem batched_eq_interleaved (labels : List Label) (state : State)
    (settle : AllSettle act tick 0 labels state) :
    batched act tick labels state = interleaved act tick labels state := by
  have passed := interleaved_late 0 labels state settle
  rw [Nat.zero_add] at passed
  exact passed.symm

end Minemu.Library
