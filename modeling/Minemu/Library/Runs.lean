import Mathlib

/-! Finite runs of a labelled transition function. Nondeterminism of the
environment is part of the label, so a run is determined by its labels. -/

namespace Minemu.Library

variable {State : Type u} {Label : Type v}

/-- The state after taking every label in order. -/
def run (next : State → Label → State) (start : State) (labels : List Label) : State :=
  labels.foldl next start

@[simp] theorem run_nil (next : State → Label → State) (start : State) :
    run next start [] = start := rfl

@[simp] theorem run_cons (next : State → Label → State) (start : State) (label : Label)
    (labels : List Label) : run next start (label :: labels) = run next (next start label) labels := rfl

theorem run_append (next : State → Label → State) (start : State) (first second : List Label) :
    run next start (first ++ second) = run next (run next start first) second := by
  simp [run, List.foldl_append]

/-- Where a later step absorbs an earlier one, one step to the end of an interval of times is as
good as a step to each of them. -/
theorem run_range' {next : State → Nat → State}
    (absorbs : ∀ state now later, now ≤ later → next (next state now) later = next state later)
    (state : State) (start count : Nat) :
    run next state (List.range' start (count + 1)) = next state (start + count) := by
  induction count generalizing state start with
  | zero => rfl
  | succ count ih =>
    rw [List.range'_succ, run_cons, ih, absorbs state start _ (by omega)]
    congr 1
    omega

/-- Every state a run passes through, its start and end included. -/
def visited (next : State → Label → State) (start : State) : List Label → List State
  | [] => [start]
  | label :: labels => start :: visited next (next start label) labels

theorem run_mem_visited (next : State → Label → State) (start : State) (labels : List Label) :
    run next start labels ∈ visited next start labels := by
  induction labels generalizing start with
  | nil => simp [visited]
  | cons label labels ih => exact List.mem_cons_of_mem _ (ih (next start label))

/-- A predicate that every allowed step preserves holds after every allowed run. -/
theorem run_invariant {next : State → Label → State} {allowed : Label → Prop}
    {Invariant : State → Prop}
    (preserved : ∀ state label, allowed label → Invariant state → Invariant (next state label))
    (start : State) (labels : List Label) (initial : Invariant start)
    (permitted : ∀ label ∈ labels, allowed label) : Invariant (run next start labels) := by
  induction labels generalizing start with
  | nil => exact initial
  | cons label labels ih =>
    exact ih (next start label) (preserved start label (permitted label (by simp)) initial)
      fun other member => permitted other (by simp [member])

/-- The same predicate holds in every state on the way. -/
theorem visited_invariant {next : State → Label → State} {allowed : Label → Prop}
    {Invariant : State → Prop}
    (preserved : ∀ state label, allowed label → Invariant state → Invariant (next state label))
    (start : State) (labels : List Label) (initial : Invariant start)
    (permitted : ∀ label ∈ labels, allowed label) :
    ∀ state ∈ visited next start labels, Invariant state := by
  induction labels generalizing start with
  | nil => simpa [visited] using initial
  | cons label labels ih =>
    intro state member
    rcases List.mem_cons.mp member with same | later
    · exact same ▸ initial
    · exact ih (next start label) (preserved start label (permitted label (by simp)) initial)
        (fun other inside => permitted other (by simp [inside])) state later

/-- Every step of a run is taken in a state where it is allowed. -/
def Throughout (next : State → Label → State) (allowed : State → Label → Prop) :
    State → List Label → Prop
  | _, [] => True
  | state, label :: labels =>
    allowed state label ∧ Throughout next allowed (next state label) labels

theorem throughout_congr {next : State → Label → State} {first second : State → Label → Prop}
    (same : ∀ state label, first state label ↔ second state label) (start : State)
    (labels : List Label) : Throughout next first start labels ↔ Throughout next second start labels := by
  induction labels generalizing start with
  | nil => rfl
  | cons label labels ih => exact and_congr (same start label) (ih (next start label))

/-- A predicate that steps preserve where they are allowed holds in every state on the way. -/
theorem throughout_invariant {next : State → Label → State} {allowed : State → Label → Prop}
    {Invariant : State → Prop}
    (preserved : ∀ state label, allowed state label → Invariant state → Invariant (next state label))
    (start : State) (labels : List Label) (initial : Invariant start)
    (permitted : Throughout next allowed start labels) :
    ∀ state ∈ visited next start labels, Invariant state := by
  induction labels generalizing start with
  | nil => simpa [visited] using initial
  | cons label labels ih =>
    intro state member
    obtain ⟨first, rest⟩ := permitted
    rcases List.mem_cons.mp member with same | later
    · exact same ▸ initial
    · exact ih (next start label) (preserved start label first initial) rest state later

/-- Where a step from a good state of the invariant is allowed exactly when it leads to a good
state, and good states keep the invariant, a run goes through good states exactly when all its
steps are allowed. -/
theorem visited_iff_throughout {next : State → Label → State} {allowed : State → Label → Prop}
    {Invariant Good : State → Prop} (good : ∀ state, Invariant state → Good state)
    (exact : ∀ state label, Invariant state → (allowed state label ↔ Good (next state label)))
    (kept : ∀ state label, Invariant state → Good (next state label) →
      Invariant (next state label))
    (start : State) (labels : List Label) (initial : Invariant start) :
    (∀ state ∈ visited next start labels, Good state) ↔ Throughout next allowed start labels := by
  induction labels generalizing start with
  | nil =>
    constructor
    · intro _
      trivial
    · intro _ state member
      rw [visited, List.mem_singleton] at member
      exact member ▸ good start initial
  | cons label labels ih =>
    rw [visited, List.forall_mem_cons, Throughout, exact start label initial]
    constructor
    · intro ⟨_, later⟩
      have first : Good (next start label) := by
        apply later
        cases labels with
        | nil => exact .head _
        | cons second labels => exact .head _
      exact ⟨first, (ih _ (kept start label initial first)).mp later⟩
    · intro ⟨first, rest⟩
      exact ⟨good start initial, (ih _ (kept start label initial first)).mpr rest⟩

/-- Some run leads from one state to the other. -/
def Leads (next : State → Label → State) (start last : State) : Prop :=
  ∃ labels, last = run next start labels

namespace Leads

variable {next : State → Label → State} {start middle last : State}

theorem refl (next : State → Label → State) (state : State) : Leads next state state := ⟨[], rfl⟩

theorem one (next : State → Label → State) (state : State) (label : Label) :
    Leads next state (next state label) := ⟨[label], rfl⟩

theorem trans (before : Leads next start middle) (after : Leads next middle last) :
    Leads next start last := by
  obtain ⟨first, rfl⟩ := before
  obtain ⟨second, rfl⟩ := after
  exact ⟨first ++ second, (run_append next start first second).symm⟩

/-- What every step preserves is preserved from one end to the other. -/
theorem invariant {Invariant : State → Prop}
    (preserved : ∀ state label, Invariant state → Invariant (next state label))
    (leads : Leads next start last) (initial : Invariant start) : Invariant last := by
  obtain ⟨labels, rfl⟩ := leads
  exact run_invariant (fun state label (_ : True) held => preserved state label held) start labels
    initial fun _ _ => trivial

/-- Where every step leads on by finer steps, a run of them does. -/
theorem finer {Finer : Type w} {other : State → Finer → State}
    (steps : ∀ state label, Leads other state (next state label))
    (leads : Leads next start last) : Leads other start last := by
  have extended (state : State) (label : Label) (led : Leads other start state) :
      Leads other start (next state label) := led.trans (steps state label)
  exact leads.invariant extended (refl other start)

/-- So does an iteration. -/
theorem iterate {turn : State → State} (turns : ∀ state, Leads next state (turn state))
    (count : Nat) (state : State) : Leads next state (turn^[count] state) := by
  induction count generalizing state with
  | zero => exact refl next state
  | succ count ih => exact (turns state).trans (ih (turn state))

end Leads

/-- Where every step keeps the view or lowers its rank, a run that ends with the view it started
with has kept it all along. -/
theorem throughout_of_ratchet {View : Type w} {next : State → Label → State} {view : State → View}
    {rank : View → Nat}
    (falls : ∀ state label, view (next state label) = view state ∨
      rank (view (next state label)) < rank (view state))
    (start : State) (labels : List Label) (same : view (run next start labels) = view start) :
    Throughout next (fun state label => view (next state label) = view state) start labels := by
  have bounded (labels : List Label) (start : State) :
      rank (view (run next start labels)) ≤ rank (view start) := by
    induction labels generalizing start with
    | nil => exact le_rfl
    | cons label labels ih =>
      rcases falls start label with kept | lower
      · exact (ih (next start label)).trans (congrArg rank kept).le
      · exact (ih (next start label)).trans lower.le
  induction labels generalizing start with
  | nil => trivial
  | cons label labels ih =>
    rw [run_cons] at same
    rcases falls start label with kept | lower
    · exact ⟨kept, ih (next start label) (same.trans kept.symm)⟩
    · have below := bounded labels (next start label)
      rw [same] at below
      omega

end Minemu.Library
