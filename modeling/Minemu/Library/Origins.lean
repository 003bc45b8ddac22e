import Minemu.Library.Runs

/-! Where the facts at the end of a run come from. -/

namespace Minemu.Library

variable {State : Type u} {Label : Type v}

/-- A run takes a step with a label out of a state. -/
def Takes (next : State → Label → State) (start : State) (labels : List Label) (state : State)
    (label : Label) : Prop :=
  ∃ before after, labels = before ++ label :: after ∧ state = run next start before

namespace Takes

variable {next : State → Label → State} {start state : State} {labels : List Label} {label : Label}

theorem extend (takes : Takes next start labels state label) (more : List Label) :
    Takes next start (labels ++ more) state label := by
  obtain ⟨before, after, rfl, reached⟩ := takes
  exact ⟨before, after ++ more, List.append_assoc _ _ _, reached⟩

theorem last (next : State → Label → State) (start : State) (labels : List Label) (label : Label) :
    Takes next start (labels ++ [label]) (run next start labels) label :=
  ⟨labels, [], rfl, rfl⟩

end Takes

/-- What is there after a run was there at its start, or one of its steps has made it. -/
theorem run_origin {Item : Type w} {next : State → Label → State} {Invariant : State → Prop}
    {Present : State → Item → Prop} {Made : State → Label → Item → Prop}
    (preserved : ∀ state label, Invariant state → Invariant (next state label))
    (made : ∀ state label item, Invariant state → Present (next state label) item →
      Present state item ∨ Made state label item)
    (start : State) (initial : Invariant start) (labels : List Label) (item : Item)
    (present : Present (run next start labels) item) :
    Present start item ∨ ∃ state label, Takes next start labels state label ∧ Made state label item := by
  induction labels using List.reverseRecOn with
  | nil => exact .inl present
  | append_singleton labels label ih =>
    rw [run_append, run_cons, run_nil] at present
    have held : Invariant (run next start labels) :=
      run_invariant (fun state label (_ : True) kept => preserved state label kept) start labels
        initial fun _ _ => trivial
    rcases made _ label item held present with before | new
    · refine (ih before).imp_right ?_
      rintro ⟨state, earlier, takes, made⟩
      exact ⟨state, earlier, takes.extend [label], made⟩
    · exact .inr ⟨_, label, .last next start labels label, new⟩

end Minemu.Library
