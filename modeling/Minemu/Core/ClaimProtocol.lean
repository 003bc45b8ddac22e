import Minemu.Core.Interrupt
import Minemu.Library.Runs

/-! The claim protocol of the interrupt controller: a claim selects the first claimable
source, keeps it against whatever happens, and only its own EOI gives it up. -/

namespace Minemu.Core.InterruptController

open Library Platform

variable {controller after : InterruptController} {source other : Source}

/-- One use of the controller, by the peripherals, the guest or the delivery of an IRQ. -/
inductive ControllerStep where
  | send (signals : List InterruptSignal)
  | processSignals
  | deliver
  | read (register : InterruptRegister)
  | write (register : InterruptRegister) (value : U32)
deriving DecidableEq

/-- A refused write leaves the controller as it was. -/
def step (controller : InterruptController) : ControllerStep → InterruptController
  | .send signals => controller.send signals
  | .processSignals => controller.processSignals
  | .deliver => controller.claimSource.2
  | .read register => (controller.read register).2
  | .write register value => (controller.update (.write register value)).toOption.getD controller

/-- A source is claimable when its pending and enable bits are both set. -/
def Claimable (controller : InterruptController) (source : Source) : Prop :=
  controller.processSignals.pending &&& controller.enabled &&& source.bit ≠ 0#32

instance (controller : InterruptController) (source : Source) :
    Decidable (controller.Claimable source) := inferInstanceAs (Decidable (_ ≠ _))

/-- Lower priority value first, then lower identifier. -/
def Precedes (controller : InterruptController) (source other : Source) : Prop :=
  (controller.priority source).toNat < (controller.priority other).toNat ∨
    controller.priority source = controller.priority other ∧ source.id.toNat ≤ other.id.toNat

/-! ### Selection -/

theorem precedes_trans {first second third : Source} (before : controller.Precedes first second)
    (after : controller.Precedes second third) : controller.Precedes first third := by
  rcases before with lower | ⟨same, earlier⟩
  · rcases after with lower' | ⟨same', _⟩
    · exact .inl (lower.trans lower')
    · exact .inl (same' ▸ lower)
  · rcases after with lower' | ⟨same', earlier'⟩
    · exact .inl (same ▸ lower')
    · exact .inr ⟨same.trans same', earlier.trans earlier'⟩

theorem select_eq_none {sources : List Source} : controller.select sources = none ↔ sources = [] := by
  cases sources with
  | nil => exact ⟨fun _ => rfl, fun _ => rfl⟩
  | cons source sources =>
    rw [select]
    split
    · simp
    · split <;> simp

/-- Among sources in identifier order, the selection precedes every one. -/
theorem select_least {sources : List Source}
    (ordered : sources.Pairwise fun source other => source.id.toNat ≤ other.id.toNat)
    (selected : controller.select sources = some source) :
    source ∈ sources ∧ ∀ other ∈ sources, controller.Precedes source other := by
  induction sources generalizing source with
  | nil => cases selected
  | cons head sources ih =>
    rw [List.pairwise_cons] at ordered
    rw [select] at selected
    split at selected
    · rename_i empty
      cases selected
      cases select_eq_none.mp empty
      refine ⟨.head _, fun other member => ?_⟩
      cases List.mem_singleton.mp member
      exact .inr ⟨rfl, le_rfl⟩
    · rename_i best found
      obtain ⟨member, least⟩ := ih ordered.2 found
      split at selected
      · rename_i lower
        cases selected
        refine ⟨.tail _ member, List.forall_mem_cons.mpr ⟨.inl lower, least⟩⟩
      · rename_i higher
        cases selected
        have first : controller.Precedes head best := by
          rcases Nat.lt_or_eq_of_le (not_lt.mp higher) with lower | same
          · exact .inl lower
          · exact .inr ⟨BitVec.eq_of_toNat_eq same, ordered.1 best member⟩
        refine ⟨.head _, List.forall_mem_cons.mpr ⟨.inr ⟨rfl, le_rfl⟩, ?_⟩⟩
        intro other member'
        exact precedes_trans first (least other member')

theorem mem_candidates :
    source ∈ controller.processSignals.candidates ↔ controller.Claimable source := by
  rw [candidates, List.mem_filter]
  simp only [source.mem_all, true_and, bne_iff_ne]
  rfl

theorem candidates_ordered : controller.candidates.Pairwise fun source other =>
    source.id.toNat ≤ other.id.toNat := by
  refine List.Pairwise.filter _ ?_
  decide

/-! ### Retention -/

theorem claimSource_claim : controller.claimSource.2.claim = controller.claimSource.1 := by
  unfold claimSource
  simp only
  split
  · assumption
  · rfl

theorem claimSource_retained (active : controller.claim = some source) :
    controller.claimSource.1 = some source := by
  have kept : controller.processSignals.claim = some source := active
  simp only [claimSource, kept]

theorem update_eoi {value : U32} : controller.update (.write .eoi value) = .ok after ↔
    ∃ source, controller.claim = some source ∧ value = source.id ∧
      after = { controller with claim := none } := by
  simp only [update, eoi]
  cases controller.claim with
  | none => simp
  | some active =>
    simp only [Option.some.injEq, exists_eq_left', ne_eq, ite_not]
    split
    · rename_i same
      simp only [same, Except.ok.injEq, true_and]
      exact eq_comm
    · rename_i different
      simp [different]

/-- A write other than an EOI keeps the claim. -/
theorem update_claim {register : InterruptRegister} {value : U32} (other : register ≠ .eoi)
    (updated : controller.update (.write register value) = .ok after) :
    after.claim = controller.claim := by
  cases register with
  | eoi => contradiction
  | pending | claim => cases updated; rfl
  | enable | prioritySysTick | priorityUart0 | priorityUart1 | priorityBlock => cases updated; rfl

/-- Only the EOI of a retained source gives it up. -/
theorem step_retains {next : ControllerStep} (active : controller.claim = some source)
    (other : next ≠ .write .eoi source.id) : (controller.step next).claim = some source := by
  cases next with
  | send | processSignals => exact active
  | deliver => exact claimSource_claim.trans (claimSource_retained active)
  | read register =>
    cases register with
    | claim => exact claimSource_claim.trans (claimSource_retained active)
    | pending | enable | prioritySysTick | priorityUart0 | priorityUart1 | priorityBlock | eoi =>
      exact active
  | write register value =>
    cases updated : controller.update (.write register value) with
    | error error =>
      rw [step, updated]
      exact active
    | ok after =>
      rw [step, updated]
      by_cases completes : register = .eoi
      · subst completes
        obtain ⟨claimed, same, rfl, rfl⟩ := update_eoi.mp updated
        cases active.symm.trans same
        exact absurd rfl other
      · exact (update_claim completes updated).trans active

/-- The same over a run. -/
theorem run_retains {steps : List ControllerStep} (active : controller.claim = some source)
    (kept : ∀ next ∈ steps, next ≠ .write .eoi source.id) :
    (run step controller steps).claim = some source := by
  have preserved (controller : InterruptController) (next : ControllerStep)
      (other : next ≠ .write .eoi source.id) (active : controller.claim = some source) :
      (controller.step next).claim = some source := step_retains active other
  exact run_invariant preserved controller steps active kept

/-! ### The protocol -/

/-- What holds of the claim in a state of the controller. -/
structure ClaimProtocol (controller : InterruptController) : Prop where
  /-- A claimed source is what every later claim returns until its own EOI. -/
  retained : ∀ source, controller.claimSource.1 = some source → ∀ steps,
    (∀ next ∈ steps, next ≠ .write .eoi source.id) →
      (run step controller.claimSource.2 steps).claimSource.1 = some source ∧
        ((run step controller.claimSource.2 steps).read .claim).1 = source.id
  /-- An EOI without a claim or of another source is refused and changes nothing. -/
  refused : ∀ value, (∀ source, controller.claim = some source → value ≠ source.id) →
    controller.update (.write .eoi value) =
        .error (.invalidEoi (controller.claim.elim (BitVec.allOnes 32) Source.id) value) ∧
      controller.step (.write .eoi value) = controller
  /-- An accepted EOI changes the claim and nothing else. -/
  completed : ∀ source, controller.claim = some source →
    controller.update (.write .eoi source.id) = .ok { controller with claim := none }
  /-- A new claim is empty exactly when nothing is claimable, and else the first source. -/
  selected : controller.claim = none →
    (controller.claimSource.1 = none ↔ ∀ source, ¬ controller.Claimable source) ∧
      ∀ source, controller.claimSource.1 = some source →
        controller.Claimable source ∧
          ∀ other, controller.Claimable other → controller.Precedes source other

theorem claim_selected (idle : controller.claim = none) :
    (controller.claimSource.1 = none ↔ ∀ source, ¬ controller.Claimable source) ∧
      ∀ source, controller.claimSource.1 = some source → controller.Claimable source ∧
        ∀ other, controller.Claimable other → controller.Precedes source other := by
  have fresh : controller.claimSource.1 =
      controller.processSignals.select controller.processSignals.candidates := by
    have none : controller.processSignals.claim = none := idle
    simp only [claimSource, none]
  rw [fresh, select_eq_none, List.eq_nil_iff_forall_not_mem]
  refine ⟨forall_congr' fun source => not_congr mem_candidates, fun source found => ?_⟩
  obtain ⟨member, least⟩ := select_least candidates_ordered found
  exact ⟨mem_candidates.mp member, fun other claimable => least other (mem_candidates.mpr claimable)⟩

theorem eoi_refused {value : U32} (wrong : ∀ source, controller.claim = some source → value ≠ source.id) :
    controller.update (.write .eoi value) =
      .error (.invalidEoi (controller.claim.elim (BitVec.allOnes 32) Source.id) value) := by
  simp only [update, eoi]
  cases active : controller.claim with
  | none => rfl
  | some source => simp only [Option.elim, if_pos (wrong source active)]

/-- The claim protocol holds in every state a controller reaches. -/
theorem claim_protocol (steps : List ControllerStep) : ClaimProtocol (run step .new steps) := by
  generalize run step .new steps = controller
  refine ⟨fun source claimed steps kept => ?_, fun value wrong => ?_, fun source active => ?_,
    claim_selected⟩
  · have active := run_retains (claimSource_claim.trans claimed) kept
    have again := claimSource_retained active
    refine ⟨again, ?_⟩
    simp only [read, again, Option.elim]
  · have refused := eoi_refused wrong
    refine ⟨refused, ?_⟩
    rw [step, refused]
    rfl
  · exact update_eoi.mpr ⟨source, active, rfl, rfl⟩

end Minemu.Core.InterruptController
