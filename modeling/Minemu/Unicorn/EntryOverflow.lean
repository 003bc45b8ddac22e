import Minemu.Unicorn.DeviceFault
import Minemu.Unicorn.ExceptionEntry

/-! The 32-bit additions between a fault or a trap and its vector, as a build that stops on
overflow does them, and the exception PCs for which all of them fit. -/

namespace Minemu.Unicorn

open Library Platform Minemu.Core

/-- `left + right` on `u32`: nothing when the sum does not fit. -/
def checkedAdd (left right : U32) : Option U32 :=
  if left.toNat + right.toNat < 2 ^ 32 then some (left + right) else none

theorem checkedAdd_of_fits {left right : U32} (fits : left.toNat + right.toNat < 2 ^ 32) :
    checkedAdd left right = some (left + right) :=
  if_pos fits

theorem checkedAdd_eq_none {left right : U32} (large : ¬ left.toNat + right.toNat < 2 ^ 32) :
    checkedAdd left right = none :=
  if_neg large

/-- How an exception comes about. -/
inductive Route where
  /-- A trapped supervisor call or CP15 access at an address. -/
  | trapped (kind : ExceptionKind) (address : U32)
  /-- An instruction the engine does not know, at the PC. -/
  | invalidInstruction
  /-- A fault of the instruction at the PC. -/
  | fault (fault : MmuFault)
  /-- An IRQ before the instruction at the PC. -/
  | interrupt
  /-- A synchronous exception that an earlier run left. -/
  | deferred (kind : ExceptionKind) (pc : U32)

namespace UnicornBackend

/-- `enter_exception` with its two additions checked. -/
def enterExceptionChecked (backend : UnicornBackend) (plan : ExceptionPlan) :
    Option UnicornBackend := do
  let previousCpsr := backend.cpu.read .cpsr
  let backend := backend.setRegister .cpsr (destinationCpsr plan.request.kind previousCpsr)
  let backend := backend.setRegister .spsr previousCpsr
  let link ← checkedAdd plan.request.pc.get (linkOffset plan.request.kind)
  let backend := backend.setRegister .lr link
  let vector ← checkedAdd backend.machine.mmu.vectorBase.get plan.request.kind.vectorOffset
  return backend.setRegister .pc vector

/-- `invalid_instruction_callback` with its addition checked. -/
def invalidInstructionCallbackChecked (backend : UnicornBackend) : Option UnicornBackend := do
  let pc := backend.cpu.read .pc
  let next ← checkedAdd pc 4
  return { backend with pendingException := some (.synchronous .undefined pc) }.setRegister .pc next

end UnicornBackend

namespace Route

open UnicornBackend

/-- The kind of exception that a route enters. -/
def kind : Route → ExceptionKind
  | trapped kind _ | deferred kind _ => kind
  | invalidInstruction => .undefined
  | .fault raised => if raised.status.isFetch then .prefetchAbort else .dataAbort
  | interrupt => .interrupt

/-- The exception PC. -/
def pc (route : Route) (backend : UnicornBackend) : U32 :=
  match route with
  | trapped _ address => address
  | deferred _ pc => pc
  | invalidInstruction | fault _ | interrupt => backend.cpu.read .pc

/-- The way from the trap or the fault to the vector, without a tick deadline. The other trap
callbacks advance the PC in 64 bits. -/
def enter (route : Route) (backend : UnicornBackend) : UnicornBackend :=
  match route with
  | trapped kind address =>
    ((backend.setRegister .pc (address + 4#32)).finishSynchronousException kind ⟨address⟩ none).2
  | invalidInstruction =>
    (backend.invalidInstructionCallback.finishSynchronousException .undefined
      ⟨backend.cpu.read .pc⟩ none).2
  | .fault raised => (backend.finishPendingException (.fault raised) none).2
  | interrupt =>
    let (plan, machine) := backend.machine.enterException .interrupt ⟨backend.cpu.read .pc⟩
    { backend with machine }.enterException plan
  | deferred kind pc =>
    let (plan, machine) := backend.machine.enterException kind ⟨pc⟩
    { backend with deferredException := none, machine }.enterException plan

/-- The same way with every 32-bit addition checked. -/
def enterChecked (route : Route) (backend : UnicornBackend) : Option UnicornBackend :=
  match route with
  | trapped kind address =>
    let (plan, backend) := (backend.setRegister .pc (address + 4#32)).finishInstruction
      (.synchronousException kind ⟨address⟩)
    plan.elim (some backend) backend.enterExceptionChecked
  | invalidInstruction => do
    let advanced ← backend.invalidInstructionCallbackChecked
    let (plan, entered) := advanced.finishInstruction
      (.synchronousException .undefined ⟨backend.cpu.read .pc⟩)
    plan.elim (some entered) entered.enterExceptionChecked
  | .fault raised =>
    let (plan, backend) := backend.finishInstruction (.fault raised ⟨backend.cpu.read .pc⟩)
    plan.elim (some backend) backend.enterExceptionChecked
  | interrupt =>
    let (plan, machine) := backend.machine.enterException .interrupt ⟨backend.cpu.read .pc⟩
    { backend with machine }.enterExceptionChecked plan
  | deferred kind pc =>
    let (plan, machine) := backend.machine.enterException kind ⟨pc⟩
    { backend with deferredException := none, machine }.enterExceptionChecked plan

/-- The link address of the exception fits in 32 bits. -/
def Fits (route : Route) (backend : UnicornBackend) : Prop :=
  (route.pc backend).toNat + (linkOffset route.kind).toNat < 2 ^ 32

instance (route : Route) (backend : UnicornBackend) : Decidable (route.Fits backend) :=
  inferInstanceAs (Decidable (_ < _))

end Route

namespace UnicornBackend

variable (backend : UnicornBackend)

/-- A vector base the platform accepts, whose low bits are clear. -/
def AlignedBase (backend : UnicornBackend) : Prop :=
  backend.machine.mmu.vectorBase.get.toNat % 32 = 0

/-- No vector offset leaves the 32 bytes above an aligned base. -/
theorem vector_fits (aligned : backend.AlignedBase) (kind : ExceptionKind) :
    backend.machine.mmu.vectorBase.get.toNat + kind.vectorOffset.toNat < 2 ^ 32 := by
  have small : kind.vectorOffset.toNat < 32 := by cases kind <;> decide
  have bound := backend.machine.mmu.vectorBase.get.isLt
  unfold AlignedBase at aligned
  omega

theorem enterExceptionChecked_eq (aligned : backend.AlignedBase) (plan : ExceptionPlan) :
    backend.enterExceptionChecked plan =
      if plan.request.pc.get.toNat + (linkOffset plan.request.kind).toNat < 2 ^ 32 then
        some (backend.enterException plan) else none := by
  have bank := modeBank_destinationCpsr plan.request.kind backend.cpu.cpsr
  have vector := checkedAdd_of_fits (backend.vector_fits aligned plan.request.kind)
  by_cases fits : plan.request.pc.get.toNat + (linkOffset plan.request.kind).toNat < 2 ^ 32
  · have link := checkedAdd_of_fits fits
    rw [if_pos fits, enterException_eq]
    simp only [enterExceptionChecked, setRegister, link, vector, Cpu.write, Cpu.read, Cpu.bank,
      bank, Option.bind_eq_bind, Option.bind_some]
    rfl
  · have link := checkedAdd_eq_none fits
    rw [if_neg fits]
    simp only [enterExceptionChecked, link, Option.bind_eq_bind, Option.bind_none]

/-- The state up to the entry keeps the vector base. -/
theorem alignedBase_finishInstruction (aligned : backend.AlignedBase)
    (outcome : InstructionOutcome) : (backend.finishInstruction outcome).2.AlignedBase := by
  have kept := mmu_finishInstruction backend.machine outcome
  unfold AlignedBase
  simp only [finishInstruction, kept]
  exact aligned

end UnicornBackend

namespace Route

open UnicornBackend

/-- A way that ends with the entry of a plan. -/
theorem enterChecked_of_plan {route : Route} {backend last : UnicornBackend} {plan : ExceptionPlan}
    (aligned : last.AlignedBase) (checked : route.enterChecked backend = last.enterExceptionChecked plan)
    (plain : route.enter backend = last.enterException plan)
    (pc : plan.request.pc.get = route.pc backend) (kind : plan.request.kind = route.kind) :
    route.enterChecked backend =
      if route.Fits backend then some (route.enter backend) else none := by
  rw [checked, plain, enterExceptionChecked_eq last aligned, pc, kind]
  rfl

theorem finishSynchronousException_none (backend : UnicornBackend) (kind : ExceptionKind)
    (pc : VirtualAddress) : (backend.finishSynchronousException kind pc none).2 =
      (backend.finishInstruction (.synchronousException kind pc)).2.enterException
        (.synchronous kind pc) := by
  unfold finishSynchronousException
  rw [if_neg (by simp)]
  rfl

/-- The checked way arrives exactly when the link address fits, and then where the other does. -/
theorem enterChecked_eq (route : Route) (backend : UnicornBackend)
    (aligned : backend.AlignedBase) :
    route.enterChecked backend =
      if route.Fits backend then some (route.enter backend) else none := by
  cases route with
  | trapped kind address =>
    have aligned' := alignedBase_finishInstruction (backend.setRegister .pc (address + 4#32)) aligned
      (.synchronousException kind ⟨address⟩)
    have planned : ((backend.setRegister .pc (address + 4#32)).finishInstruction
        (.synchronousException kind ⟨address⟩)).1 = some (.synchronous kind ⟨address⟩) := rfl
    refine enterChecked_of_plan aligned' ?_ (finishSynchronousException_none _ _ _) rfl rfl
    simp only [enterChecked, planned, Option.elim_some]
  | invalidInstruction =>
    -- the PC advance of the callback and the link address are the same sum
    by_cases fits : (backend.cpu.read .pc).toNat + (4 : U32).toNat < 2 ^ 32
    · have next := checkedAdd_of_fits fits
      have advanced : backend.invalidInstructionCallbackChecked =
          some backend.invalidInstructionCallback := by
        simp only [invalidInstructionCallbackChecked, next, Option.bind_eq_bind, Option.bind_some]
        rfl
      refine enterChecked_of_plan (alignedBase_finishInstruction
        backend.invalidInstructionCallback aligned
        (.synchronousException .undefined ⟨backend.cpu.read .pc⟩)) ?_
        (finishSynchronousException_none _ _ _) rfl rfl
      simp only [enterChecked, advanced, Option.bind_eq_bind, Option.bind_some]
      rfl
    · have next := checkedAdd_eq_none fits
      have large : ¬ Route.invalidInstruction.Fits backend := fits
      rw [if_neg large]
      simp only [enterChecked, invalidInstructionCallbackChecked, next, Option.bind_eq_bind,
        Option.bind_none]
  | fault raised =>
    exact enterChecked_of_plan
      (backend.alignedBase_finishInstruction aligned (.fault raised ⟨backend.cpu.read .pc⟩))
      rfl rfl rfl rfl
  | interrupt =>
    have kept := mmu_enterException backend.machine .interrupt ⟨backend.cpu.read .pc⟩
    have entered : AlignedBase { backend with
        machine := (backend.machine.enterException .interrupt ⟨backend.cpu.read .pc⟩).2 } := by
      simp only [AlignedBase, kept]
      exact aligned
    exact enterChecked_of_plan entered rfl rfl rfl rfl
  | deferred kind pc =>
    have kept := mmu_enterException backend.machine kind ⟨pc⟩
    have entered : AlignedBase { backend with
        deferredException := none, machine := (backend.machine.enterException kind ⟨pc⟩).2 } := by
      simp only [AlignedBase, kept]
      exact aligned
    exact enterChecked_of_plan entered rfl rfl rfl rfl

theorem alignedBase_of_ofVbar {value : U32} {backend : UnicornBackend}
    (accepted : Cp15Operation.ofVbar value = .ok (.setVectorBase backend.machine.mmu.vectorBase)) :
    backend.AlignedBase := by
  have low := ofVbar_ok accepted
  have multiple := toNat_and_low backend.machine.mmu.vectorBase.get 5 (by decide)
  exact multiple.symm.trans (congrArg BitVec.toNat low)

/-- Over a vector base the platform accepts, no 32-bit addition on the way from a trap or a fault
to the vector overflows if and only if the exception PC is not so close to the top of the address
space that its link address does. -/
theorem entry_arithmetic_fits_iff (route : Route) (backend : UnicornBackend) (value : U32)
    (accepted : Cp15Operation.ofVbar value = .ok (.setVectorBase backend.machine.mmu.vectorBase)) :
    route.enterChecked backend = some (route.enter backend) ↔
      (route.pc backend).toNat + (linkOffset route.kind).toNat < 2 ^ 32 := by
  rw [enterChecked_eq route backend (alignedBase_of_ofVbar accepted)]
  by_cases fits : route.Fits backend
  · rw [if_pos fits]
    exact iff_of_true rfl fits
  · rw [if_neg fits]
    exact iff_of_false (by simp) fits

theorem entry_arithmetic_fits_reset :
    Route.interrupt.enterChecked (.new .default) = some (Route.interrupt.enter (.new .default)) :=
  (entry_arithmetic_fits_iff .interrupt (.new .default) 0 rfl).mpr (by decide)

/-- A guest that has translation on over an empty directory and jumps to the last word. -/
def jumpedToTop : UnicornBackend :=
  let machine := Machine.default
  { UnicornBackend.new { machine with
      mmu := { machine.mmu with enabled := true, ttbr0 := ⟨0x4000_0000⟩ } } with
    cpu := { Cpu.reset with pc := 0xffff_fffc } }

/-- Its fetch faults, and the link address of the Prefetch Abort does not fit. -/
theorem prefetch_abort_overflows :
    (jumpedToTop.virtualTlbCallback 0xffff_fffc .fetch).2.callbackStop =
        some (.mmuFault ⟨⟨0xffff_fffc⟩, .new .translation false .fetch⟩) ∧
      (Route.fault ⟨⟨0xffff_fffc⟩, .new .translation false .fetch⟩).enterChecked
        (jumpedToTop.virtualTlbCallback 0xffff_fffc .fetch).2 = none := by
  decide +kernel

end Route

end Minemu.Unicorn
