import Minemu.Library.Runs
import Minemu.Unicorn.Backend

/-! Exception entry over the banked registers: what one entry does, and how nested entries
unwind when each destination mode is outstanding at most once. -/

namespace Minemu.Unicorn

open Library Platform Minemu.Core

/-- The CPSR mode field of a destination mode. -/
def modeBits : CpuMode → U32
  | .user => 0x10
  | .interrupt => 0x12
  | .supervisor => 0x13
  | .abort => 0x17
  | .undefined => 0x1b

/-- The bank of a destination mode. -/
def destinationBank (kind : ExceptionKind) : Bank :=
  match kind.destinationMode with
  | .user => .user
  | .interrupt => .interrupt
  | .supervisor => .supervisor
  | .abort => .abort
  | .undefined => .undefined

/-- How far LR is beyond the exception PC. -/
def linkOffset : ExceptionKind → U32
  | .dataAbort => 8
  | _ => 4

/-- The CPSR an entry leaves. -/
def destinationCpsr (kind : ExceptionKind) (previous : U32) : U32 :=
  (previous &&& ~~~0x3f#32) ||| modeBits kind.destinationMode ||| (1#32 <<< 7)

section DestinationCpsr

variable (kind : ExceptionKind) (previous : U32)

/-- Through any mask, the three parts of the new CPSR are seen apart. -/
theorem destinationCpsr_and (mask : U32) : destinationCpsr kind previous &&& mask =
    (previous &&& (~~~0x3f#32 &&& mask)) ||| (modeBits kind.destinationMode &&& mask) |||
      ((1#32 <<< 7) &&& mask) := by
  rw [destinationCpsr, BitVec.and_or_distrib_right, BitVec.and_or_distrib_right, BitVec.and_assoc]

/-- The mode field is that of the destination mode. -/
theorem mode_destinationCpsr :
    destinationCpsr kind previous &&& 0x1f#32 = modeBits kind.destinationMode := by
  have cleared : ~~~0x3f#32 &&& 0x1f#32 = 0#32 := by decide
  rw [destinationCpsr_and, cleared, BitVec.and_zero]
  cases kind <;> rfl

/-- T is clear. -/
theorem thumb_destinationCpsr : destinationCpsr kind previous &&& 0x20#32 = 0#32 := by
  have cleared : ~~~0x3f#32 &&& 0x20#32 = 0#32 := by decide
  rw [destinationCpsr_and, cleared, BitVec.and_zero]
  cases kind <;> rfl

/-- I is set. -/
theorem irq_destinationCpsr : destinationCpsr kind previous &&& 0x80#32 = 0x80#32 := by
  have set : (1#32 <<< 7) &&& 0x80#32 = 0x80#32 := by decide
  have clear : modeBits kind.destinationMode &&& 0x80#32 = 0#32 := by cases kind <;> rfl
  have kept : ~~~0x3f#32 &&& 0x80#32 = 0x80#32 := by decide
  rw [destinationCpsr_and, set, clear, kept, BitVec.or_zero]
  ext bit
  rw [BitVec.getElem_or, BitVec.getElem_and, Bool.or_comm, Bool.and_comm]
  exact sup_inf_self

/-- Every other bit is as before. -/
theorem others_destinationCpsr :
    destinationCpsr kind previous &&& ~~~0xbf#32 = previous &&& ~~~0xbf#32 := by
  have mode : modeBits kind.destinationMode &&& ~~~0xbf#32 = 0#32 := by cases kind <;> rfl
  have irq : (1#32 <<< 7) &&& ~~~0xbf#32 = 0#32 := by decide
  have kept : ~~~0x3f#32 &&& ~~~0xbf#32 = ~~~0xbf#32 := by decide
  rw [destinationCpsr_and, mode, irq, kept, BitVec.or_zero, BitVec.or_zero]

theorem modeBank_destinationCpsr :
    Cpu.modeBank (destinationCpsr kind previous) = destinationBank kind := by
  rw [Cpu.modeBank, mode_destinationCpsr]
  cases kind <;> rfl

end DestinationCpsr

/-- A vector base that CP15 takes is a multiple of 32. -/
theorem ofVbar_ok {value : U32} {base : VirtualAddress}
    (accepted : Cp15Operation.ofVbar value = .ok (.setVectorBase base)) :
    base.get &&& 0x1f#32 = 0#32 := by
  unfold Cp15Operation.ofVbar at accepted
  split at accepted
  · cases accepted
  · rename_i low
    cases accepted
    simpa using low

theorem destinationBank_eq_iff {first second : ExceptionKind} :
    destinationBank first = destinationBank second ↔
      first.destinationMode = second.destinationMode := by
  cases first <;> cases second <;> decide

namespace UnicornBackend

/-- SPSR and LR are written after CPSR, so they land in the bank of the destination mode. -/
theorem enterException_eq (backend : UnicornBackend) (plan : ExceptionPlan) :
    backend.enterException plan = { backend with
      cpu := { backend.cpu with
        cpsr := destinationCpsr plan.request.kind backend.cpu.cpsr
        spsr := Function.update backend.cpu.spsr (destinationBank plan.request.kind) backend.cpu.cpsr
        lr := Function.update backend.cpu.lr (destinationBank plan.request.kind)
          (plan.request.pc.get + linkOffset plan.request.kind)
        pc := backend.machine.mmu.vectorBase.get + plan.request.kind.vectorOffset } } := by
  have bank := modeBank_destinationCpsr plan.request.kind backend.cpu.cpsr
  unfold enterException
  cases kind : plan.request.kind <;> rw [kind] at bank <;>
    simp only [ExceptionKind.destinationMode, setRegister, Cpu.write, Cpu.read, Cpu.bank,
      linkOffset] <;>
    rw [← bank] <;> rfl

end UnicornBackend

namespace Cpu

/-- `CPSR := SPSR` and `PC := LR` less the link offset of the entry. -/
def exceptionReturn (cpu : Cpu) (kind : ExceptionKind) : Cpu :=
  { cpu with cpsr := cpu.spsr cpu.bank, pc := cpu.lr cpu.bank - linkOffset kind }

end Cpu

/-- What an outstanding entry interrupted. -/
structure Interrupted where
  kind : ExceptionKind
  cpsr : U32
  pc : U32

/-- The backend and the entries that have not returned yet, the latest first. -/
structure Nested where
  backend : UnicornBackend
  outstanding : List Interrupted

inductive NestedStep where
  | enter (plan : ExceptionPlan)
  | leave

namespace Nested

def step (nested : Nested) : NestedStep → Nested
  | .enter plan =>
    ⟨nested.backend.enterException plan,
      ⟨plan.request.kind, nested.backend.cpu.cpsr, plan.request.pc.get⟩ :: nested.outstanding⟩
  | .leave =>
    match nested.outstanding with
    | [] => nested
    | entry :: outstanding =>
      ⟨{ nested.backend with cpu := nested.backend.cpu.exceptionReturn entry.kind }, outstanding⟩

/-- An exception below the top of the address space, to a mode that has no outstanding entry. -/
def Enterable (nested : Nested) : NestedStep → Prop
  | .enter plan => plan.request.pc.get.toNat + 8 < 2 ^ 32 ∧
      ∀ entry ∈ nested.outstanding,
        entry.kind.destinationMode ≠ plan.request.kind.destinationMode
  | .leave => True

/-- Each entry was made into its own mode, in which the entries before it were. -/
def Chained (cpsr : U32) : List Interrupted → Prop
  | [] => True
  | entry :: outstanding =>
    Cpu.modeBank cpsr = destinationBank entry.kind ∧ Chained entry.cpsr outstanding

/-- The banks of the outstanding entries hold what they interrupted. -/
structure Saved (base : VirtualAddress) (nested : Nested) : Prop where
  vectorBase : nested.backend.machine.mmu.vectorBase = base
  banks : ∀ entry ∈ nested.outstanding,
    nested.backend.cpu.spsr (destinationBank entry.kind) = entry.cpsr ∧
      nested.backend.cpu.lr (destinationBank entry.kind) = entry.pc + linkOffset entry.kind
  distinct : nested.outstanding.Pairwise fun later earlier =>
    destinationBank later.kind ≠ destinationBank earlier.kind
  chained : Chained nested.backend.cpu.cpsr nested.outstanding

variable {base : VirtualAddress} {nested : Nested}

/-- An entry overwrites the bank of its own mode only. -/
theorem Saved.enter (saved : Saved base nested) {plan : ExceptionPlan}
    (enterable : nested.Enterable (.enter plan)) : Saved base (nested.step (.enter plan)) := by
  have apart : ∀ entry ∈ nested.outstanding,
      destinationBank entry.kind ≠ destinationBank plan.request.kind := by
    intro entry member same
    exact enterable.2 entry member (destinationBank_eq_iff.mp same)
  rw [step, UnicornBackend.enterException_eq]
  refine ⟨saved.vectorBase, ?_, ?_, modeBank_destinationCpsr _ _, saved.chained⟩
  · intro entry member
    rcases List.mem_cons.mp member with rfl | member
    · exact ⟨Function.update_self .., Function.update_self ..⟩
    · have kept := saved.banks entry member
      simpa only [Function.update_of_ne (apart entry member)] using kept
  · exact List.pairwise_cons.mpr ⟨fun entry member => (apart entry member).symm, saved.distinct⟩

/-- The return from the latest entry. -/
theorem Saved.restores (saved : Saved base nested) {entry : Interrupted}
    {outstanding : List Interrupted} (top : nested.outstanding = entry :: outstanding) :
    nested.step .leave = ⟨{ nested.backend with cpu := { nested.backend.cpu with
      cpsr := entry.cpsr, pc := entry.pc } }, outstanding⟩ := by
  have chained := saved.chained
  rw [top] at chained
  obtain ⟨status, link⟩ := saved.banks entry (by rw [top]; exact List.mem_cons_self)
  have current : nested.backend.cpu.bank = destinationBank entry.kind := chained.1
  simp only [step, top, Cpu.exceptionReturn, current, status, link, BitVec.add_sub_cancel]

theorem Saved.leave (saved : Saved base nested) : Saved base (nested.step .leave) := by
  cases top : nested.outstanding with
  | nil =>
    rw [step, top]
    exact saved
  | cons entry outstanding =>
    have banks := saved.banks
    have distinct := saved.distinct
    have chained := saved.chained
    rw [top] at banks distinct chained
    rw [saved.restores top]
    exact ⟨saved.vectorBase, fun other member => banks other (.tail _ member),
      (List.pairwise_cons.mp distinct).2, chained.2⟩

theorem Saved.step (saved : Saved base nested) {next : NestedStep}
    (enterable : nested.Enterable next) : Saved base (nested.step next) := by
  cases next with
  | enter plan => exact saved.enter enterable
  | leave => exact saved.leave

/-- What an entry does to the registers. -/
structure Enters (before after : UnicornBackend) (plan : ExceptionPlan) : Prop where
  pc : after.cpu.pc.toNat =
    before.machine.mmu.vectorBase.get.toNat + plan.request.kind.vectorOffset.toNat
  saved : after.cpu.spsr (destinationBank plan.request.kind) = before.cpu.cpsr
  link : (after.cpu.lr (destinationBank plan.request.kind)).toNat =
    plan.request.pc.get.toNat + (linkOffset plan.request.kind).toNat
  thumb : after.cpu.cpsr &&& 0x20#32 = 0#32
  masked : after.cpu.cpsr &&& 0x80#32 = 0x80#32
  mode : after.cpu.cpsr &&& 0x1f#32 = modeBits plan.request.kind.destinationMode
  kept : after.cpu.cpsr &&& ~~~0xbf#32 = before.cpu.cpsr &&& ~~~0xbf#32
  others : ∀ bank, bank ≠ destinationBank plan.request.kind →
    after.cpu.spsr bank = before.cpu.spsr bank ∧ after.cpu.lr bank = before.cpu.lr bank
  pointers : after.cpu.sp = before.cpu.sp
  low : after.cpu.low = before.cpu.low
  machine : after.machine = before.machine

theorem enters (backend : UnicornBackend) (plan : ExceptionPlan)
    (aligned : backend.machine.mmu.vectorBase.get &&& 0x1f#32 = 0#32)
    (below : plan.request.pc.get.toNat + 8 < 2 ^ 32) :
    Enters backend (backend.enterException plan) plan := by
  have link : (plan.request.pc.get + linkOffset plan.request.kind).toNat =
      plan.request.pc.get.toNat + (linkOffset plan.request.kind).toNat := by
    have small : (linkOffset plan.request.kind).toNat ≤ 8 := by
      cases plan.request.kind <;> decide
    rw [BitVec.toNat_add]
    exact Nat.mod_eq_of_lt (by omega)
  have vector : (backend.machine.mmu.vectorBase.get + plan.request.kind.vectorOffset).toNat =
      backend.machine.mmu.vectorBase.get.toNat + plan.request.kind.vectorOffset.toNat := by
    have small : plan.request.kind.vectorOffset.toNat < 32 := by
      cases plan.request.kind <;> decide
    have multiple := toNat_and_low backend.machine.mmu.vectorBase.get 5 (by decide)
    have zero := congrArg BitVec.toNat aligned
    have bound := backend.machine.mmu.vectorBase.get.isLt
    rw [BitVec.toNat_add]
    refine Nat.mod_eq_of_lt ?_
    have low : backend.machine.mmu.vectorBase.get.toNat % 2 ^ 5 = 0 := multiple.symm.trans zero
    omega
  rw [UnicornBackend.enterException_eq]
  refine ⟨vector, Function.update_self .., ?_, thumb_destinationCpsr _ _, irq_destinationCpsr _ _,
    mode_destinationCpsr _ _, others_destinationCpsr _ _, ?_, rfl, rfl, rfl⟩
  · simp only [Function.update_self]
    exact link
  · intro bank other
    exact ⟨Function.update_of_ne other .., Function.update_of_ne other ..⟩

/-- In every nesting of exceptions that never enters a mode twice at once, each entry does what
the platform says, and each return, the latest entry first, restores the CPSR and the PC that
its entry interrupted. -/
theorem nested_entries_unwind (backend : UnicornBackend) (value : U32)
    (accepted : Cp15Operation.ofVbar value = .ok (.setVectorBase backend.machine.mmu.vectorBase))
    (steps : List NestedStep) (permitted : Throughout step Enterable ⟨backend, []⟩ steps) :
    ∀ nested ∈ visited step ⟨backend, []⟩ steps,
      (∀ plan, nested.Enterable (.enter plan) →
        Enters nested.backend (nested.step (.enter plan)).backend plan) ∧
      ∀ entry outstanding, nested.outstanding = entry :: outstanding →
        (nested.step .leave).outstanding = outstanding ∧
        (nested.step .leave).backend.cpu.cpsr = entry.cpsr ∧
        (nested.step .leave).backend.cpu.pc = entry.pc := by
  have start : Saved backend.machine.mmu.vectorBase ⟨backend, []⟩ :=
    ⟨rfl, fun _ impossible => (by cases impossible), .nil, trivial⟩
  have preserved (nested : Nested) (next : NestedStep) (enterable : nested.Enterable next)
      (saved : Saved backend.machine.mmu.vectorBase nested) :
      Saved backend.machine.mmu.vectorBase (nested.step next) := saved.step enterable
  intro nested member
  have saved := throughout_invariant preserved _ steps start permitted nested member
  have aligned : nested.backend.machine.mmu.vectorBase.get &&& 0x1f#32 = 0#32 := by
    rw [saved.vectorBase]
    exact ofVbar_ok accepted
  constructor
  · intro plan enterable
    exact enters nested.backend plan aligned enterable.1
  · intro entry outstanding top
    rw [saved.restores top]
    exact ⟨rfl, rfl, rfl⟩

/-- A system call, interrupted by a data abort that has returned. -/
def abortedCall : List NestedStep :=
  [.enter (.synchronous .supervisorCall ⟨0x8000⟩), .enter (.synchronous .dataAbort ⟨0x8100⟩), .leave]

theorem nested_entries_unwind_call :
    ((run step ⟨.new .default, []⟩ abortedCall).step .leave).backend.cpu.pc = 0x8000 := by
  have permitted : Throughout step Enterable ⟨.new .default, []⟩ abortedCall := by
    simp [abortedCall, Throughout, Enterable, step, ExceptionPlan.synchronous,
      ExceptionRequest.synchronous, ExceptionKind.destinationMode]
  have unwinds := nested_entries_unwind (.new .default) 0 rfl abortedCall permitted _
    (run_mem_visited _ _ _)
  exact (unwinds.2 _ _ rfl).2.2

end Nested

end Minemu.Unicorn
