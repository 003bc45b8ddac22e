import Minemu.Library.Runs
import Minemu.Unicorn.TickBoundary

/-! The machine under the adapter. Whatever a call does, it takes the machine through a run of
these steps, so that what each step preserves every call preserves. -/

namespace Minemu.Core

open Library Platform

/-- What the adapter does to the machine it owns, one piece at a time. -/
inductive MachineStep where
  | store (address : PhysicalAddress) (bytes : List U8)
  | translate (address : VirtualAddress) (access : Access) (userMode : Bool)
  | control (mmu : Mmu)
  | access (transaction : MmioTransaction)
  | claim
  | tick
  | retireTraces
  | record (event : ObservableEvent)

namespace Machine

def step (machine : Machine) : MachineStep → Machine
  | .store address bytes =>
    { machine with memory := (machine.memory.writeRange address bytes).toOption.getD machine.memory }
  | .translate address access userMode =>
    let translated := machine.mmu.translate machine.memory address access userMode
    { machine with mmu := translated.2.1, memory := translated.2.2 }
  | .control mmu => { machine with mmu }
  | .access transaction =>
    { machine with
      bus := ((machine.bus.access transaction machine.ticks).toOption.map Prod.snd).getD machine.bus }
  | .claim =>
    { machine with bus := { machine.bus with interrupts := machine.bus.interrupts.claimSource.2 } }
  | .tick => machine.tick
  | .retireTraces => machine.retireTraces
  | .record event => machine.recordEvent event

variable (machine : Machine)

theorem leads_advanceTicks (count : Nat) : Leads step machine (machine.advanceTicks count) :=
  (Leads.iterate (fun machine => .one step machine .tick) count machine).trans
    (.one step _ .retireTraces)

theorem leads_finishInstruction (outcome : InstructionOutcome) :
    Leads step machine (machine.finishInstruction outcome).2 := by
  cases outcome with
  | completed => exact machine.leads_advanceTicks 1
  | synchronousException kind pc =>
    have advanced := (machine.leads_advanceTicks 1).trans (leads_advanceTicks _ kind.entryTicks)
    simp only [finishInstruction]
    exact advanced.trans (.one step _ (.record (.exception kind)))
  | fault fault pc =>
    simp only [finishInstruction]
    exact (machine.leads_advanceTicks _).trans (.one step _ (.record (.exception _)))

theorem leads_enterException (kind : ExceptionKind) (pc : VirtualAddress) :
    Leads step machine (machine.enterException kind pc).2 :=
  (machine.leads_advanceTicks kind.entryTicks).trans (.one step _ (.record (.exception kind)))

end Machine

/-- What the adapter does to the machine outside `emu_start`. -/
inductive ExitStep where
  | control (mmu : Mmu)
  | claim
  | finish (outcome : InstructionOutcome)
  | enter (kind : ExceptionKind) (pc : VirtualAddress)

namespace Machine

def exitStep (machine : Machine) : ExitStep → Machine
  | .control mmu => { machine with mmu }
  | .claim =>
    { machine with bus := { machine.bus with interrupts := machine.bus.interrupts.claimSource.2 } }
  | .finish outcome => (machine.finishInstruction outcome).2
  | .enter kind pc => (machine.enterException kind pc).2

theorem leads_exitStep (machine : Machine) (label : ExitStep) :
    Leads step machine (machine.exitStep label) := by
  cases label with
  | control mmu => exact .one step machine (.control mmu)
  | claim => exact .one step machine .claim
  | finish outcome => exact machine.leads_finishInstruction outcome
  | enter kind pc => exact machine.leads_enterException kind pc

end Machine

end Minemu.Core

namespace Minemu.Unicorn.UnicornBackend

open Library Platform Minemu.Core

/-- The machine of one backend leads to that of the other. -/
abbrev Onward (before after : UnicornBackend) : Prop :=
  Leads Machine.step before.machine after.machine

variable (backend : UnicornBackend)

theorem onward_of_machine {before after : UnicornBackend} (same : after.machine = before.machine) :
    Onward before after := by
  rw [Onward, same]
  exact .refl _ _

/-! ### Callbacks -/

theorem onward_tlb (address : U32) (memoryType : MemType) :
    Onward backend (backend.virtualTlbCallback address memoryType).2 := by
  unfold virtualTlbCallback
  split
  · exact .refl _ _
  · rename_i access _
    have looked : Leads Machine.step backend.machine _ :=
      .one Machine.step backend.machine (.translate ⟨address⟩ access backend.userMode)
    simp only
    split
    · split
      · exact looked.trans (.one Machine.step _ (.control _))
      · exact looked
    · exact looked

theorem onward_access (transaction : MmioTransaction) (value : Option U32) (bus : MmioBus)
    (accessed : backend.machine.bus.access transaction backend.machine.ticks = .ok (value, bus)) :
    Onward backend (backend.setBus bus) := by
  have stepped : (backend.setBus bus).machine = backend.machine.step (.access transaction) := by
    simp only [setBus, Machine.step, accessed, Except.toOption, Option.map_some, Option.getD_some]
  rw [Onward, stepped]
  exact .one Machine.step backend.machine (.access transaction)

theorem onward_mmioRead (offset : U32) (size : Nat) :
    Onward backend (backend.mmioReadCallback offset size).2 := by
  unfold mmioReadCallback
  simp only
  split
  · exact .refl _ _
  · split
    · rename_i value bus accessed
      exact backend.onward_access _ value bus accessed
    · exact .refl _ _

theorem onward_mmioWrite (offset : U32) (size : Nat) (value : U32) :
    Onward backend (backend.mmioWriteCallback offset size value) := by
  unfold mmioWriteCallback
  simp only
  split
  · exact .refl _ _
  · split
    · rename_i value bus accessed
      exact backend.onward_access _ value bus accessed
    · exact .refl _ _

theorem leads_storeBytes (machine : Machine) (stores : List (PhysicalAddress × List U8)) :
    Leads Machine.step machine { machine with memory := storeBytes machine.memory stores } := by
  induction stores generalizing machine with
  | nil => exact .refl _ _
  | cons store stores ih =>
    exact (Leads.one Machine.step machine (.store store.1 store.2)).trans (ih _)

theorem onward_event (event : EngineEvent) : Onward backend (backend.event event) := by
  cases event with
  | native cpu stores => exact leads_storeBytes backend.machine stores
  | code address size word =>
    exact onward_of_machine (backend.instructionCounterCallback.trap_frame address size word).1
  | tlb address memoryType => exact backend.onward_tlb address memoryType
  | invalidInstruction => exact onward_of_machine rfl
  | mmioRead offset size => exact backend.onward_mmioRead offset size
  | mmioWrite offset size value => exact backend.onward_mmioWrite offset size value

theorem onward_emulate (events : List EngineEvent) : Onward backend (backend.emulate events) := by
  induction events generalizing backend with
  | nil => exact .refl _ _
  | cons event events ih => exact (backend.onward_event event).trans (ih (backend.event event))

/-! ### Exits -/

/-- The machine of one backend leads to that of the other without `emu_start`. -/
abbrev Exits (before after : UnicornBackend) : Prop :=
  Leads Machine.exitStep before.machine after.machine

theorem Exits.onward {before after : UnicornBackend} (exits : Exits before after) :
    Onward before after := Leads.finer Machine.leads_exitStep exits

theorem exits_of_machine {before after : UnicornBackend} (same : after.machine = before.machine) :
    Exits before after := by
  rw [Exits, same]
  exact .refl _ _

theorem exits_finish (outcome : InstructionOutcome) :
    Leads Machine.exitStep backend.machine (backend.machine.finishInstruction outcome).2 :=
  .one Machine.exitStep backend.machine (.finish outcome)

theorem exits_retire (count : Nat) : Exits backend (backend.retire count) :=
  Leads.iterate (fun machine => .one Machine.exitStep machine (.finish .completed)) count
    backend.machine

theorem exits_account : Exits backend backend.account :=
  exits_retire { backend with callbackStop := none, pendingCp15 := none, pendingException := none }
    backend.completedInstructions

theorem exits_finishSynchronousException (kind : ExceptionKind) (pc : VirtualAddress)
    (tickDeadline : Option Nat) :
    Exits backend (backend.finishSynchronousException kind pc tickDeadline).2 := by
  have retired := backend.exits_finish .completed
  have raised := backend.exits_finish (.synchronousException kind pc)
  simp only [finishSynchronousException, finishInstruction]
  generalize backend.machine.finishInstruction .completed = completed at retired ⊢
  generalize backend.machine.finishInstruction (.synchronousException kind pc) = finished
    at raised ⊢
  obtain ⟨plan, machine⟩ := finished
  split
  · exact retired
  · cases plan with
    | none => exact raised
    | some plan => exact raised

theorem exits_finishPendingException (exception : PendingException) (tickDeadline : Option Nat) :
    Exits backend (backend.finishPendingException exception tickDeadline).2 := by
  cases exception with
  | synchronous kind pc => exact backend.exits_finishSynchronousException kind ⟨pc⟩ tickDeadline
  | fault fault => exact backend.exits_finish (.fault fault _)

theorem exits_finishCallbackStop (stop : BackendStop) (tickDeadline : Option Nat) :
    Exits backend (backend.finishCallbackStop stop tickDeadline).2 := by
  cases stop with
  | mmuFault fault => exact backend.exits_finishPendingException (.fault fault) tickDeadline
  | mmioFault address access detail =>
    have recorded : Leads Machine.exitStep backend.machine _ :=
      .one Machine.exitStep backend.machine
        (.control (backend.machine.mmu.recordInvalidMmioFault ⟨address⟩ access backend.userMode).2)
    simp only [finishCallbackStop]
    refine Leads.trans recorded (exits_finishPendingException { backend with machine := _ } _ _)
  | instructionBudget | breakpoint _ _ | cp15Boundary | exception _ | unicorn _ => exact .refl _ _

theorem exits_finishCp15 (engine : Engine) (pending : PendingCp15) (tickDeadline : Option Nat) :
    Exits backend (backend.finishCp15 engine pending tickDeadline).2 := by
  cases pending with
  | operation operation =>
    have applied : Leads Machine.exitStep backend.machine _ :=
      .one Machine.exitStep backend.machine (.control (backend.machine.mmu.applyCp15 operation))
    simp only [finishCp15]
    split
    · exact applied
    · exact applied
  | readFaultStatus register | readFaultAddress register => exact exits_of_machine rfl
  | undefined pc => exact backend.exits_finishSynchronousException .undefined ⟨pc⟩ tickDeadline

theorem exits_deliverIrq : Exits backend backend.deliverIrq.2 := by
  have claimed : Leads Machine.exitStep backend.machine _ :=
    .one Machine.exitStep backend.machine .claim
  unfold deliverIrq
  split
  · exact .refl _ _
  · simp only
    split
    · exact claimed
    · exact claimed.trans (.one Machine.exitStep _ (.enter .interrupt ⟨backend.cpu.read .pc⟩))

theorem exits_finishRun (result : Except UcError Unit) (tickDeadline : Option Nat) :
    Exits backend (backend.finishRun result tickDeadline).2 := by
  have delivered : Exits backend
      (if backend.deadlineReached tickDeadline then (none, backend) else backend.deliverIrq).2 := by
    split
    · exact .refl _ _
    · exact backend.exits_deliverIrq
  unfold finishRun
  simp only
  split
  · exact delivered
  · exact delivered

theorem exits_finishBatch (engine : Engine) (result : Except UcError Unit)
    (tickDeadline : Option Nat) :
    Exits backend (backend.finishBatch engine result tickDeadline).2 := by
  have accounted := backend.exits_account
  unfold finishBatch
  split
  · exact accounted.trans (exits_finishCallbackStop _ _ tickDeadline)
  · exact accounted.trans (exits_finishPendingException _ _ tickDeadline)
  · exact accounted.trans (exits_finishCp15 _ engine _ tickDeadline)
  · exact accounted.trans (exits_finishRun _ result tickDeadline)

theorem exits_resumeDeferredException (tickDeadline : Option Nat) :
    Exits backend (backend.resumeDeferredException tickDeadline).2 := by
  unfold resumeDeferredException
  split
  · exact .refl _ _
  · split
    · exact .refl _ _
    · rename_i kind pc _ _
      exact .one Machine.exitStep backend.machine (.enter kind pc)

/-! ### Calls -/

theorem onward_runBatch (engine : Engine) (start stop : U32) (instructionBudget : Nat)
    (tickDeadline : Option Nat) :
    Onward backend (backend.runBatch engine start stop instructionBudget tickDeadline).2 := by
  unfold runBatch
  simp only
  split
  · exact .refl _ _
  · exact (backend.clearFlags.onward_emulate _).trans (exits_finishBatch _ engine _ tickDeadline).onward

/-- A call takes the machine through a run of its steps. -/
theorem onward_runWithTickDeadline (engine : Engine) (start stop : U32) (instructionBudget : Nat)
    (tickDeadline : Option Nat) :
    Onward backend
      (backend.runWithTickDeadline engine start stop instructionBudget tickDeadline).2 := by
  have resumed := (backend.exits_resumeDeferredException tickDeadline).onward
  unfold runWithTickDeadline
  cases deferred : backend.resumeDeferredException tickDeadline with
  | mk exit entered =>
    rw [deferred] at resumed
    cases exit with
    | some exit => exact resumed
    | none =>
      simp only
      split
      · exact resumed
      · have delivered : Onward entered
            (if tickDeadline.isSome then entered.deliverIrq else (none, entered)).2 := by
          split
          · exact entered.exits_deliverIrq.onward
          · exact .refl _ _
        split
        · exact resumed.trans delivered
        · exact (resumed.trans delivered).trans
            (onward_runBatch _ engine start stop instructionBudget tickDeadline)

end Minemu.Unicorn.UnicornBackend
