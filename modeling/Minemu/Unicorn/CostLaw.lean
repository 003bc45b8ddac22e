import Minemu.Unicorn.TickBoundary

/-! The virtual-time cost of one call, for every way its batch can stop. -/

namespace Minemu.Unicorn

open Platform Minemu.Core

/-- Why a batch stopped. -/
inductive StopKind where
  | budget
  | dataFault
  | invalidMmio
  | failedFetch
  | svc
  | undefined
deriving DecidableEq

namespace StopKind

/-- Whether the instruction that stopped the batch reached execution. -/
def reachesExecution : StopKind → Bool
  | budget | failedFetch => false
  | dataFault | invalidMmio | svc | undefined => true

/-- The virtual-time table: each completed instruction, then what the stop costs. -/
def cost (kind : StopKind) (completed : Nat) : Nat :=
  match kind with
  | budget => completed
  | dataFault | invalidMmio | failedFetch => completed + 1
  | svc | undefined => completed + 2

/-- What the callbacks have recorded when a batch stops for this reason. -/
def Recorded (kind : StopKind) (batch : UnicornBackend) : Prop :=
  match kind with
  | budget =>
    batch.callbackStop = none ∧ batch.pendingException = none ∧ batch.pendingCp15 = none
  | dataFault => ∃ fault, batch.callbackStop = some (.mmuFault fault) ∧ fault.status.isFetch = false
  | invalidMmio => ∃ address access detail,
    batch.callbackStop = some (.mmioFault address access detail)
  | failedFetch => ∃ fault, batch.callbackStop = some (.mmuFault fault) ∧ fault.status.isFetch = true
  | svc => batch.callbackStop = none ∧ ∃ pc,
    batch.pendingException = some (.synchronous .supervisorCall pc)
  | undefined => batch.callbackStop = none ∧ ∃ pc,
    batch.pendingException = some (.synchronous .undefined pc) ∨
      batch.pendingException = none ∧ batch.pendingCp15 = some (.undefined pc)

/-- Whether the accounting takes one instruction off for this stop. -/
def discounts : StopKind → Bool
  | budget => false
  | _ => true

end StopKind

namespace UnicornBackend

variable (backend : UnicornBackend)

/-- A call whose batch completes `completed` instructions and then stops for the
reason `kind`: `done` are the events of the completed instructions, `last` those of
the attempt that stopped it. -/
structure StoppedCall (engine : Engine) (backend : UnicornBackend) (start stop : U32)
    (budget : Nat) (tickDeadline : Option Nat) (kind : StopKind) (completed : Nat)
    (done last : List EngineEvent) : Prop where
  fresh : backend.deferredException = none
  masked : backend.cpu.irqsMasked = true
  exits : engine.setExits backend (exitsOf stop) = .ok ()
  events : (engine.emuStart backend.clearFlags start stop (tickDeadline.elim budget fun deadline =>
    min budget (deadline - backend.machine.ticks))).1 = done ++ last
  counted : done.countP EngineEvent.isCode = completed
  attempted : last.countP EngineEvent.isCode = kind.reachesExecution.toNat
  recorded : kind.Recorded (backend.clearFlags.emulate (done ++ last))
  stillMasked : (backend.clearFlags.emulate (done ++ last)).cpu.irqsMasked = true
  early : backend.deadlineReached tickDeadline = false
  inside : ∀ deadline, tickDeadline = some deadline →
    backend.machine.ticks + kind.cost completed ≤ deadline

/-! ### The accounting -/

theorem faultingInstruction_recorded {kind : StopKind} (recorded : kind.Recorded backend) :
    backend.faultingInstruction = kind.discounts := by
  cases kind with
  | budget =>
    obtain ⟨stop, exception, cp15⟩ := recorded
    simp [faultingInstruction, stop, exception, cp15, StopKind.discounts]
  | dataFault | failedFetch =>
    obtain ⟨fault, stop, _⟩ := recorded
    simp [faultingInstruction, stop, isFaultStop, StopKind.discounts]
  | invalidMmio =>
    obtain ⟨address, access, detail, stop⟩ := recorded
    simp [faultingInstruction, stop, isFaultStop, StopKind.discounts]
  | svc =>
    obtain ⟨_, pc, exception⟩ := recorded
    simp [faultingInstruction, exception, StopKind.discounts]
  | undefined =>
    obtain ⟨_, pc, exception | ⟨_, cp15⟩⟩ := recorded
    · simp [faultingInstruction, exception, StopKind.discounts]
    · simp [faultingInstruction, cp15, isUndefinedCp15, StopKind.discounts]

/-- What follows the accounting: the entry of a fault, or the retirement and the entry
of a synchronous exception. -/
def exitTicks : StopKind → Nat
  | .budget => 0
  | .dataFault | .invalidMmio | .failedFetch => 1
  | .svc | .undefined => 2

theorem ticks_finishBatch_recorded {kind : StopKind} (engine : Engine)
    (result : Except UcError Unit) (tickDeadline : Option Nat) (recorded : kind.Recorded backend)
    (masked : backend.cpu.irqsMasked = true)
    (beyond : ∀ deadline, tickDeadline = some deadline →
      backend.account.machine.ticks + exitTicks kind ≤ deadline) :
    (backend.finishBatch engine result tickDeadline).2.machine.ticks =
      backend.account.machine.ticks + exitTicks kind := by
  -- the retirement of a synchronous exception stays below the deadline, so none is deferred
  have entered (exits : exitTicks kind = 2) :
      tickDeadline ≠ some (backend.account.machine.ticks + 1) := by
    intro lands
    have room := beyond _ lands
    omega
  cases kind with
  | budget =>
    obtain ⟨stop, exception, cp15⟩ := recorded
    have quiet : backend.account.deliverIrq = (none, backend.account) :=
      backend.account.deliverIrq_masked masked
    simp only [finishBatch, stop, exception, cp15, ticks_finishRun, quiet, Option.isSome_none,
      Bool.toNat_false, ite_self, exitTicks]
  | dataFault | failedFetch =>
    obtain ⟨fault, stop, _⟩ := recorded
    simp only [finishBatch, stop, ticks_finishCallbackStop, isFaultStop, Bool.toNat_true, exitTicks]
  | invalidMmio =>
    obtain ⟨address, access, detail, stop⟩ := recorded
    simp only [finishBatch, stop, ticks_finishCallbackStop, isFaultStop, Bool.toNat_true, exitTicks]
  | svc =>
    obtain ⟨stop, pc, exception⟩ := recorded
    simp only [finishBatch, stop, exception, finishPendingException,
      ticks_finishSynchronousException, entered rfl, ↓reduceIte, exitTicks]
  | undefined =>
    obtain ⟨stop, pc, exception | ⟨exception, cp15⟩⟩ := recorded
    · simp only [finishBatch, stop, exception, finishPendingException,
        ticks_finishSynchronousException, entered rfl, ↓reduceIte, exitTicks]
    · simp only [finishBatch, stop, exception, cp15, finishCp15,
        ticks_finishSynchronousException, entered rfl, ↓reduceIte, exitTicks]

namespace StoppedCall

variable {engine : Engine} {start stop : U32} {budget completed : Nat} {tickDeadline : Option Nat}
  {kind : StopKind} {done last : List EngineEvent}

/-- What the call retires: the executed count less the discount of the stop. -/
theorem ticks_account (call : StoppedCall engine backend start stop budget tickDeadline kind
    completed done last) :
    (backend.clearFlags.emulate (done ++ last)).account.machine.ticks = backend.machine.ticks +
      (completed + kind.reachesExecution.toNat - kind.discounts.toNat) := by
  obtain ⟨ticks, executed, _⟩ := backend.clearFlags.emulate_frame (done ++ last)
  rw [List.countP_append, call.counted, call.attempted] at executed
  have zero : backend.clearFlags.executedInstructions = 0 := rfl
  rw [UnicornBackend.ticks_account, completedInstructions, executed, zero, Nat.zero_add, ticks,
    faultingInstruction_recorded _ call.recorded]
  rfl

theorem run_eq (call : StoppedCall engine backend start stop budget tickDeadline kind completed
    done last) :
    ∃ result, backend.runWithTickDeadline engine start stop budget tickDeadline =
      (backend.clearFlags.emulate (done ++ last)).finishBatch engine result tickDeadline := by
  refine ⟨(engine.emuStart backend.clearFlags start stop (tickDeadline.elim budget fun deadline =>
    min budget (deadline - backend.machine.ticks))).2, ?_⟩
  rw [← call.events]
  simp only [runWithTickDeadline, resumeDeferredException, call.fresh, call.early,
    Bool.false_eq_true, ↓reduceIte, backend.deliverIrq_masked call.masked, ite_self, runBatch,
    call.exits]

/-- The exact cost of the call. -/
theorem ticks_run (call : StoppedCall engine backend start stop budget tickDeadline kind completed
    done last) :
    (backend.runWithTickDeadline engine start stop budget tickDeadline).2.machine.ticks =
      backend.machine.ticks + (completed + kind.reachesExecution.toNat - kind.discounts.toNat) +
        exitTicks kind := by
  obtain ⟨result, ran⟩ := call.run_eq
  have accounted := call.ticks_account
  rw [ran, ticks_finishBatch_recorded _ engine result tickDeadline call.recorded call.stillMasked,
    accounted]
  intro deadline bound
  have room := call.inside deadline bound
  rw [accounted]
  cases kind <;>
    simp only [StopKind.cost, StopKind.reachesExecution, StopKind.discounts, exitTicks,
      Bool.toNat_true, Bool.toNat_false] at room ⊢ <;>
    omega

end StoppedCall

/-- The virtual-time cost law holds of a call exactly when its batch does not stop at a
failed fetch after completing an instruction. -/
theorem virtual_time_cost (engine : Engine) (backend : UnicornBackend) (start stop : U32)
    (budget : Nat) (tickDeadline : Option Nat) (kind : StopKind) (completed : Nat)
    (done last : List EngineEvent)
    (call : StoppedCall engine backend start stop budget tickDeadline kind completed done last) :
    (backend.runWithTickDeadline engine start stop budget tickDeadline).2.machine.ticks =
        backend.machine.ticks + kind.cost completed ↔
      ¬ (kind = .failedFetch ∧ 1 ≤ completed) := by
  rw [call.ticks_run]
  cases kind <;>
    simp [StopKind.cost, StopKind.reachesExecution, StopKind.discounts, exitTicks, Nat.add_assoc]
  -- only a failed fetch is discounted without having been counted
  omega

/-- `mov pc, #0x10000000` at address 0, then the fetch from the device page it jumps to. -/
def jumpEngine : Engine where
  setExits _ _ := .ok ()
  flushTlb _ := .ok ()
  emuStart backend _ _ _ :=
    ([.tlb 0 .fetch, .code 0 4 (some 0xe3a0_f201),
      .native { backend.cpu with pc := 0x1000_0000 } []] ++ [.tlb 0x1000_0000 .fetch], .ok ())

/-- A machine whose boot ROM starts with the jump. -/
def jumpMachine : Machine := .new (.programmed [0xe3a0_f201]) 4096

/-- One completed instruction and one failed fetch cost 1 tick, where the law says 2. -/
theorem failed_fetch_loses_a_tick :
    jumpMachine.memory.readU32 ⟨0⟩ = .ok 0xe3a0_f201#32 ∧
    (∃ done last, StoppedCall jumpEngine (.new jumpMachine) 0 0xffff_ffff 2 none .failedFetch 1 done
      last) ∧
    ((UnicornBackend.new jumpMachine).runWithTickDeadline jumpEngine 0 0xffff_ffff 2
      none).2.machine.ticks = 1 ∧
    (UnicornBackend.new jumpMachine).machine.ticks + StopKind.failedFetch.cost 1 = 2 := by
  have fault : StopKind.failedFetch.Recorded ((UnicornBackend.new jumpMachine).clearFlags.emulate
      ([.tlb 0 .fetch, .code 0 4 (some 0xe3a0_f201),
        .native { Cpu.reset with pc := 0x1000_0000 } []] ++ [.tlb 0x1000_0000 .fetch])) :=
    ⟨⟨⟨0x1000_0000⟩, .new .deviceAccess false .fetch⟩, rfl, by decide⟩
  exact ⟨rfl, ⟨_, _, rfl, rfl, rfl, rfl, rfl, rfl, fault, rfl, rfl, by simp⟩, rfl, rfl⟩

theorem virtual_time_cost_svc :
    ((UnicornBackend.new svcMachine).runWithTickDeadline svcEngine 0 4 1 none).2.machine.ticks =
      (UnicornBackend.new svcMachine).machine.ticks + StopKind.svc.cost 0 :=
  (virtual_time_cost svcEngine (.new svcMachine) 0 4 1 none .svc 0 []
    [.code 0 4 (some 0xef00_0000)]
    ⟨rfl, rfl, rfl, rfl, rfl, rfl, ⟨rfl, _, rfl⟩, rfl, rfl, by simp⟩).mpr (by simp)

end UnicornBackend

end Minemu.Unicorn
