import Minemu.Runtime.BoundedResume

/-! Progress of the execution adapter: a call before its deadline takes virtual time, or it ends at
a BKPT or with an error of the engine. -/

namespace Minemu.Unicorn

open Platform Minemu.Core Minemu.Runtime

/-- What callbacks record: faults and BKPTs. -/
def BackendStop.isRecorded : BackendStop → Bool
  | mmuFault _ | mmioFault _ _ _ | breakpoint _ _ => true
  | _ => false

namespace UnicornBackend

/-- An instruction executed, or a callback asked to stop. -/
def Stirred (batch : UnicornBackend) : Prop :=
  1 ≤ batch.executedInstructions ∨ batch.callbackStop.isSome = true ∨
    batch.pendingException.isSome = true

/-- What the flags of a batch can be: only faults and BKPTs are recorded, and an access of CP15
waits only after the instruction that makes it. -/
structure Flagged (batch : UnicornBackend) : Prop where
  recorded : batch.callbackStop.all BackendStop.isRecorded = true
  counted : batch.pendingCp15.isSome = true → 1 ≤ batch.executedInstructions

end UnicornBackend

/-- `emu_start` without an exit does not return normally before something has happened. -/
def MakesProgress (engine : Engine) : Prop :=
  ∀ backend start stop count, 1 ≤ count → UnicornBackend.exitsOf stop = [] → ∀ events,
    engine.emuStart (UnicornBackend.clearFlags backend) start stop count = (events, .ok ()) →
      (UnicornBackend.emulate backend.clearFlags events).Stirred

namespace UnicornBackend

variable {backend batch : UnicornBackend} {engine : Engine} {call : RunCall}

/-! ### The flags of a batch -/

namespace Flagged

theorem cp15Trap (recorded : backend.callbackStop.all BackendStop.isRecorded = true)
    (executed : 1 ≤ backend.executedInstructions) (address instruction : U32) :
    (backend.cp15Trap address instruction).Flagged := by
  have counted := (backend.cp15Trap_frame address instruction).2.1
  refine ⟨?_, fun _ => executed.trans_eq counted.symm⟩
  unfold UnicornBackend.cp15Trap
  split <;> exact recorded

theorem trap (recorded : backend.callbackStop.all BackendStop.isRecorded = true)
    (executed : 1 ≤ backend.executedInstructions) (address : U32) (size : Nat) (word : Option U32) :
    (backend.a32SynchronousTrapCallback address size word).Flagged := by
  have unchanged : backend.Flagged := ⟨recorded, fun _ => executed⟩
  unfold a32SynchronousTrapCallback
  split
  · exact unchanged
  · split
    · exact unchanged
    · simp only
      split
      · exact ⟨rfl, fun _ => executed⟩
      · split
        · exact ⟨recorded, fun _ => executed⟩
        · exact cp15Trap recorded executed _ _

theorem virtualTlb (flagged : backend.Flagged) (address : U32) (memoryType : MemType) :
    (backend.virtualTlbCallback address memoryType).2.Flagged := by
  unfold virtualTlbCallback
  split
  · exact flagged
  · simp only
    split
    · split
      · exact ⟨rfl, flagged.counted⟩
      · exact ⟨flagged.recorded, flagged.counted⟩
    · exact ⟨rfl, flagged.counted⟩

theorem mmioRead (flagged : backend.Flagged) (offset : U32) (size : Nat) :
    (backend.mmioReadCallback offset size).2.Flagged := by
  unfold mmioReadCallback
  simp only
  split
  · exact ⟨rfl, flagged.counted⟩
  · split
    · exact ⟨flagged.recorded, flagged.counted⟩
    · exact ⟨rfl, flagged.counted⟩

theorem mmioWrite (flagged : backend.Flagged) (offset : U32) (size : Nat) (value : U32) :
    (backend.mmioWriteCallback offset size value).Flagged := by
  unfold mmioWriteCallback
  simp only
  split
  · exact ⟨rfl, flagged.counted⟩
  · split
    · exact ⟨flagged.recorded, flagged.counted⟩
    · exact ⟨rfl, flagged.counted⟩

theorem event (flagged : backend.Flagged) (event : EngineEvent) :
    (backend.event event).Flagged := by
  cases event with
  | native cpu stores => exact ⟨flagged.recorded, flagged.counted⟩
  | code address size word =>
    have recorded : backend.instructionCounterCallback.callbackStop.all
        BackendStop.isRecorded = true := flagged.recorded
    exact trap recorded (Nat.le_add_left 1 _) address size word
  | tlb address memoryType => exact flagged.virtualTlb address memoryType
  | invalidInstruction => exact ⟨flagged.recorded, flagged.counted⟩
  | mmioRead offset size => exact flagged.mmioRead offset size
  | mmioWrite offset size value => exact flagged.mmioWrite offset size value

theorem emulate (flagged : backend.Flagged) (events : List EngineEvent) :
    (backend.emulate events).Flagged := by
  induction events generalizing backend with
  | nil => exact flagged
  | cons event events ih => exact ih (flagged.event event)

/-- A recorded stop that is no BKPT is a fault. -/
theorem faults (flagged : batch.Flagged)
    (undisturbed : batch.callbackStop.any Counted.isDisturbance = false) :
    batch.callbackStop.all isFaultStop = true := by
  have recorded := flagged.recorded
  cases stopped : batch.callbackStop with
  | none => rfl
  | some stop =>
    rw [stopped, Option.any_some] at undisturbed
    rw [stopped, Option.all_some] at recorded
    cases stop with
    | mmuFault fault => rfl
    | mmioFault address access detail => rfl
    | breakpoint address immediate => cases undisturbed
    | instructionBudget | cp15Boundary => cases recorded
    | exception kind => cases recorded
    | unicorn error => cases recorded

end Flagged

theorem flagged_clearFlags (backend : UnicornBackend) : backend.clearFlags.Flagged :=
  ⟨rfl, fun waits => by cases waits⟩

/-! ### What a batch comes to -/

/-- It ends at a BKPT or with an error of the engine, or takes a tick at least. -/
def Advances (before : Nat) (outcome : BackendStop × UnicornBackend) : Prop :=
  Counted.isDisturbance outcome.1 = true ∨ before + 1 ≤ outcome.2.machine.ticks

theorem finishBatch_disturbed (engine : Engine) (result : Except UcError Unit)
    (tickDeadline : Option Nat)
    (disturbed : batch.callbackStop.any Counted.isDisturbance = true) :
    Counted.isDisturbance (batch.finishBatch engine result tickDeadline).1 = true := by
  unfold finishBatch
  cases stopped : batch.callbackStop with
  | none =>
    rw [stopped] at disturbed
    cases disturbed
  | some stop =>
    rw [stopped, Option.any_some] at disturbed
    cases stop with
    | breakpoint address immediate => rfl
    | unicorn error => rfl
    | instructionBudget | cp15Boundary => cases disturbed
    | mmuFault fault => cases disturbed
    | mmioFault address access detail => cases disturbed
    | exception kind => cases disturbed

/-- A fault or an exception costs the tick of an exit. -/
theorem exitCost_pos (tickDeadline : Option Nat)
    (faults : batch.callbackStop.all isFaultStop = true)
    (asked : batch.callbackStop.isSome = true ∨ batch.pendingException.isSome = true) :
    1 ≤ batch.exitCost tickDeadline := by
  unfold exitCost
  cases stopped : batch.callbackStop with
  | some stop =>
    rw [stopped, Option.all_some] at faults
    exact (congrArg Bool.toNat faults).ge
  | none =>
    rw [stopped] at asked
    cases excepted : batch.pendingException with
    | none =>
      rw [excepted] at asked
      rcases asked with asked | asked <;> cases asked
    | some exception =>
      cases exception with
      | synchronous kind pc =>
        simp only
        split <;> omega
      | fault fault => exact le_rfl

/-- A batch that something happened in advances. -/
theorem Stirred.advances (stirred : batch.Stirred) (flagged : batch.Flagged) (engine : Engine)
    (result : Except UcError Unit) (tickDeadline : Option Nat) :
    Advances batch.machine.ticks (batch.finishBatch engine result tickDeadline) := by
  cases disturbed : batch.callbackStop.any Counted.isDisturbance with
  | true => exact .inl (finishBatch_disturbed engine result tickDeadline disturbed)
  | false =>
    refine .inr ?_
    have faults := flagged.faults disturbed
    rcases stirred with executed | asked
    · exact (Nat.add_le_add_left executed _).trans (ticks_atLeast tickDeadline faults result)
    · have cost := exitCost_pos tickDeadline faults asked
      have account := batch.ticks_account
      rw [ticks_finishBatch]
      omega

theorem advances_finishRun (backend : UnicornBackend) (error : UcError)
    (tickDeadline : Option Nat) :
    Advances backend.machine.ticks (backend.finishRun (.error error) tickDeadline) := by
  have cost := backend.ticks_deliverIrq
  unfold finishRun
  cases backend.deadlineReached tickDeadline with
  | true => exact .inl rfl
  | false =>
    simp only [Bool.false_eq_true, ↓reduceIte]
    split
    · rename_i delivered
      rw [delivered] at cost
      exact .inr cost.ge
    · exact .inl rfl

/-- So does one that an error ended. -/
theorem advances_failed (flagged : batch.Flagged) (engine : Engine) (error : UcError)
    (tickDeadline : Option Nat) :
    Advances batch.machine.ticks (batch.finishBatch engine (.error error) tickDeadline) := by
  by_cases stirred : batch.Stirred
  · exact stirred.advances flagged engine _ tickDeadline
  · obtain ⟨idle, quiet⟩ := not_or.mp stirred
    obtain ⟨calm, clear⟩ := not_or.mp quiet
    have stopped : batch.callbackStop = none := by simpa using calm
    have excepted : batch.pendingException = none := by simpa using clear
    have trapped : batch.pendingCp15 = none := by
      cases waits : batch.pendingCp15 with
      | none => rfl
      | some pending => exact absurd (flagged.counted (congrArg Option.isSome waits)) idle
    have none : batch.executedInstructions = 0 := by omega
    have same : batch.account.machine.ticks = batch.machine.ticks := by
      rw [batch.ticks_account, completedInstructions, none, Nat.zero_sub, Nat.add_zero]
    unfold finishBatch
    rw [stopped, excepted, trapped]
    exact same ▸ batch.account.advances_finishRun error tickDeadline

/-- A batch without an exit advances, over an engine that makes progress. -/
theorem advances_runBatch (progress : MakesProgress engine) {stop : U32}
    (endless : exitsOf stop = []) (start : U32) {budget : Nat} {tickDeadline : Option Nat}
    (positive : 1 ≤ budget) (ahead : backend.deadlineReached tickDeadline = false) :
    Advances backend.machine.ticks (backend.runBatch engine start stop budget tickDeadline) := by
  have room : 1 ≤ tickDeadline.elim budget fun deadline =>
      min budget (deadline - backend.machine.ticks) := by
    cases bound : tickDeadline with
    | none => exact positive
    | some deadline =>
      simp only [deadlineReached, bound, Option.any_some, decide_eq_false_iff_not, not_le] at ahead
      simp only [Option.elim_some]
      omega
  cases exits : engine.setExits backend (exitsOf stop) with
  | error error =>
    simp only [runBatch, exits]
    exact .inl rfl
  | ok done =>
    cases emulated : engine.emuStart backend.clearFlags start stop
      (tickDeadline.elim budget fun deadline => min budget (deadline - backend.machine.ticks)) with
    | mk events result =>
      have kept : (backend.clearFlags.emulate events).machine.ticks = backend.machine.ticks :=
        (backend.clearFlags.emulate_frame events).1
      have flagged := backend.flagged_clearFlags.emulate events
      simp only [runBatch, exits, emulated]
      cases result with
      | ok done =>
        have stirred := progress backend start stop _ room endless events emulated
        exact kept ▸ stirred.advances flagged engine (.ok done) tickDeadline
      | error error => exact kept ▸ advances_failed flagged engine error tickDeadline

/-- A call before its deadline does. -/
theorem advances_call (progress : MakesProgress engine) (endless : exitsOf call.stop = [])
    (positive : 1 ≤ call.budget) (ahead : backend.deadlineReached call.tickDeadline = false) :
    Advances backend.machine.ticks (backend.call engine call) := by
  cases deferred : backend.deferredException with
  | some waiting =>
    obtain ⟨kind, pc⟩ := waiting
    rw [backend.call_enters engine deferred call ahead]
    exact .inr (backend.machine.ticks_enterException kind pc).ge
  | none =>
    simp only [UnicornBackend.call, runWithTickDeadline, resumeDeferredException, deferred, ahead,
      Bool.false_eq_true, ↓reduceIte]
    by_cases bounded : call.tickDeadline.isSome = true
    · have cost := backend.ticks_deliverIrq
      simp only [bounded, ↓reduceIte]
      split
      · rename_i delivered
        rw [delivered] at cost
        exact .inr cost.ge
      · rename_i delivered
        rw [delivered] at cost
        have same : backend.deliverIrq.2.machine.ticks = backend.machine.ticks := cost
        rw [← same]
        refine advances_runBatch progress endless call.start positive ?_
        rw [deadlineReached, same]
        exact ahead
    · simp only [bounded, Bool.false_eq_true, ↓reduceIte]
      exact advances_runBatch progress endless call.start positive ahead

end UnicornBackend

end Minemu.Unicorn
