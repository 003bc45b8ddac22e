import Minemu.Unicorn.Backend

/-! Tick boundaries: no call passes its deadline, and an exception that retires on
the deadline waits for the first call that may enter it. -/

namespace Minemu.Unicorn

open Platform Minemu.Core

namespace EngineEvent

/-- Whether the event runs the instruction counter. -/
def isCode : EngineEvent → Bool
  | code _ _ _ => true
  | _ => false

end EngineEvent

/-- Unicorn executes at most the requested count. -/
def ExecutesAtMost (engine : Engine) : Prop :=
  ∀ backend start stop count, 1 ≤ count →
    (engine.emuStart backend start stop count).1.countP EngineEvent.isCode ≤ count

namespace UnicornBackend

variable (backend : UnicornBackend)

/-! ### What callbacks leave alone -/

@[simp] theorem machine_enterException (plan : ExceptionPlan) :
    (backend.enterException plan).machine = backend.machine := rfl

theorem cp15Trap_frame (address instruction : U32) :
    (backend.cp15Trap address instruction).machine = backend.machine ∧
      (backend.cp15Trap address instruction).executedInstructions =
        backend.executedInstructions ∧
      (backend.cp15Trap address instruction).deferredException = backend.deferredException := by
  unfold cp15Trap
  split <;> exact ⟨rfl, rfl, rfl⟩

theorem trap_frame (address : U32) (size : Nat) (word : Option U32) :
    (backend.a32SynchronousTrapCallback address size word).machine = backend.machine ∧
      (backend.a32SynchronousTrapCallback address size word).executedInstructions =
        backend.executedInstructions ∧
      (backend.a32SynchronousTrapCallback address size word).deferredException =
        backend.deferredException := by
  unfold a32SynchronousTrapCallback
  split
  · exact ⟨rfl, rfl, rfl⟩
  · split
    · exact ⟨rfl, rfl, rfl⟩
    · simp only
      split
      · exact ⟨rfl, rfl, rfl⟩
      · split
        · exact ⟨rfl, rfl, rfl⟩
        · exact backend.cp15Trap_frame _ _

theorem tlb_frame (address : U32) (memoryType : MemType) :
    (backend.virtualTlbCallback address memoryType).2.machine.ticks = backend.machine.ticks ∧
      (backend.virtualTlbCallback address memoryType).2.executedInstructions =
        backend.executedInstructions ∧
      (backend.virtualTlbCallback address memoryType).2.deferredException =
        backend.deferredException := by
  unfold virtualTlbCallback
  split
  · exact ⟨rfl, rfl, rfl⟩
  · simp only
    split
    · split <;> exact ⟨rfl, rfl, rfl⟩
    · exact ⟨rfl, rfl, rfl⟩

theorem mmioRead_frame (offset : U32) (size : Nat) :
    (backend.mmioReadCallback offset size).2.machine.ticks = backend.machine.ticks ∧
      (backend.mmioReadCallback offset size).2.executedInstructions =
        backend.executedInstructions ∧
      (backend.mmioReadCallback offset size).2.deferredException =
        backend.deferredException := by
  unfold mmioReadCallback
  simp only
  split
  · exact ⟨rfl, rfl, rfl⟩
  · split <;> exact ⟨rfl, rfl, rfl⟩

theorem mmioWrite_frame (offset : U32) (size : Nat) (value : U32) :
    (backend.mmioWriteCallback offset size value).machine.ticks = backend.machine.ticks ∧
      (backend.mmioWriteCallback offset size value).executedInstructions =
        backend.executedInstructions ∧
      (backend.mmioWriteCallback offset size value).deferredException =
        backend.deferredException := by
  unfold mmioWriteCallback
  simp only
  split
  · exact ⟨rfl, rfl, rfl⟩
  · split <;> exact ⟨rfl, rfl, rfl⟩

/-- No event takes virtual time; only code events count as executed. -/
theorem event_frame (event : EngineEvent) :
    (backend.event event).machine.ticks = backend.machine.ticks ∧
      (backend.event event).executedInstructions =
        backend.executedInstructions + event.isCode.toNat ∧
      (backend.event event).deferredException = backend.deferredException := by
  cases event with
  | native | invalidInstruction => exact ⟨rfl, rfl, rfl⟩
  | code address size word =>
    obtain ⟨machine, executed, deferred⟩ :=
      backend.instructionCounterCallback.trap_frame address size word
    exact ⟨congrArg Machine.ticks machine, executed, deferred⟩
  | tlb address memoryType => exact backend.tlb_frame address memoryType
  | mmioRead offset size => exact backend.mmioRead_frame offset size
  | mmioWrite offset size value => exact backend.mmioWrite_frame offset size value

theorem emulate_frame (events : List EngineEvent) :
    (backend.emulate events).machine.ticks = backend.machine.ticks ∧
      (backend.emulate events).executedInstructions =
        backend.executedInstructions + events.countP EngineEvent.isCode ∧
      (backend.emulate events).deferredException = backend.deferredException := by
  induction events generalizing backend with
  | nil => exact ⟨rfl, rfl, rfl⟩
  | cons event events ih =>
    obtain ⟨ticks, executed, deferred⟩ := backend.event_frame event
    obtain ⟨laterTicks, laterExecuted, laterDeferred⟩ := ih (backend.event event)
    refine ⟨laterTicks.trans ticks, ?_, laterDeferred.trans deferred⟩
    rw [emulate, List.foldl_cons, ← emulate, laterExecuted, executed, List.countP_cons]
    cases event.isCode
    · simp
    · simp only [Bool.toNat_true, ↓reduceIte]
      omega

/-! ### What each exit costs -/

@[simp] theorem ticks_retire (count : Nat) :
    (backend.retire count).machine.ticks = backend.machine.ticks + count := by
  have step (count : Nat) (machine : Machine) :
      ((fun machine : Machine => (machine.finishInstruction .completed).2)^[count] machine).ticks =
        machine.ticks + count := by
    induction count generalizing machine with
    | zero => rfl
    | succ count ih =>
      rw [Function.iterate_succ_apply, ih, Machine.ticks_finishInstruction, Machine.outcomeTicks]
      omega
  exact step count backend.machine

theorem ticks_deliverIrq :
    backend.deliverIrq.2.machine.ticks =
      backend.machine.ticks + backend.deliverIrq.1.isSome.toNat := by
  unfold deliverIrq
  split
  · rfl
  · simp only
    split
    · rfl
    · simp [setBus]

theorem deliverIrq_masked (masked : backend.cpu.irqsMasked = true) :
    backend.deliverIrq = (none, backend) := by
  rw [deliverIrq, if_pos (bne_iff_ne.mp masked)]

/-- A synchronous exception retires and, unless that lands on the deadline, is entered. -/
theorem ticks_finishSynchronousException (kind : ExceptionKind) (pc : VirtualAddress)
    (tickDeadline : Option Nat) :
    (backend.finishSynchronousException kind pc tickDeadline).2.machine.ticks =
      backend.machine.ticks + if tickDeadline = some (backend.machine.ticks + 1) then 1 else 2 := by
  unfold finishSynchronousException
  split
  · exact backend.machine.ticks_finishInstruction .completed
  · exact backend.machine.ticks_finishInstruction (.synchronousException kind pc)

theorem ticks_finishFault (fault : MmuFault) (tickDeadline : Option Nat) :
    (backend.finishPendingException (.fault fault) tickDeadline).2.machine.ticks =
      backend.machine.ticks + 1 :=
  backend.machine.ticks_finishInstruction (.fault fault ⟨backend.cpu.read .pc⟩)

theorem ticks_finishCallbackStop (stop : BackendStop) (tickDeadline : Option Nat) :
    (backend.finishCallbackStop stop tickDeadline).2.machine.ticks =
      backend.machine.ticks + (isFaultStop stop).toNat := by
  cases stop with
  | mmuFault fault => exact backend.ticks_finishFault fault tickDeadline
  | mmioFault address access detail => exact ticks_finishFault _ _ tickDeadline
  | _ => rfl

theorem ticks_finishCp15 (engine : Engine) (pending : PendingCp15) (tickDeadline : Option Nat)
    (defined : isUndefinedCp15 pending = false) :
    (backend.finishCp15 engine pending tickDeadline).2.machine.ticks = backend.machine.ticks := by
  cases pending with
  | operation operation =>
    unfold finishCp15
    simp only
    split <;> rfl
  | readFaultStatus | readFaultAddress => rfl
  | undefined pc => cases defined

@[simp] theorem ticks_account :
    backend.account.machine.ticks = backend.machine.ticks + backend.completedInstructions :=
  ticks_retire _ _

theorem ticks_finishRun (result : Except UcError Unit) (tickDeadline : Option Nat) :
    (backend.finishRun result tickDeadline).2.machine.ticks = backend.machine.ticks +
      if backend.deadlineReached tickDeadline then 0 else backend.deliverIrq.1.isSome.toNat := by
  unfold finishRun
  cases backend.deadlineReached tickDeadline with
  | true => rfl
  | false =>
    have cost := backend.ticks_deliverIrq
    simp only [Bool.false_eq_true, ↓reduceIte]
    split <;> exact cost

/-- A synchronous exception never passes a deadline its retirement does not pass. -/
theorem synchronous_within {deadline : Nat} (kind : ExceptionKind) (pc : VirtualAddress)
    (fits : backend.machine.ticks + 1 ≤ deadline) :
    (backend.finishSynchronousException kind pc (some deadline)).2.machine.ticks ≤ deadline := by
  rw [ticks_finishSynchronousException]
  split
  · exact fits
  · rename_i apart
    have different : deadline ≠ backend.machine.ticks + 1 := fun same => apart (congrArg some same)
    omega

/-- The exit of a batch that executed no more than the deadline allows stays inside it. -/
theorem finishBatch_within (engine : Engine) (result : Except UcError Unit) {deadline : Nat}
    (early : backend.machine.ticks < deadline)
    (room : backend.machine.ticks + backend.executedInstructions ≤ deadline) :
    (backend.finishBatch engine result (some deadline)).2.machine.ticks ≤ deadline := by
  have account := backend.ticks_account
  unfold completedInstructions at account
  unfold finishBatch
  split
  · rename_i stop stopped
    rw [ticks_finishCallbackStop]
    have faulting : isFaultStop stop = true → backend.faultingInstruction = true :=
      fun fault => by simp [faultingInstruction, stopped, fault]
    cases fault : isFaultStop stop with
    | true => simp only [faulting fault, Bool.toNat_true] at account ⊢; omega
    | false => simp only [Bool.toNat_false]; omega
  · rename_i exception _ excepted
    have faulting : backend.faultingInstruction = true := by simp [faultingInstruction, excepted]
    rw [faulting, Bool.toNat_true] at account
    cases exception with
    | synchronous kind pc => exact synchronous_within _ kind ⟨pc⟩ (by omega)
    | fault fault =>
      rw [ticks_finishFault]
      omega
  · rename_i pending _ _ trapped
    cases undefined : isUndefinedCp15 pending with
    | true =>
      have faulting : backend.faultingInstruction = true := by
        simp [faultingInstruction, trapped, undefined]
      rw [faulting, Bool.toNat_true] at account
      cases pending with
      | undefined pc => exact synchronous_within _ .undefined ⟨pc⟩ (by omega)
      | _ => cases undefined
    | false =>
      rw [ticks_finishCp15 _ engine pending _ undefined]
      omega
  · rename_i stopped excepted trapped
    have single := Bool.toNat_le backend.account.deliverIrq.1.isSome
    rw [ticks_finishRun]
    split
    · omega
    · rename_i before
      simp only [deadlineReached, Option.any_some, decide_eq_true_eq] at before
      omega

/-- A batch stays inside its deadline. -/
theorem runBatch_within {engine : Engine} (bounded : ExecutesAtMost engine) (start stop : U32)
    {budget deadline : Nat} (positive : 1 ≤ budget) (early : backend.machine.ticks < deadline) :
    (backend.runBatch engine start stop budget (some deadline)).2.machine.ticks ≤ deadline := by
  unfold runBatch
  simp only [Option.elim_some]
  split
  · exact early.le
  · have count := bounded backend.clearFlags start stop
      (min budget (deadline - backend.machine.ticks)) (by omega)
    obtain ⟨ticks, executed, _⟩ := backend.clearFlags.emulate_frame
      (engine.emuStart backend.clearFlags start stop
        (min budget (deadline - backend.machine.ticks))).1
    have zero : backend.clearFlags.executedInstructions = 0 := rfl
    have now : backend.clearFlags.machine.ticks = backend.machine.ticks := rfl
    have inside := finishBatch_within _ engine
      (engine.emuStart backend.clearFlags start stop
        (min budget (deadline - backend.machine.ticks))).2
      (by rw [ticks, now]; exact early) (by rw [ticks, executed, zero, now]; omega)
    exact inside

/-- No call passes its deadline. -/
theorem runUntilTick_within {engine : Engine} (bounded : ExecutesAtMost engine) (start stop : U32)
    {budget : Nat} (deadline : Nat) (positive : 1 ≤ budget) :
    (backend.runUntilTick engine start stop budget deadline).2.machine.ticks ≤
      max backend.machine.ticks deadline := by
  unfold runUntilTick runWithTickDeadline resumeDeferredException
  cases backend.deferredException with
  | none =>
    simp only
    split
    · exact le_max_left _ _
    · rename_i before
      simp only [deadlineReached, Option.any_some, decide_eq_true_eq, not_le] at before
      have cost := backend.ticks_deliverIrq
      simp only [Option.isSome_some, ↓reduceIte]
      split
      · rename_i delivered
        simp only [delivered, Option.isSome_some, Bool.toNat_true] at cost ⊢
        omega
      · rename_i delivered
        simp only [delivered, Option.isSome_none, Bool.toNat_false] at cost
        have inside := backend.deliverIrq.2.runBatch_within bounded start stop positive
          (cost.trans_lt before)
        exact inside.trans (le_max_right _ _)
  | some deferred =>
    obtain ⟨kind, pc⟩ := deferred
    simp only
    by_cases reached : backend.deadlineReached (some deadline) = true
    · simp only [reached, ↓reduceIte]
      exact le_max_left _ _
    · simp only [reached, Bool.false_eq_true, ↓reduceIte, machine_enterException,
        Machine.ticks_enterException]
      simp only [deadlineReached, Option.any_some, decide_eq_true_eq, not_le] at reached
      omega

/-- A call at or after its deadline does nothing at all. -/
theorem runUntilTick_late (engine : Engine) (start stop : U32) (budget : Nat) {deadline : Nat}
    (late : deadline ≤ backend.machine.ticks) :
    backend.runUntilTick engine start stop budget deadline = (.instructionBudget, backend) := by
  have reached : backend.deadlineReached (some deadline) = true := by
    simpa [deadlineReached] using late
  unfold runUntilTick runWithTickDeadline resumeDeferredException
  cases backend.deferredException with
  | none => simp only [reached, ↓reduceIte]
  | some deferred => simp only [reached, ↓reduceIte]

/-! ### Exceptions that retire on the deadline -/

/-- The SVC or undefined exception that stopped a batch. -/
def trapped (backend : UnicornBackend) : Option (ExceptionKind × VirtualAddress) :=
  match backend.callbackStop, backend.pendingException, backend.pendingCp15 with
  | none, some (.synchronous kind pc), _ => some (kind, ⟨pc⟩)
  | none, none, some (.undefined pc) => some (.undefined, ⟨pc⟩)
  | _, _, _ => none

/-- A call whose batch runs, and stops in the state `batch` at a synchronous exception. -/
structure TrapsIn (engine : Engine) (backend : UnicornBackend) (start stop : U32)
    (budget deadline : Nat) (batch : UnicornBackend) (kind : ExceptionKind)
    (pc : VirtualAddress) : Prop where
  fresh : backend.deferredException = none
  early : backend.machine.ticks < deadline
  noIrq : backend.deliverIrq.1 = none
  exits : engine.setExits backend.deliverIrq.2 (exitsOf stop) = .ok ()
  ran : batch = backend.deliverIrq.2.clearFlags.emulate
    (engine.emuStart backend.deliverIrq.2.clearFlags start stop
      (min budget (deadline - backend.machine.ticks))).1
  trapped : batch.trapped = some (kind, pc)

theorem finishSynchronousException_defers (kind : ExceptionKind) (pc : VirtualAddress)
    {deadline : Nat} (lands : backend.machine.ticks + 1 = deadline) :
    ∃ waiting, backend.finishSynchronousException kind pc (some deadline) =
        (.instructionBudget, waiting) ∧ waiting.deferredException = some (kind, pc) ∧
      waiting.machine.ticks = deadline ∧ waiting.cpu = backend.cpu := by
  refine ⟨{ (backend.finishInstruction .completed).2 with deferredException := some (kind, pc) },
    ?_, rfl, ?_, rfl⟩
  · rw [finishSynchronousException, if_pos (congrArg some lands.symm)]
  · exact (backend.machine.ticks_finishInstruction .completed).trans lands

theorem finishBatch_defers (engine : Engine) (result : Except UcError Unit) {kind : ExceptionKind}
    {pc : VirtualAddress} {deadline : Nat} (stopped : backend.trapped = some (kind, pc))
    (lands : backend.account.machine.ticks + 1 = deadline) :
    ∃ waiting, backend.finishBatch engine result (some deadline) = (.instructionBudget, waiting) ∧
      waiting.deferredException = some (kind, pc) ∧ waiting.machine.ticks = deadline ∧
      waiting.cpu = backend.cpu := by
  obtain ⟨waiting, finished, deferred⟩ :=
    backend.account.finishSynchronousException_defers kind pc lands
  refine ⟨waiting, ?_, deferred⟩
  rw [← finished]
  unfold trapped at stopped
  unfold finishBatch
  split at stopped
  · rename_i excepted stop
    cases stopped
    simp only [excepted, stop, finishPendingException]
  · rename_i pending stop excepted
    cases stopped
    simp only [excepted, stop, pending, finishCp15]
  · cases stopped

/-- An exception whose retirement lands on the deadline is deferred, not entered or lost. -/
theorem runUntilTick_defers {engine : Engine} {start stop : U32} {budget deadline : Nat}
    {batch : UnicornBackend} {kind : ExceptionKind} {pc : VirtualAddress}
    (traps : TrapsIn engine backend start stop budget deadline batch kind pc)
    (lands : batch.account.machine.ticks + 1 = deadline) :
    ∃ waiting, backend.runUntilTick engine start stop budget deadline =
        (.instructionBudget, waiting) ∧ waiting.deferredException = some (kind, pc) ∧
      waiting.machine.ticks = deadline ∧ waiting.cpu = batch.cpu := by
  have before : backend.deadlineReached (some deadline) = false := by
    simpa [deadlineReached] using traps.early
  have cost := backend.ticks_deliverIrq
  rw [traps.noIrq] at cost
  obtain ⟨waiting, finished, deferred⟩ := batch.finishBatch_defers engine
    (engine.emuStart backend.deliverIrq.2.clearFlags start stop
      (min budget (deadline - backend.machine.ticks))).2 traps.trapped lands
  refine ⟨waiting, ?_, deferred⟩
  rw [← finished, traps.ran]
  simp only [runUntilTick, runWithTickDeadline, resumeDeferredException, traps.fresh, before,
    Bool.false_eq_true, ↓reduceIte, Option.isSome_some, traps.noIrq, runBatch, Option.elim_some,
    traps.exits, cost, Option.isSome_none, Bool.toNat_false, Nat.add_zero]

/-- One call of either entry point. -/
structure RunCall where
  start : U32
  stop : U32
  budget : Nat
  tickDeadline : Option Nat

def call (engine : Engine) (backend : UnicornBackend) (call : RunCall) :
    BackendStop × UnicornBackend :=
  backend.runWithTickDeadline engine call.start call.stop call.budget call.tickDeadline

/-- A call that may not enter a deferred exception changes nothing. -/
theorem call_waits (engine : Engine) {kind : ExceptionKind} {pc : VirtualAddress}
    (deferred : backend.deferredException = some (kind, pc)) (next : RunCall)
    (reached : backend.deadlineReached next.tickDeadline = true) :
    backend.call engine next = (.instructionBudget, backend) := by
  simp only [call, runWithTickDeadline, resumeDeferredException, deferred, reached, ↓reduceIte]

/-- The first call that may enter a deferred exception does nothing else. -/
theorem call_enters (engine : Engine) {kind : ExceptionKind} {pc : VirtualAddress}
    (deferred : backend.deferredException = some (kind, pc)) (next : RunCall)
    (permits : backend.deadlineReached next.tickDeadline = false) :
    backend.call engine next = (.exception kind,
      { backend with
        deferredException := none
        machine := (backend.machine.enterException kind pc).2
        }.enterException (.synchronous kind pc)) := by
  simp only [call, runWithTickDeadline, resumeDeferredException, deferred, permits,
    Bool.false_eq_true, ↓reduceIte]
  rfl

theorem calls_wait (engine : Engine) {kind : ExceptionKind} {pc : VirtualAddress}
    (deferred : backend.deferredException = some (kind, pc)) (calls : List RunCall)
    (reached : ∀ next ∈ calls, backend.deadlineReached next.tickDeadline = true) :
    calls.foldl (fun backend next => (backend.call engine next).2) backend = backend := by
  induction calls with
  | nil => rfl
  | cons next calls ih =>
    rw [List.foldl_cons, backend.call_waits engine deferred next (reached next (by simp))]
    exact ih fun other member => reached other (by simp [member])

/-- Exact tick boundaries: no call passes its deadline, a call at its deadline does
nothing, an exception that retires on the deadline is deferred, and a deferred
exception is the first and only thing the first permitting call does. -/
theorem exact_tick_boundaries (engine : Engine) (bounded : ExecutesAtMost engine)
    (backend : UnicornBackend) :
    (∀ start stop budget deadline, 1 ≤ budget →
      (backend.runUntilTick engine start stop budget deadline).2.machine.ticks ≤
        max backend.machine.ticks deadline) ∧
    (∀ start stop budget deadline, deadline ≤ backend.machine.ticks →
      backend.runUntilTick engine start stop budget deadline = (.instructionBudget, backend)) ∧
    (∀ start stop budget deadline batch kind pc,
      TrapsIn engine backend start stop budget deadline batch kind pc →
      batch.account.machine.ticks + 1 = deadline →
      ∃ waiting, backend.runUntilTick engine start stop budget deadline =
          (.instructionBudget, waiting) ∧ waiting.deferredException = some (kind, pc) ∧
        waiting.machine.ticks = deadline ∧ waiting.cpu = batch.cpu) ∧
    ∀ kind pc, backend.deferredException = some (kind, pc) →
      ∀ (calls : List RunCall) (last : RunCall),
        (∀ next ∈ calls, backend.deadlineReached next.tickDeadline = true) →
        backend.deadlineReached last.tickDeadline = false →
        ∃ waiting entered,
          calls.foldl (fun backend next => (backend.call engine next).2) backend = waiting ∧
          waiting = backend ∧ waiting.call engine last = (.exception kind, entered) ∧
          entered = { backend with
            deferredException := none
            machine := (backend.machine.enterException kind pc).2
            }.enterException (.synchronous kind pc) ∧
          entered.deferredException = none ∧
          entered.machine.ticks = backend.machine.ticks + 1 := by
  refine ⟨fun start stop budget deadline positive =>
      backend.runUntilTick_within bounded start stop deadline positive,
    fun start stop budget deadline late => backend.runUntilTick_late engine start stop budget late,
    fun start stop budget deadline batch kind pc traps lands =>
      backend.runUntilTick_defers traps lands,
    fun kind pc deferred calls last reached permits => ?_⟩
  exact ⟨backend, _, backend.calls_wait engine deferred calls reached, rfl,
    backend.call_enters engine deferred last permits, rfl, rfl,
    backend.machine.ticks_enterException kind pc⟩

/-- An engine whose every batch is one `svc #0` at address 0. -/
def svcEngine : Engine where
  setExits _ _ := .ok ()
  flushTlb _ := .ok ()
  emuStart _ _ _ _ := ([.code 0 4 (some 0xef00_0000)], .ok ())

/-- A machine whose boot ROM starts with the `svc #0`. -/
def svcMachine : Machine := .new (.programmed [0xef00_0000]) 4096

theorem exact_tick_boundaries_svc :
    svcMachine.memory.readU32 ⟨0⟩ = .ok 0xef00_0000#32 ∧
      ∃ waiting, (UnicornBackend.new svcMachine).runUntilTick svcEngine 0 4 1 1 =
          (.instructionBudget, waiting) ∧
        waiting.deferredException = some (.supervisorCall, ⟨0⟩) ∧ waiting.machine.ticks = 1 ∧
        waiting.cpu.pc = 4 := by
  have bounded : ExecutesAtMost svcEngine := fun _ _ _ count positive => positive
  obtain ⟨waiting, ran, deferred, ticks, cpu⟩ :=
    (exact_tick_boundaries svcEngine bounded (.new svcMachine)).2.2.1 0 4 1 1 _ .supervisorCall ⟨0⟩
      ⟨rfl, by decide, rfl, rfl, rfl, rfl⟩ rfl
  exact ⟨rfl, waiting, ran, deferred, ticks, by rw [cpu]; rfl⟩

end UnicornBackend

end Minemu.Unicorn
