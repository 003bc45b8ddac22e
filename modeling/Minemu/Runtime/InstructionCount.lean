import Minemu.Runtime.BoundedResume
import Minemu.Runtime.ScheduledInput

/-! The counts that `emu_start` is given. Unicorn takes 0 for no limit; does the service ever pass
it? -/

namespace Minemu.Unicorn

open Platform

/-- The engine with another `emu_start` for count 0. -/
def Engine.unlimited (engine : Engine)
    (endless : UnicornBackend → U32 → U32 → List EngineEvent × Except UcError Unit) : Engine :=
  { engine with
    emuStart := fun backend start stop count =>
      if count = 0 then endless backend start stop else engine.emuStart backend start stop count }

namespace UnicornBackend

/-- The count that a call passes to `emu_start`, when it gets that far. -/
def startCount (engine : Engine) (backend : UnicornBackend) (call : RunCall) : Option Nat :=
  match backend.resumeDeferredException call.tickDeadline with
  | (some _, _) => none
  | (none, backend) =>
    if backend.deadlineReached call.tickDeadline then none
    else
      let (delivered, backend) :=
        if call.tickDeadline.isSome then backend.deliverIrq else (none, backend)
      match delivered, engine.setExits backend (exitsOf call.stop) with
      | some _, _ | none, .error _ => none
      | none, .ok () =>
        some (call.tickDeadline.elim call.budget fun deadline =>
          min call.budget (deadline - backend.machine.ticks))

/-- The same engine but for `emu_start`. -/
structure SameCalls (engine other : Engine) : Prop where
  setExits : engine.setExits = other.setExits
  flushTlb : engine.flushTlb = other.flushTlb

variable {engine other : Engine} {backend : UnicornBackend} {call : RunCall}

theorem finishBatch_congr (same : SameCalls engine other) (backend : UnicornBackend)
    (result : Except UcError Unit) (tickDeadline : Option Nat) :
    backend.finishBatch engine result tickDeadline =
      backend.finishBatch other result tickDeadline := by
  have finished (backend : UnicornBackend) (pending : PendingCp15) :
      backend.finishCp15 engine pending tickDeadline =
        backend.finishCp15 other pending tickDeadline := by
    unfold finishCp15
    rw [same.flushTlb]
  unfold finishBatch
  simp only [finished]

/-- A call is what it is over any engine that starts alike on that count. -/
theorem call_congr (same : SameCalls engine other)
    (agree : ∀ count, backend.startCount engine call = some count → ∀ first start stop,
      engine.emuStart first start stop count = other.emuStart first start stop count) :
    backend.call engine call = backend.call other call := by
  unfold UnicornBackend.call runWithTickDeadline
  unfold startCount at agree
  generalize backend.resumeDeferredException call.tickDeadline = resumed at agree ⊢
  obtain ⟨_ | stop, before⟩ := resumed
  · dsimp only at agree ⊢
    split
    · rfl
    · rename_i early
      rw [if_neg early] at agree
      generalize (if call.tickDeadline.isSome = true then before.deliverIrq
        else (none, before)) = starting at agree ⊢
      obtain ⟨_ | irq, start⟩ := starting
      · dsimp only [runBatch] at agree ⊢
        rw [← same.setExits]
        cases exits : engine.setExits start (exitsOf call.stop) with
        | error error => rfl
        | ok done =>
          rw [exits] at agree
          dsimp only at agree ⊢
          have alike := agree _ rfl start.clearFlags call.start call.stop
          exact (congrArg (fun outcome => (start.clearFlags.emulate outcome.1).finishBatch engine
            outcome.2 call.tickDeadline) alike).trans (finishBatch_congr same _ _ _)
      · rfl
  · rfl

/-- A call with a budget passes a count of at least one. -/
theorem startCount_pos (budget : 1 ≤ call.budget) {count : Nat}
    (started : backend.startCount engine call = some count) : 1 ≤ count := by
  unfold startCount at started
  generalize backend.resumeDeferredException call.tickDeadline = resumed at started
  obtain ⟨_ | stop, before⟩ := resumed
  · dsimp only at started
    split at started
    · cases started
    · rename_i early
      have ticks := before.starting_ticks call.tickDeadline
      generalize (if call.tickDeadline.isSome = true then before.deliverIrq
        else (none, before)) = starting at started ticks
      obtain ⟨_ | irq, start⟩ := starting
      · have unmoved : start.machine.ticks = before.machine.ticks := ticks rfl
        dsimp only at started
        cases exits : engine.setExits start (exitsOf call.stop) with
        | error error =>
          rw [exits] at started
          cases started
        | ok done =>
          rw [exits] at started
          cases started
          cases bound : call.tickDeadline with
          | none => exact budget
          | some deadline =>
            rw [bound, deadlineReached, Option.any_some, decide_eq_true_iff, ← unmoved] at early
            rw [Option.elim_some]
            exact Nat.le_min.mpr ⟨budget, Nat.sub_pos_of_lt (Nat.not_le.mp early)⟩
      · cases started
  · cases started

/-- What `emu_start` does without a limit is nothing to a call with a budget. -/
theorem call_unlimited (budget : 1 ≤ call.budget)
    (endless : UnicornBackend → U32 → U32 → List EngineEvent × Except UcError Unit) :
    backend.call engine call = backend.call (engine.unlimited endless) call := by
  have same : SameCalls engine (engine.unlimited endless) := ⟨rfl, rfl⟩
  apply call_congr same
  intro count started first start stop
  exact (if_neg (Nat.one_le_iff_ne_zero.mp (startCount_pos budget started))).symm

end UnicornBackend

end Minemu.Unicorn

namespace Minemu.Runtime

open Library Platform Minemu.Core Minemu.Unicorn

/-- What the loop takes, with an engine behind each turn. -/
inductive EngineStep where
  | command (command : Command) (host : HostOutcomes)
  | disconnected (host : HostOutcomes)
  | turn (turn : Turn)

/-- The same step over an engine that does something else without a limit. -/
def EngineStep.unlimited (endless : UnicornBackend → U32 → U32 →
    List EngineEvent × Except UcError Unit) : EngineStep → EngineStep
  | .command issued host => .command issued host
  | .disconnected host => .disconnected host
  | .turn next => .turn { next with engine := next.engine.unlimited endless }

def EngineStep.step : EngineStep → Service.Step
  | command issued host => .command issued host
  | disconnected host => .disconnected host
  | turn next =>
    .turn next.inbox (Service.adapterRunner next.engine) next.publishDue next.host

namespace Service

variable {service : Service}

/-- The counts that a step passes to `emu_start`: only a turn of a running service that is not at
its deadline runs a batch. -/
def startCounts (service : Service) : EngineStep → List Nat
  | .command _ _ | .disconnected _ => []
  | .turn next =>
    if service.live = true ∧ service.lifecycle = .running ∧ service.deadlineReached = false then
      let ready := service.ready next.inbox
      (ready.emulator.backend.startCount next.engine
        (ready.nextCall service.emulator.backend.machine.ticks)).toList
    else []

/-- All counts of a run, in order. -/
def runCounts : Service → List EngineStep → List Nat
  | _, [] => []
  | service, next :: steps =>
    service.startCounts next ++ runCounts (service.step next.step) steps

/-- A batch is not empty, and a service that is live has instructions left. -/
structure Stocked (service : Service) : Prop where
  batch : 1 ≤ service.emulator.instructionBatch
  left : service.live = true → service.remainingInstructions ≠ some 0

theorem batch_of_timing {after : Service} (same : after.timing = service.timing) :
    after.emulator.instructionBatch = service.emulator.instructionBatch :=
  congrArg Timing.instructionBatch same

theorem stocked_pauseWith (batch : 1 ≤ service.emulator.instructionBatch)
    (left : service.remainingInstructions ≠ some 0) (lastStop : Option StopText)
    (host : HostOutcomes) : Stocked (service.pauseWith lastStop host) := by
  constructor
  · rw [batch_of_timing (service.timing_pauseWith lastStop host)]
    exact batch
  · intro _
    rw [(service.pauseWith_shows lastStop host).2.1]
    exact left

theorem Stocked.ended {after : Service} (stocked : Stocked service)
    (batch : after.emulator.instructionBatch = service.emulator.instructionBatch)
    (ended : after.live = false) : Stocked after := by
  constructor
  · rw [batch]
    exact stocked.batch
  · intro live
    rw [ended] at live
    cases live

theorem Stocked.same {after : Service} (stocked : Stocked service)
    (batch : after.emulator.instructionBatch = service.emulator.instructionBatch)
    (live : after.live = service.live)
    (left : after.remainingInstructions = service.remainingInstructions) : Stocked after := by
  constructor
  · rw [batch]
    exact stocked.batch
  · rw [live, left]
    exact stocked.left

/-- A reset replaces the backend and keeps the batch size. -/
theorem Stocked.resetEmulator (stocked : Stocked service) (host : HostOutcomes) :
    Stocked (service.resetEmulator host).2 := by
  have flushed : Stocked (service.flush host).2 := by
    have same := (service.flushes_flush host).same
    apply stocked.same (batch_of_timing (service.timing_flush host))
    · rw [same]
    · rw [same]
  unfold Service.resetEmulator
  generalize service.flush host = flush at flushed ⊢
  obtain ⟨_ | error, after⟩ := flush
  · dsimp only
    split
    · exact flushed
    · split
      · exact flushed.same rfl rfl rfl
      · exact flushed.same rfl rfl rfl
  · exact flushed

theorem Stocked.processCommand (stocked : Stocked service) (command : Command)
    (host : HostOutcomes) : Stocked (service.processCommand command host) := by
  cases command with
  | pause =>
    rcases service.processCommand_pause host with same | paused
    · rw [same]
      exact stocked
    · rw [paused]
      apply stocked_pauseWith
      · exact stocked.batch
      · intro limited
        cases limited
  | resume limit =>
    rcases service.processCommand_resume limit host with
      same | ⟨emulator, pace, resumed⟩ | ⟨error, failed⟩
    · rw [same]
      exact stocked
    · rw [resumed]
      constructor
      · have sized : emulator.instructionBatch = service.emulator.instructionBatch :=
          congrArg Prod.snd pace
        exact sized ▸ stocked.batch
      · intro _
        change limit.map PNat.val ≠ some 0
        cases limit with
        | none =>
          intro limited
          cases limited
        | some count =>
          intro limited
          exact count.ne_zero (Option.some.inj limited)
    · rw [failed]
      exact stocked.ended rfl rfl
  | reset =>
    have replaced := stocked.resetEmulator host
    cases lifecycle : service.lifecycle with
    | running | paused =>
      simp only [Service.processCommand, lifecycle]
      generalize service.resetEmulator host = reset at replaced ⊢
      obtain ⟨_ | error, after⟩ := reset
      · exact replaced.same rfl rfl rfl
      · exact replaced.same rfl rfl rfl
    | starting | stopping | stopped | failed =>
      simp only [Service.processCommand, lifecycle]
      exact stocked
  | shutdown => exact stocked.ended (batch_of_timing (service.timing_stop host)) rfl
  | inspect request =>
    have sized : (service.processCommand (.inspect request) host).emulator.instructionBatch =
        service.emulator.instructionBatch :=
      congrArg Prod.snd (service.emulator.pace_inspect request host.inspector)
    exact stocked.same sized rfl rfl

theorem stocked_afterBatch (batch : 1 ≤ service.emulator.instructionBatch) {limitReached : Bool}
    (left : limitReached = false → service.remainingInstructions ≠ some 0)
    (result : Except RuntimeError BackendStop) (publishDue : Bool) (host : HostOutcomes) :
    Stocked (service.afterBatch result limitReached publishDue host) := by
  have flushed := batch_of_timing (service.timing_flush host)
  have failing (lastStop : Option StopText) (error : ErrorText) :
      Stocked ((service.flush host).2.fail lastStop error) := by
    constructor
    · exact flushed ▸ batch
    · intro live
      cases live
  have pausing (lastStop : Option StopText) (pendingBreakpoint : Option U32) :
      Stocked ({ service with
        remainingInstructions := none
        pendingBreakpoint }.pauseWith lastStop host) := by
    apply stocked_pauseWith
    · exact batch
    · intro limited
      cases limited
  have going (stop : BackendStop) : Stocked (if limitReached then
      { service with remainingInstructions := none }.pauseWith
        (some (.instructionLimitReached stop)) host
      else if publishDue then service.publish service.lifecycle (some (.stop stop)) none
      else service) := by
    cases limitReached with
    | true => exact pausing _ service.pendingBreakpoint
    | false =>
      cases publishDue with
      | true => exact ⟨batch, fun _ => left rfl⟩
      | false => exact ⟨batch, fun _ => left rfl⟩
  cases result with
  | error error => exact failing _ _
  | ok stop =>
    cases stop with
    | unicorn error => exact failing _ _
    | breakpoint address immediate => exact pausing _ _
    | instructionBudget | mmioFault | mmuFault | cp15Boundary | exception => exact going _

theorem stocked_ready (stocked : Stocked service) (live : service.live = true)
    (inbox : UartPort → List U8) :
    1 ≤ (service.ready inbox).emulator.instructionBatch ∧
      (service.ready inbox).remainingInstructions ≠ some 0 := by
  have sized : (service.ready inbox).emulator.instructionBatch =
      service.emulator.instructionBatch := congrArg Prod.snd (service.pace_ready inbox)
  exact ⟨sized ▸ stocked.batch, stocked.left live⟩

theorem Stocked.turn (stocked : Stocked service) (live : service.live = true)
    (inbox : UartPort → List U8) (runner : Runner) (publishDue : Bool) (host : HostOutcomes) :
    Stocked (service.turn inbox runner publishDue host) := by
  obtain ⟨batch, left⟩ := stocked_ready stocked live inbox
  rw [turn_eq]
  split
  · apply stocked_pauseWith
    · have sized : (service.deliverScheduled
          service.emulator.backend.machine.ticks).emulator.instructionBatch =
          service.emulator.instructionBatch :=
        congrArg Prod.snd (service.pace_deliverScheduled _)
      exact sized ▸ stocked.batch
    · exact left
  · apply stocked_afterBatch
    · exact batch
    · intro open'
      exact of_decide_eq_false open'

/-- Every step keeps a service stocked, whatever its batches do. -/
theorem Stocked.step (stocked : Stocked service) (next : Step) : Stocked (service.step next) := by
  unfold Service.step
  split
  · exact stocked
  · rename_i running
    have live : service.live = true := by simpa using running
    cases next with
    | command command host => exact stocked.processCommand command host
    | disconnected host => exact stocked.ended (batch_of_timing (service.timing_stop host)) rfl
    | turn inbox runner publishDue host =>
      dsimp only
      split
      · exact stocked.turn live inbox runner publishDue host
      · exact stocked

/-- A step of a stocked service passes counts of at least one. -/
theorem Stocked.startCounts_pos (stocked : Stocked service) (next : EngineStep) :
    ∀ count ∈ service.startCounts next, 1 ≤ count := by
  cases next with
  | command | disconnected =>
    intro count member
    cases member
  | turn next =>
    rw [startCounts]
    split
    · rename_i runs
      obtain ⟨batch, left⟩ := stocked_ready stocked runs.1 next.inbox
      intro count member
      apply UnicornBackend.startCount_pos _ (Option.mem_toList.mp member)
      exact instructionBudget_pos batch left fun boundary ahead => tickBoundary_ahead ahead
    · intro count member
      cases member

theorem Stocked.runCounts_pos (stocked : Stocked service) (steps : List EngineStep) :
    ∀ count ∈ service.runCounts steps, 1 ≤ count := by
  induction steps generalizing service with
  | nil =>
    intro count member
    cases member
  | cons next steps ih =>
    intro count member
    rw [runCounts, List.mem_append] at member
    rcases member with now | later
    · exact stocked.startCounts_pos next count now
    · exact ih (stocked.step next.step) count later

theorem runBatch_congr {runner other : Runner} {currentTick : Nat}
    (same : runner service.emulator.backend (service.emulator.backend.cpu.read .pc)
        service.emulator.stop (service.instructionBudget currentTick)
        (service.tickBoundary currentTick) =
      other service.emulator.backend (service.emulator.backend.cpu.read .pc)
        service.emulator.stop (service.instructionBudget currentTick)
        (service.tickBoundary currentTick)) :
    service.runBatch runner currentTick = service.runBatch other currentTick := by
  unfold runBatch
  dsimp only
  rw [same]

theorem adapterRunner_congr {engine other : Engine} {backend : UnicornBackend}
    {call : UnicornBackend.RunCall} (same : backend.call engine call = backend.call other call) :
    adapterRunner engine backend call.start call.stop call.budget call.tickDeadline =
      adapterRunner other backend call.start call.stop call.budget call.tickDeadline := by
  unfold UnicornBackend.call at same
  unfold adapterRunner
  rw [same]

/-- What `emu_start` does without a limit is nothing to a step of a stocked service. -/
theorem Stocked.step_unlimited (stocked : Stocked service) (next : EngineStep)
    (endless : UnicornBackend → U32 → U32 → List EngineEvent × Except UcError Unit) :
    service.step next.step = service.step (next.unlimited endless).step := by
  cases next with
  | command | disconnected => rfl
  | turn next =>
    cases live : service.live with
    | false =>
      have stays (step : Step) : service.step step = service := by
        unfold Service.step
        rw [live]
        rfl
      rw [stays, stays]
    | true =>
      obtain ⟨batch, left⟩ := stocked_ready stocked live next.inbox
      have budget : 1 ≤ (service.ready next.inbox).instructionBudget
          service.emulator.backend.machine.ticks :=
        instructionBudget_pos batch left fun boundary ahead => tickBoundary_ahead ahead
      have same : (service.ready next.inbox).runBatch (adapterRunner next.engine)
            service.emulator.backend.machine.ticks =
          (service.ready next.inbox).runBatch (adapterRunner (next.engine.unlimited endless))
            service.emulator.backend.machine.ticks := by
        have alike : (service.ready next.inbox).emulator.backend.call next.engine
              ((service.ready next.inbox).nextCall service.emulator.backend.machine.ticks) = _ :=
          UnicornBackend.call_unlimited budget endless
        apply runBatch_congr
        exact adapterRunner_congr alike
      unfold Service.step EngineStep.unlimited EngineStep.step
      simp only [turn_eq, same]

theorem run_unlimited (stocked : Stocked service) (steps : List EngineStep)
    (endless : UnicornBackend → U32 → U32 → List EngineEvent × Except UcError Unit) :
    run step service (steps.map EngineStep.step) =
      run step service ((steps.map (EngineStep.unlimited endless)).map EngineStep.step) := by
  induction steps generalizing service with
  | nil => rfl
  | cons next steps ih =>
    rw [List.map_cons, List.map_cons, List.map_cons, run_cons, run_cons,
      ← stocked.step_unlimited next endless]
    exact ih (stocked.step next.step)

theorem stocked_start {config : RuntimeConfig} {host : HostOutcomes}
    (started : Service.start config host = .ok service) : Stocked service := by
  obtain ⟨onTime, _⟩ := onTime_start started
  exact ⟨onTime.exact.batch, onTime.limited⟩

/-- In every run of a service that has started, every call to `emu_start` is for at least one
instruction; and what `emu_start` does without a limit changes no run. -/
theorem emuStart_count_pos (config : RuntimeConfig) (host : HostOutcomes) (service : Service)
    (started : Service.start config host = .ok service) (steps : List EngineStep) :
    (∀ count ∈ service.runCounts steps, 1 ≤ count) ∧
      ∀ endless, run step service (steps.map EngineStep.step) =
        run step service ((steps.map (EngineStep.unlimited endless)).map EngineStep.step) := by
  have stocked := stocked_start started
  constructor
  · exact stocked.runCounts_pos steps
  · intro endless
    exact run_unlimited stocked steps endless

def freeConfig : RuntimeConfig := { Counted.spinConfig with startPaused := false }

/-- Turns of a service without a limit start batches of one instruction each. -/
theorem emuStart_count_pos_spin : ∃ service,
    Service.start freeConfig System.quietHost = .ok service ∧
    service.runCounts [.turn (Counted.turnOver Counted.spinEngine),
      .turn (Counted.turnOver Counted.spinEngine)] = [1, 1] ∧
    ∀ count ∈ service.runCounts [.turn (Counted.turnOver Counted.spinEngine),
      .turn (Counted.turnOver Counted.spinEngine)], 1 ≤ count := by
  refine ⟨_, rfl, ?_, ?_⟩
  · decide +kernel
  · exact (emuStart_count_pos freeConfig System.quietHost _ rfl _).1

end Service

end Minemu.Runtime
