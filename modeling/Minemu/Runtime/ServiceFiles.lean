import Minemu.Runtime.BoundedResume
import Minemu.Runtime.Reset

/-! The service over the files of the host: what each step of the loop does with its emulator, and
what the files hold of the media in every state that a run comes to. -/

namespace Minemu.Runtime

open Library Platform Minemu.Core Minemu.Unicorn

/-- What the loop takes from its environment, with the calls on the files of the host. -/
inductive FiledStep where
  | command (command : Command) (host : HostCalls) (inspector : Inspector)
  | disconnected (host : HostCalls)
  | turn (inbox : UartPort → List U8) (engine : Engine) (publishDue : Bool) (host : HostCalls)

/-- The step of the service, where its reads find the given files. -/
def FiledStep.over (blockMediaPaths : Fin 2 → Option String) (files : HostFiles) :
    FiledStep → Service.Step
  | .command issued host inspector =>
    .command issued { host.outcomes blockMediaPaths files with inspector }
  | .disconnected host => .disconnected (host.outcomes blockMediaPaths files)
  | .turn inbox engine publishDue host =>
    .turn inbox (Service.adapterRunner engine) publishDue (host.outcomes blockMediaPaths files)

namespace Service

variable {service : Service} {files : HostFiles} {host : HostCalls} {outcomes : HostOutcomes}

/-- What a command does with the emulator. -/
def commandSteps (service : Service) (command : Command) (host : HostCalls)
    (inspector : Inspector) : List EmulatorStep :=
  match command, service.lifecycle with
  | .pause, .running => [.flush host.write, .status]
  | .resume _, .paused =>
    (service.pendingBreakpoint.map (EmulatorStep.resumeFromBreakpoint · host)).toList ++ [.status]
  | .reset, .running | .reset, .paused => [.reset host, .status]
  | .shutdown, _ => [.status, .flush host.write, .status]
  | .inspect request, _ => [.inspect request inspector]
  | _, _ => []

/-- What follows a batch. -/
def afterBatchSteps (result : Except RuntimeError BackendStop) (limitReached publishDue : Bool)
    (host : HostCalls) : List EmulatorStep :=
  match result with
  | .ok (.unicorn _) | .ok (.breakpoint _ _) | .error _ => [.flush host.write, .status]
  | .ok _ =>
    if limitReached then [.flush host.write, .status] else if publishDue then [.status] else []

def turnSteps (service : Service) (inbox : UartPort → List U8) (engine : Engine)
    (publishDue : Bool) (host : HostCalls) : List EmulatorStep :=
  let currentTick := service.emulator.backend.machine.ticks
  (due ScheduledUartInput.atTick currentTick service.scheduledUart).map
      (fun input => .deliverUart input.port input.bytes) ++
    if service.deadlineReached then [.flush host.write, .status]
    else
      let ready := service.ready inbox
      let (result, limitReached, _) := ready.runBatch (adapterRunner engine) currentTick
      .drainUart inbox ::
        .runBatch engine (ready.instructionBudget currentTick) (ready.tickBoundary currentTick) ::
          afterBatchSteps result limitReached publishDue host

/-- What a step of the loop does with the emulator. -/
def emulatorSteps (service : Service) (next : FiledStep) : List EmulatorStep :=
  if !service.live then []
  else match next with
    | .command command host inspector => service.commandSteps command host inspector
    | .disconnected host => [.status, .flush host.write, .status]
    | .turn inbox engine publishDue host =>
      if service.lifecycle = .running then service.turnSteps inbox engine publishDue host else []

end Service

/-- The service and the files of the host. -/
structure FiledService where
  service : Service
  files : HostFiles

namespace FiledService

def hosted (filed : FiledService) : Hosted := ⟨filed.service.emulator, filed.files⟩

/-- A step changes the files as what it does with the emulator does. -/
def step (filed : FiledService) (next : FiledStep) : FiledService :=
  let files := (run Hosted.step filed.hosted (filed.service.emulatorSteps next)).files
  ⟨filed.service.step (next.over filed.service.emulator.blockMediaPaths files), files⟩

end FiledService

namespace Service

variable {service : Service} {files : HostFiles} {host : HostCalls} {outcomes : HostOutcomes}

/-! ### The steps of a service are steps of its emulator -/

/-- Flushing and publishing. -/
theorem emulator_settle (service : Service) (files : HostFiles)
    (same : ∀ unit, outcomes.write unit = (host.write unit).result) :
    (run Hosted.step ⟨service.emulator, files⟩ [.flush host.write, .status]).emulator =
      (service.flush outcomes).2.emulator.status.2 := by
  have flushed := (service.flush_flush files same).2
  rw [flushed]
  rfl

theorem emulator_stop (service : Service) (files : HostFiles)
    (same : ∀ unit, outcomes.write unit = (host.write unit).result) :
    (run Hosted.step ⟨service.emulator, files⟩ [.status, .flush host.write, .status]).emulator =
      (service.stop outcomes).emulator := by
  have settled := (service.publish .stopping none none).emulator_settle files same
  rw [run_cons]
  refine settled.trans ?_
  unfold stop
  simp only
  split <;> rfl

theorem emulator_afterBatch (service : Service) (files : HostFiles)
    (same : ∀ unit, outcomes.write unit = (host.write unit).result)
    (result : Except RuntimeError BackendStop) (limitReached publishDue : Bool) :
    (run Hosted.step ⟨service.emulator, files⟩
        (afterBatchSteps result limitReached publishDue host)).emulator =
      (service.afterBatch result limitReached publishDue outcomes).emulator := by
  have going (stop : BackendStop) : (run Hosted.step ⟨service.emulator, files⟩
      (if limitReached then [.flush host.write, .status]
        else if publishDue then [.status] else [])).emulator =
      (if limitReached then
          { service with remainingInstructions := none }.pauseWith
            (some (.instructionLimitReached stop)) outcomes
        else if publishDue then service.publish service.lifecycle (some (.stop stop)) none
        else service).emulator := by
    cases limitReached with
    | true =>
      exact { service with
        remainingInstructions := none
        lifecycle := .paused }.emulator_settle files same
    | false =>
      cases publishDue with
      | true => rfl
      | false => rfl
  cases result with
  | error error => exact service.emulator_settle files same
  | ok stop =>
    cases stop with
    | unicorn error => exact service.emulator_settle files same
    | breakpoint address immediate =>
      exact { service with
        remainingInstructions := none
        pendingBreakpoint := some address
        lifecycle := .paused }.emulator_settle files same
    | instructionBudget | mmioFault | mmuFault | cp15Boundary | exception => exact going _

theorem emulator_turn (service : Service) (files : HostFiles)
    (same : ∀ unit, outcomes.write unit = (host.write unit).result) (inbox : UartPort → List U8)
    (engine : Engine) (publishDue : Bool) :
    (run Hosted.step ⟨service.emulator, files⟩
        (service.turnSteps inbox engine publishDue host)).emulator =
      (service.turn inbox (adapterRunner engine) publishDue outcomes).emulator := by
  have delivered (inputs : List ScheduledUartInput) (emulator : Emulator) :
      run Hosted.step ⟨emulator, files⟩
          (inputs.map fun input => .deliverUart input.port input.bytes) =
        ⟨inputs.foldl (fun emulator input => emulator.deliverUart input.port input.bytes) emulator,
          files⟩ := by
    induction inputs generalizing emulator with
    | nil => rfl
    | cons input inputs ih => exact ih (emulator.deliverUart input.port input.bytes)
  unfold turnSteps
  rw [run_append, delivered, turn_eq]
  split
  · exact { service.deliverScheduled service.emulator.backend.machine.ticks with
      lifecycle := .paused }.emulator_settle files same
  · exact emulator_afterBatch
      ((service.ready inbox).runBatch (adapterRunner engine)
        service.emulator.backend.machine.ticks).2.2 files same _ _ publishDue

theorem emulator_resume (service : Service) (blockMediaPaths : Fin 2 → Option String)
    (left : HostFiles) (limit : Option ℕ+) (paused : service.lifecycle = .paused)
    (inspector : Inspector) :
    (run Hosted.step ⟨service.emulator, files⟩
        (service.commandSteps (.resume limit) host inspector)).emulator =
      (service.processCommand (.resume limit)
        { host.outcomes blockMediaPaths left with inspector }).emulator := by
  simp only [commandSteps, processCommand, paused]
  cases service.pendingBreakpoint with
  | none => rfl
  | some address =>
    have same : service.emulator.resumeFromBreakpoint address
        (host.outcomes service.emulator.blockMediaPaths files) =
          service.emulator.resumeFromBreakpoint address
            { host.outcomes blockMediaPaths left with inspector } := rfl
    simp only [Option.map_some, Option.toList_some, List.singleton_append, run_cons, run_nil,
      Hosted.step, same]
    cases service.emulator.resumeFromBreakpoint address
        { host.outcomes blockMediaPaths left with inspector } with
    | error error => rfl
    | ok emulator => rfl

theorem emulator_processReset (service : Service) (outcomes : HostOutcomes)
    (resets : service.lifecycle = .running ∨ service.lifecycle = .paused) :
    (service.processCommand .reset outcomes).emulator =
      (service.resetEmulator outcomes).2.emulator.status.2 := by
  rcases resets with resets | resets
  all_goals
    simp only [processCommand, resets]
    rcases service.resetEmulator outcomes with ⟨_ | error, after⟩
    · rfl
    · rfl

theorem emulator_reset (service : Service) (files : HostFiles)
    (resets : service.lifecycle = .running ∨ service.lifecycle = .paused) (inspector : Inspector) :
    (run Hosted.step ⟨service.emulator, files⟩ [.reset host, .status]).emulator =
      (service.processCommand .reset
        { host.outcomes service.emulator.blockMediaPaths
            (service.emulator.flush files host.write).2.2 with inspector }).emulator := by
  have same : service.resetEmulator { host.outcomes service.emulator.blockMediaPaths
      (service.emulator.flush files host.write).2.2 with inspector } =
        service.resetEmulator (host.outcomes service.emulator.blockMediaPaths
          (service.emulator.flush files host.write).2.2) := rfl
  rw [emulator_processReset service _ resets, same, (service.resetEmulator_reset files host).2]
  rfl

theorem emulator_processCommand (service : Service) (files : HostFiles) (command : Command)
    (inspector : Inspector) :
    let hosted := run Hosted.step ⟨service.emulator, files⟩
      (service.commandSteps command host inspector)
    hosted.emulator = (service.processCommand command
      { host.outcomes service.emulator.blockMediaPaths hosted.files with inspector }).emulator := by
  have same (left : HostFiles) (unit : Fin 2) :
      ({ host.outcomes service.emulator.blockMediaPaths left with inspector } : HostOutcomes).write
        unit = (host.write unit).result := rfl
  cases command with
  | pause =>
    cases phase : service.lifecycle with
    | running =>
      simp only [commandSteps, processCommand, phase]
      exact { service with remainingInstructions := none, lifecycle := .paused }.emulator_settle
        files (same _)
    | starting | paused | stopping | stopped | failed =>
      simp only [commandSteps, processCommand, phase, run_nil]
  | resume limit =>
    cases phase : service.lifecycle with
    | paused => exact emulator_resume service _ _ limit phase inspector
    | starting | running | stopping | stopped | failed =>
      simp only [commandSteps, processCommand, phase, run_nil]
  | reset =>
    have files' : (service.emulator.reset files host).2.2 =
        (service.emulator.flush files host.write).2.2 := by
      rcases reset_cases service.emulator files host with ⟨error, refused⟩ |
        ⟨_, backend, _, ⟨_, error, failed⟩ | replaced⟩
      · rw [refused]
      · rw [failed]
      · rw [replaced]
    have left : (run Hosted.step ⟨service.emulator, files⟩ [.reset host, .status]).files =
        (service.emulator.flush files host.write).2.2 := files'
    cases phase : service.lifecycle with
    | running =>
      simp only [commandSteps, phase, left]
      exact service.emulator_reset files (.inl phase) inspector
    | paused =>
      simp only [commandSteps, phase, left]
      exact service.emulator_reset files (.inr phase) inspector
    | starting | stopping | stopped | failed =>
      simp only [commandSteps, processCommand, phase, run_nil]
  | shutdown => exact service.emulator_stop files (same _)
  | inspect request => rfl

end Service

namespace FiledService

variable {filed : FiledService}

/-- A step of the service does with the emulator what is listed for it. -/
theorem hosted_step (filed : FiledService) (next : FiledStep) :
    (filed.step next).hosted =
      run Hosted.step filed.hosted (filed.service.emulatorSteps next) := by
  have emulator : (filed.step next).service.emulator =
      (run Hosted.step filed.hosted (filed.service.emulatorSteps next)).emulator := by
    unfold step
    cases live : filed.service.live with
    | false =>
      simp only [Service.step, Service.emulatorSteps, live, Bool.not_false, ↓reduceIte, run_nil,
        hosted]
    | true =>
      cases next with
      | command issued host inspector =>
        simp only [Service.step, Service.emulatorSteps, FiledStep.over, live, Bool.not_true,
          Bool.false_eq_true, ↓reduceIte]
        exact (filed.service.emulator_processCommand filed.files issued inspector).symm
      | disconnected host =>
        simp only [Service.step, Service.emulatorSteps, FiledStep.over, live, Bool.not_true,
          Bool.false_eq_true, ↓reduceIte]
        exact (filed.service.emulator_stop filed.files fun _ => rfl).symm
      | turn inbox engine publishDue host =>
        simp only [Service.step, Service.emulatorSteps, FiledStep.over, live, Bool.not_true,
          Bool.false_eq_true, ↓reduceIte]
        split
        · exact (filed.service.emulator_turn filed.files (fun _ => rfl) inbox engine publishDue).symm
        · rfl
  unfold hosted at emulator ⊢
  rw [emulator]
  rfl

/-- Whatever the steps of an emulator keep, the service keeps. -/
theorem leads_step (filed : FiledService) (next : FiledStep) :
    Leads Hosted.step filed.hosted (filed.step next).hosted :=
  ⟨_, filed.hosted_step next⟩

end FiledService

/-! ### What the last publication shows -/

namespace Service

variable {service : Service} {outcomes : HostOutcomes}

/-- The newest instant shows the service as it is. -/
def Told (service : Service) : Prop :=
  ∃ earlier, service.history = ⟨.published, service.status.lifecycle, service.status.lastError,
    service.emulator.dirty⟩ :: earlier

theorem told_pauseWith (service : Service) (lastStop : Option StopText) (host : HostOutcomes) :
    (service.pauseWith lastStop host).Told := ⟨_, rfl⟩

theorem told_stop (service : Service) (host : HostOutcomes) : (service.stop host).Told := by
  unfold stop
  simp only
  split
  · exact ⟨_, rfl⟩
  · exact ⟨_, rfl⟩

theorem told_processCommand (live : service.live = true) (command : Command) :
    (service.processCommand command outcomes).live = true ∨
      (service.processCommand command outcomes).Told := by
  unfold processCommand
  split
  · exact .inr (told_pauseWith _ _ _)
  · simp only
    split
    · exact .inr ⟨_, rfl⟩
    · exact .inr ⟨_, rfl⟩
  · split
    · exact .inr ⟨_, rfl⟩
    · exact .inr ⟨_, rfl⟩
  · split
    · exact .inr ⟨_, rfl⟩
    · exact .inr ⟨_, rfl⟩
  · exact .inr (service.told_stop _)
  · exact .inl live
  · exact .inl live

theorem told_afterBatch (live : service.live = true) (result : Except RuntimeError BackendStop)
    (limitReached publishDue : Bool) :
    (service.afterBatch result limitReached publishDue outcomes).live = true ∨
      (service.afterBatch result limitReached publishDue outcomes).Told := by
  unfold afterBatch
  split
  · exact .inr ⟨_, rfl⟩
  · exact .inr (told_pauseWith _ _ _)
  · split
    · exact .inr (told_pauseWith _ _ _)
    · split
      · exact .inl live
      · exact .inl live
  · exact .inr ⟨_, rfl⟩

/-- A service that has ended shows what it ended as. -/
theorem told_step (told : service.live = false → service.Told) (next : Step)
    (ended : (service.step next).live = false) : (service.step next).Told := by
  have reached (after : Service) (ended : after.live = false)
      (outcome : after.live = true ∨ after.Told) : after.Told := by
    rcases outcome with live | told
    · rw [ended] at live
      cases live
    · exact told
  cases live : service.live with
  | false =>
    simp only [step, live, Bool.not_false, ↓reduceIte] at ended ⊢
    exact told live
  | true =>
    simp only [step, live, Bool.not_true, Bool.false_eq_true, ↓reduceIte] at ended ⊢
    cases next with
    | command command host => exact reached _ ended (told_processCommand live command)
    | disconnected host => exact service.told_stop host
    | turn inbox runner publishDue host =>
      simp only at ended ⊢
      split
      · rename_i running
        rw [if_pos running] at ended
        refine reached _ ended ?_
        rw [turn_eq]
        split
        · exact .inr (told_pauseWith _ _ _)
        · have lives : ((service.ready inbox).runBatch runner
              service.emulator.backend.machine.ticks).2.2.live = true := live
          exact told_afterBatch lives _ _ publishDue
      · rename_i waits
        rw [if_neg waits, live] at ended
        cases ended

end Service

/-! ### What the files hold -/

namespace Hosted

variable {hosted : Hosted} {path : String}

/-- Only the files of the units change. -/
theorem files_flush (emulator : Emulator) (files : HostFiles) (write : Fin 2 → WriteOutcome)
    (foreign : ∀ unit, emulator.blockMediaPaths unit ≠ some path) :
    (emulator.flush files write).2.2 path = files path := by
  have one (emulator : Emulator) (files : HostFiles) (unit : Fin 2) (outcome : WriteOutcome)
      (foreign : emulator.blockMediaPaths unit ≠ some path) :
      (emulator.flushFile files unit outcome).2.2 path = files path := by
    rcases emulator.flushFile_cases files unit outcome with ⟨error, same, _⟩ |
      ⟨path', error, left, file, _, failed⟩ | ⟨path', media, file, _, _, written⟩
    · rw [same]
    · rw [failed]
      refine Function.update_of_ne ?_ _ _
      rintro rfl
      exact foreign file
    · rw [written]
      refine Function.update_of_ne ?_ _ _
      rintro rfl
      exact foreign file
  have paths := paths_flushFile emulator files 0 (write 0)
  rw [flush_eq]
  refine (one _ _ 1 (write 1) ?_).trans (one emulator files 0 (write 0) (foreign 0))
  rw [paths]
  exact foreign 1

variable {fresh : Emulator} {files : HostFiles}

/-- The files that no unit has stay what they were. -/
def Foreign (blockMediaPaths : Fin 2 → Option String) (before after : HostFiles) : Prop :=
  ∀ path, (∀ unit, blockMediaPaths unit ≠ some path) → after path = before path

theorem foreign_step (grounded : Grounded fresh hosted) (next : EmulatorStep) :
    Foreign fresh.blockMediaPaths hosted.files (hosted.step next).files := by
  intro path foreign
  rw [← grounded.paths] at foreign
  cases next with
  | flush write => exact files_flush hosted.emulator hosted.files write foreign
  | reset host =>
    have flushed := files_flush hosted.emulator hosted.files host.write foreign
    rcases reset_cases hosted.emulator hosted.files host with ⟨error, refused⟩ |
      ⟨_, backend, _, ⟨_, error, failed⟩ | replaced⟩
    · simp only [step, reset, refused, flushed]
    · simp only [step, reset, failed, flushed]
    · simp only [step, reset, replaced, flushed]
  | runBatch | resumeFromBreakpoint | drainUart | deliverUart | status | inspect => rfl

theorem media_deliverUart (emulator : Emulator) (port : UartPort) (bytes : List U8) :
    mediaOf (emulator.deliverUart port bytes).backend.machine =
      mediaOf emulator.backend.machine := by
  induction bytes generalizing emulator with
  | nil => rfl
  | cons byte bytes ih =>
    cases port with
    | uart0 => exact ih (emulator.setBus (emulator.backend.machine.bus.updateUart0 (.receive byte)))
    | uart1 => exact ih (emulator.setBus (emulator.backend.machine.bus.updateUart1 (.receive byte)))

/-- A reset keeps the media, however it ends. -/
theorem media_reset (grounded : Grounded fresh hosted) (distinct : DistinctFiles fresh.blockMediaPaths)
    (host : HostCalls) : mediaOf (hosted.reset host).2.emulator.backend.machine =
      mediaOf hosted.emulator.backend.machine := by
  have flushed := (hosted.emulator.flushedOnly_flush hosted.files host.write).media
  have kept := grounded.flush distinct host.write
  have outcomes := reset_cases hosted.emulator hosted.files host
  generalize flush : hosted.emulator.flush hosted.files host.write = after at kept outcomes flushed
  have rebuilt {backend : UnicornBackend} (done : after.1 = none)
      (rebuilt : after.2.1.rebuild (host.outcomes after.2.1.blockMediaPaths after.2.2) =
        .ok backend) : mediaOf backend.machine = mediaOf hosted.emulator.backend.machine := by
    have clean := (grounded.flushed distinct (flush.trans (Prod.ext done rfl))).2
    obtain ⟨_, ⟨memory, _, fresh⟩, _⟩ := kept.rebuild clean rebuilt
    rw [← flushed]
    funext unit
    rw [mediaOf, (blank_fields fresh).2.2]
  unfold reset
  rcases outcomes with ⟨error, refused⟩ | ⟨done, backend, built, ⟨_, error, failed⟩ | replaced⟩
  · rw [refused]
    exact flushed
  · rw [failed]
    exact rebuilt done built
  · rw [replaced]
    have same := rebuilt done built
    exact same

def isBatch : EmulatorStep → Bool
  | .runBatch _ _ _ => true
  | _ => false

/-- Only a batch changes media. -/
theorem media_step (grounded : Grounded fresh hosted) (distinct : DistinctFiles fresh.blockMediaPaths)
    {next : EmulatorStep} (quiet : isBatch next = false) :
    mediaOf (hosted.step next).emulator.backend.machine =
      mediaOf hosted.emulator.backend.machine := by
  cases next with
  | runBatch engine instructionBudget tickDeadline => cases quiet
  | resumeFromBreakpoint address host =>
    rw [step, Emulator.resumeFromBreakpoint]
    simp only [HostCalls.outcomes, Emulator.setProgramCounter]
    cases host.programCounter with
    | error error => split <;> rfl
    | ok done => split <;> rfl
  | reset host => exact media_reset grounded distinct host
  | flush write => exact (hosted.emulator.flushedOnly_flush hosted.files write).media
  | drainUart inbox =>
    exact (media_deliverUart _ .uart1 _).trans (media_deliverUart hosted.emulator .uart0 _)
  | deliverUart port bytes => exact media_deliverUart hosted.emulator port bytes
  | status => rfl
  | inspect request inspector =>
    have inspected := Emulator.inspected_inspectBackend hosted.emulator.backend inspector request
    exact congrArg (fun block : BlockDevice => fun unit => (block.units unit).media) inspected.block

end Hosted

namespace FiledService

variable {config : RuntimeConfig} {files : HostFiles} {start : HostCalls} {fresh : Emulator}
  {filed : FiledService}

/-- What a run keeps: the emulator over its files, and what the service has shown. -/
structure Kept (config : RuntimeConfig) (files : HostFiles) (fresh : Emulator)
    (filed : FiledService) : Prop where
  grounded : Grounded fresh filed.hosted
  sound : Service.Sound config.blockMediaPaths filed.service
  told : filed.service.live = false → filed.service.Told
  foreign : Hosted.Foreign fresh.blockMediaPaths files filed.files

theorem Kept.step (kept : Kept config files fresh filed)
    (distinct : DistinctFiles fresh.blockMediaPaths) (next : FiledStep) :
    Kept config files fresh (filed.step next) := by
  have carried (hosted : Hosted) (next : EmulatorStep)
      (held : Grounded fresh hosted ∧ Hosted.Foreign fresh.blockMediaPaths files hosted.files) :
      Grounded fresh (hosted.step next) ∧
        Hosted.Foreign fresh.blockMediaPaths files (hosted.step next).files := by
    refine ⟨held.1.step distinct next, fun path foreign => ?_⟩
    exact (Hosted.foreign_step held.1 next path foreign).trans (held.2 path foreign)
  obtain ⟨grounded, foreign⟩ :=
    (filed.leads_step next).invariant carried ⟨kept.grounded, kept.foreign⟩
  exact ⟨grounded, kept.sound.step _, Service.told_step kept.told _, foreign⟩

def isTurn : FiledStep → Bool
  | .turn _ _ _ _ => true
  | _ => false

/-- Only a turn runs a batch. -/
theorem quiet_emulatorSteps (service : Service) {next : FiledStep} (quiet : isTurn next = false) :
    (service.emulatorSteps next).any Hosted.isBatch = false := by
  unfold Service.emulatorSteps
  split
  · rfl
  · cases next with
    | turn inbox engine publishDue host => cases quiet
    | disconnected host => rfl
    | command command host inspector =>
      simp only [Service.commandSteps]
      split
      · rfl
      · cases service.pendingBreakpoint with
        | none => rfl
        | some address => rfl
      all_goals rfl

theorem media_run (distinct : DistinctFiles fresh.blockMediaPaths) (steps : List EmulatorStep)
    (quiet : steps.any Hosted.isBatch = false) {hosted : Hosted}
    (grounded : Grounded fresh hosted) :
    mediaOf (run Hosted.step hosted steps).emulator.backend.machine =
      mediaOf hosted.emulator.backend.machine := by
  induction steps generalizing hosted with
  | nil => rfl
  | cons step steps ih =>
    obtain ⟨first, others⟩ := Bool.or_eq_false_iff.mp quiet
    exact (ih others (grounded.step distinct step)).trans (Hosted.media_step grounded distinct first)

/-- Nothing but a turn changes a medium. -/
theorem Kept.media (kept : Kept config files fresh filed)
    (distinct : DistinctFiles fresh.blockMediaPaths) {next : FiledStep} (quiet : isTurn next = false) :
    mediaOf (filed.step next).service.emulator.backend.machine =
      mediaOf filed.service.emulator.backend.machine := by
  have ran := congrArg (fun hosted : Hosted => mediaOf hosted.emulator.backend.machine)
    (filed.hosted_step next)
  exact ran.trans (media_run distinct _ (quiet_emulatorSteps filed.service quiet) kept.grounded)

end FiledService

/-! ### The paths of the files -/

variable (canonicalize : String → Except IoError String) (blockMediaPaths : Fin 2 → Option String)

variable {canonicalize blockMediaPaths} {canonicalPaths : Fin 2 → Option String}

/-- Files of one empty sector. -/
def emptySectors : HostFiles := fun _ => List.replicate 512 0

/-- A host where nothing fails. -/
def willing : HostCalls := ⟨fun _ => .written, fun _ => none, .ok (), .ok ()⟩

end Minemu.Runtime
