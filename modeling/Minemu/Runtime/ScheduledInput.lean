import Minemu.Library.Agenda
import Minemu.Runtime.UartDelivery
import Minemu.Unicorn.TickBoundary

/-! Scheduled input and the execution deadline: in every run without a reset the bytes of each input
reach the receive queue of their port once, in order and at the input's own tick, and the clock never
passes the deadline. -/

namespace Minemu.Runtime

open Library Platform Minemu.Core Minemu.Unicorn

/-- What `run_until_tick` allows a batch to do: from a tick up to the deadline it does not go
past the deadline. -/
def StopsByDeadline (runner : Service.Runner) : Prop :=
  ∀ backend start stop budget deadline, 1 ≤ budget → backend.machine.ticks ≤ deadline →
    (runner backend start stop budget (some deadline)).2.machine.ticks ≤ deadline

/-- The execution adapter runs so over every engine that keeps to its instruction count. -/
theorem stopsByDeadline_adapterRunner {engine : Engine} (bounded : ExecutesAtMost engine) :
    StopsByDeadline (Service.adapterRunner engine) := by
  intro backend start stop budget deadline positive early
  have within := backend.runUntilTick_within bounded start stop deadline positive
  rw [max_eq_right early] at within
  exact within

/-- What the clock of a service depends on. -/
structure Timing where
  ticks : Nat
  instructionBatch : Nat
  executionDeadline : Option Nat
  scheduledUart : List ScheduledUartInput

/-- No input is overdue, the deadline has not passed, and a batch can run. -/
structure Timing.Exact (timing : Timing) : Prop where
  batch : 1 ≤ timing.instructionBatch
  sorted : timing.scheduledUart.Pairwise fun first second => first.atTick ≤ second.atTick
  ahead : ∀ input ∈ timing.scheduledUart, timing.ticks ≤ input.atTick
  within : ∀ deadline, timing.executionDeadline = some deadline → timing.ticks ≤ deadline

namespace Emulator

variable {emulator emulator' : Emulator} {host : HostOutcomes}

/-- The tick of the machine, and the batch size. -/
def pace (emulator : Emulator) : Nat × Nat :=
  (emulator.backend.machine.ticks, emulator.instructionBatch)

theorem pace_deliverUart (emulator : Emulator) (port : UartPort) (bytes : List U8) :
    (emulator.deliverUart port bytes).pace = emulator.pace := by
  induction bytes generalizing emulator with
  | nil => rfl
  | cons byte bytes ih =>
    cases port with
    | uart0 => exact ih (emulator.setBus (emulator.backend.machine.bus.updateUart0 (.receive byte)))
    | uart1 => exact ih (emulator.setBus (emulator.backend.machine.bus.updateUart1 (.receive byte)))

theorem pace_drainUart (emulator : Emulator) (inbox : UartPort → List U8) :
    (emulator.drainUart inbox).pace = emulator.pace :=
  ((emulator.deliverUart .uart0 (inbox .uart0)).pace_deliverUart .uart1 (inbox .uart1)).trans
    (emulator.pace_deliverUart .uart0 (inbox .uart0))

theorem pace_inspect (emulator : Emulator) (request : RuntimeInspectionRequest)
    (inspector : Inspector) : (emulator.inspect request inspector).2.pace = emulator.pace := by
  have same := (inspected_inspectBackend emulator.backend inspector request).ticks
  exact Prod.ext same rfl

theorem pace_resumed {address : U32}
    (resumed : emulator.resumeFromBreakpoint address host = .ok emulator') :
    emulator'.pace = emulator.pace := by
  obtain ⟨machine, others⟩ := Service.resumed_emulator resumed
  have batch : emulator'.instructionBatch = emulator.instructionBatch := by rw [others]
  exact Prod.ext (congrArg Machine.ticks machine) batch

end Emulator

namespace Service

variable {service : Service} {host : HostOutcomes}

def timing (service : Service) : Timing :=
  ⟨service.emulator.pace.1, service.emulator.pace.2, service.executionDeadline,
    service.scheduledUart⟩

/-! ### What leaves the clock alone -/

theorem timing_flushUnit (service : Service) (unit : Fin 2) (host : HostOutcomes) :
    (service.flushUnit unit host).2.timing = service.timing := by
  unfold flushUnit
  cases service.emulator.blockMediaPaths unit with
  | none => rfl
  | some path =>
    simp only
    split <;> rfl

theorem timing_flush (service : Service) (host : HostOutcomes) :
    (service.flush host).2.timing = service.timing :=
  ((service.flushUnit 0 host).2.timing_flushUnit 1 host).trans (service.timing_flushUnit 0 host)

theorem timing_pauseWith (service : Service) (lastStop : Option StopText) (host : HostOutcomes) :
    (service.pauseWith lastStop host).timing = service.timing :=
  timing_flush { service with lifecycle := .paused } host

theorem timing_stop (service : Service) (host : HostOutcomes) :
    (service.stop host).timing = service.timing := by
  have flushed := (service.publish .stopping none none).timing_flush host
  unfold stop
  simp only
  split
  · exact flushed
  · exact flushed

/-- A pause keeps the limit and shows its reason. -/
theorem pauseWith_shows (service : Service) (lastStop : Option StopText) (host : HostOutcomes) :
    (service.pauseWith lastStop host).lifecycle = .paused ∧
      (service.pauseWith lastStop host).remainingInstructions = service.remainingInstructions ∧
      (service.pauseWith lastStop host).status.lastStop =
        lastStop.or service.status.lastStop := by
  have same := (flushes_flush { service with lifecycle := .paused } host).same
  refine ⟨?_, ?_, ?_⟩
  · change (flush { service with lifecycle := .paused } host).2.lifecycle = _
    rw [same]
  · change (flush { service with lifecycle := .paused } host).2.remainingInstructions = _
    rw [same]
  · change lastStop.or (flush { service with lifecycle := .paused } host).2.status.lastStop = _
    rw [same]

theorem stop_shows (service : Service) (host : HostOutcomes) :
    (service.stop host).live = false ∧
      (service.stop host).status.lastStop = service.status.lastStop := by
  have same := (flushes_flush (service.publish .stopping none none) host).same
  refine ⟨rfl, ?_⟩
  unfold stop
  simp only
  split
  · change (Option.none).or ((service.publish .stopping none none).flush host).2.status.lastStop = _
    rw [same]
    rfl
  · change (Option.none).or ((service.publish .stopping none none).flush host).2.status.lastStop = _
    rw [same]
    rfl

/-! ### One turn -/

/-- What a turn delivers is what is due at its tick, in the order of the queue. -/
theorem deliverScheduled_eq (service : Service) (currentTick : Nat) :
    service.deliverScheduled currentTick =
      { service with
        scheduledUart := later ScheduledUartInput.atTick currentTick service.scheduledUart
        emulator := (due ScheduledUartInput.atTick currentTick service.scheduledUart).foldl
          (fun emulator input => emulator.deliverUart input.port input.bytes) service.emulator } :=
  rfl

theorem pace_deliverScheduled (service : Service) (currentTick : Nat) :
    (service.deliverScheduled currentTick).emulator.pace = service.emulator.pace := by
  rw [deliverScheduled_eq]
  simp only
  generalize due ScheduledUartInput.atTick currentTick service.scheduledUart = inputs
  induction inputs generalizing service with
  | nil => rfl
  | cons input inputs ih =>
    exact (ih { service with emulator := service.emulator.deliverUart input.port input.bytes }).trans
      (service.emulator.pace_deliverUart input.port input.bytes)

/-- Without a boundary ahead nothing is queued and there is no deadline. -/
theorem tickBoundary_none {currentTick : Nat} (free : service.tickBoundary currentTick = none)
    (ahead : ∀ input ∈ service.scheduledUart, currentTick < input.atTick)
    (within : ∀ deadline, service.executionDeadline = some deadline → currentTick < deadline) :
    service.executionDeadline = none ∧ service.scheduledUart = [] := by
  rw [tickBoundary, List.min?_eq_none_iff, List.filter_eq_nil_iff] at free
  constructor
  · cases deadline : service.executionDeadline with
    | none => rfl
    | some deadline' =>
      have reached := free deadline' (by simp [deadline])
      rw [decide_eq_true_iff] at reached
      exact absurd (within deadline' deadline) reached
  · cases queue : service.scheduledUart with
    | nil => rfl
    | cons input rest =>
      have reached := free input.atTick (by simp [queue])
      rw [decide_eq_true_iff] at reached
      exact absurd (ahead input (by simp [queue])) reached

/-- A boundary is ahead, and neither the deadline nor an input comes before it. -/
theorem tickBoundary_some {currentTick boundary : Nat}
    (bounded : service.tickBoundary currentTick = some boundary)
    (sorted : service.scheduledUart.Pairwise fun first second => first.atTick ≤ second.atTick)
    (ahead : ∀ input ∈ service.scheduledUart, currentTick < input.atTick)
    (within : ∀ deadline, service.executionDeadline = some deadline → currentTick < deadline) :
    currentTick < boundary ∧ (∀ input ∈ service.scheduledUart, boundary ≤ input.atTick) ∧
      ∀ deadline, service.executionDeadline = some deadline → boundary ≤ deadline := by
  rw [tickBoundary, List.min?_eq_some_iff] at bounded
  obtain ⟨member, least⟩ := bounded
  refine ⟨by simpa using (List.mem_filter.mp member).2, fun input queued => ?_,
    fun deadline given => ?_⟩
  · cases queue : service.scheduledUart with
    | nil => simp [queue] at queued
    | cons head rest =>
      have first : boundary ≤ head.atTick := by
        refine least _ (List.mem_filter.mpr ⟨by simp [queue], ?_⟩)
        exact decide_eq_true (ahead head (by simp [queue]))
      rw [queue] at queued sorted
      rcases List.mem_cons.mp queued with rfl | behind
      · exact first
      · exact first.trans ((List.pairwise_cons.mp sorted).1 input behind)
  · refine least _ (List.mem_filter.mpr ⟨by simp [given], ?_⟩)
    exact decide_eq_true (within deadline given)

/-- A batch of a running service has room for an instruction. -/
theorem instructionBudget_pos {currentTick : Nat} (batch : 1 ≤ service.emulator.instructionBatch)
    (limited : service.remainingInstructions ≠ some 0)
    (ahead : ∀ boundary, service.tickBoundary currentTick = some boundary → currentTick < boundary) :
    1 ≤ service.instructionBudget currentTick := by
  have budget : 1 ≤ service.remainingInstructions.elim service.emulator.instructionBatch
      fun remaining => min remaining service.emulator.instructionBatch := by
    cases remaining : service.remainingInstructions with
    | none => exact batch
    | some count =>
      rw [remaining] at limited
      have positive : count ≠ 0 := fun zero => limited (congrArg some zero)
      rw [Option.elim_some]
      omega
  unfold instructionBudget
  cases bounded : service.tickBoundary currentTick with
  | none => exact budget
  | some boundary =>
    have before := ahead boundary bounded
    rw [Option.elim_some]
    omega

/-- A batch that starts with nothing due keeps the timing exact. -/
theorem exact_runBatch {runner : Runner} (contract : StopsByDeadline runner)
    (batch : 1 ≤ service.emulator.instructionBatch)
    (sorted : service.scheduledUart.Pairwise fun first second => first.atTick ≤ second.atTick)
    (ahead : ∀ input ∈ service.scheduledUart, service.timing.ticks < input.atTick)
    (within : ∀ deadline, service.executionDeadline = some deadline →
      service.timing.ticks < deadline)
    (limited : service.remainingInstructions ≠ some 0) :
    (service.runBatch runner service.timing.ticks).2.2.timing.Exact := by
  cases bounded : service.tickBoundary service.timing.ticks with
  | none =>
    obtain ⟨endless, empty⟩ := tickBoundary_none bounded ahead within
    refine ⟨batch, sorted, fun input (queued : input ∈ service.scheduledUart) => ?_,
      fun deadline (given : service.executionDeadline = some deadline) => ?_⟩
    · rw [empty] at queued
      cases queued
    · rw [endless] at given
      cases given
  | some boundary =>
    obtain ⟨before, queue, deadlines⟩ := tickBoundary_some bounded sorted ahead within
    have positive : 1 ≤ service.instructionBudget service.timing.ticks := by
      refine instructionBudget_pos batch limited fun boundary' bounded' => ?_
      rw [bounded] at bounded'
      cases bounded'
      exact before
    have stopped := contract service.emulator.backend (service.emulator.backend.cpu.read .pc)
      service.emulator.stop (service.instructionBudget service.timing.ticks) boundary positive
      before.le
    rw [← bounded] at stopped
    exact ⟨batch, sorted, fun input queued => stopped.trans (queue input queued),
      fun deadline given => stopped.trans (deadlines deadline given)⟩

/-! ### Steps -/

/-- The timing is exact, a running service has instructions left, and it shows the deadline
only when the clock stands at it. -/
structure OnTime (service : Service) : Prop where
  exact : service.timing.Exact
  limited : service.live = true → service.remainingInstructions ≠ some 0
  running : service.live = true → service.lifecycle = .running →
    service.status.lastStop ≠ some .executionDeadlineReached
  paused : service.status.lastStop = some .executionDeadlineReached →
    service.executionDeadline = some service.timing.ticks

/-- Without the deadline shown, the timing and the limit are all there is. -/
theorem OnTime.hidden (exact : service.timing.Exact)
    (limited : service.live = true → service.remainingInstructions ≠ some 0)
    (hidden : service.status.lastStop ≠ some .executionDeadlineReached) : OnTime service :=
  ⟨exact, limited, fun _ _ => hidden, fun shown => absurd shown hidden⟩

/-- A service that is not running may go on showing what it showed. -/
theorem OnTime.idle (onTime : OnTime service) {after : Service}
    (timing : after.timing = service.timing)
    (limited : after.live = true → after.remainingInstructions ≠ some 0)
    (halted : after.live = true → after.lifecycle ≠ .running)
    (shown : after.status.lastStop = service.status.lastStop) : OnTime after := by
  refine ⟨timing ▸ onTime.exact, limited, fun live running => absurd running (halted live),
    fun reached => ?_⟩
  have deadline : after.executionDeadline = service.executionDeadline :=
    congrArg Timing.executionDeadline timing
  rw [deadline, timing]
  exact onTime.paused (shown.symm.trans reached)

/-- A pause may show the deadline only at its tick. -/
theorem OnTime.pauseWith (service : Service) (exact : service.timing.Exact)
    (limited : service.remainingInstructions ≠ some 0) (lastStop : Option StopText)
    (host : HostOutcomes) (reached : lastStop.or service.status.lastStop =
      some .executionDeadlineReached → service.executionDeadline = some service.timing.ticks) :
    OnTime (service.pauseWith lastStop host) := by
  have timing := service.timing_pauseWith lastStop host
  obtain ⟨paused, limit, shown⟩ := service.pauseWith_shows lastStop host
  refine ⟨timing ▸ exact, fun _ => limit ▸ limited, fun _ running => ?_, fun stopped => ?_⟩
  · rw [paused] at running
    cases running
  · have deadline : (service.pauseWith lastStop host).executionDeadline =
        service.executionDeadline := congrArg Timing.executionDeadline timing
    rw [deadline, timing]
    exact reached (shown.symm.trans stopped)

/-- Steps that neither reset nor run a batch past its deadline. -/
def Admitted : Step → Prop
  | .command command _ => command ≠ .reset
  | .disconnected _ => True
  | .turn _ runner _ _ => StopsByDeadline runner

/-- A pause command pauses, or finds nothing to pause. -/
theorem processCommand_pause (service : Service) (host : HostOutcomes) :
    service.processCommand .pause host = service ∨
      service.processCommand .pause host =
        { service with remainingInstructions := none }.pauseWith none host := by
  unfold Service.processCommand
  cases service.lifecycle with
  | running => exact .inr rfl
  | starting | paused | stopping | stopped | failed => exact .inl rfl

/-- A resume command finds nothing to resume, resumes, or fails. -/
theorem processCommand_resume (service : Service) (limit : Option ℕ+) (host : HostOutcomes) :
    service.processCommand (.resume limit) host = service ∨
      (∃ emulator, emulator.pace = service.emulator.pace ∧
        service.processCommand (.resume limit) host =
          { service with
            emulator
            pendingBreakpoint := none
            remainingInstructions := limit.map PNat.val
            lifecycle := .running }.publishClearingStop .running) ∨
      ∃ error, service.processCommand (.resume limit) host =
        { service with pendingBreakpoint := none }.fail none (.error error) := by
  cases lifecycle : service.lifecycle with
  | paused =>
    right
    simp only [Service.processCommand, lifecycle]
    cases service.pendingBreakpoint with
    | none => exact .inl ⟨service.emulator, rfl, rfl⟩
    | some address =>
      cases resumed : service.emulator.resumeFromBreakpoint address host with
      | error error => exact .inr ⟨error, by simp only [resumed]⟩
      | ok emulator =>
        exact .inl ⟨emulator, Emulator.pace_resumed resumed, by simp only [resumed]⟩
  | starting | running | stopping | stopped | failed =>
    left
    simp only [Service.processCommand, lifecycle]

theorem OnTime.processCommand (onTime : OnTime service) {command : Command}
    (admitted : command ≠ .reset) (host : HostOutcomes) :
    OnTime (service.processCommand command host) ∧
      (service.processCommand command host).timing = service.timing := by
  cases command with
  | pause =>
    rcases service.processCommand_pause host with same | paused
    · rw [same]
      exact ⟨onTime, rfl⟩
    · rw [paused]
      refine ⟨.pauseWith { service with remainingInstructions := none } onTime.exact ?_ none host
        onTime.paused, timing_pauseWith _ none host⟩
      intro limited
      cases limited
  | resume limit =>
    rcases service.processCommand_resume limit host with
      same | ⟨emulator, pace, resumed⟩ | ⟨error, failed⟩
    · rw [same]
      exact ⟨onTime, rfl⟩
    · rw [resumed]
      have timing : (Timing.mk emulator.pace.1 emulator.pace.2 service.executionDeadline
          service.scheduledUart) = service.timing := by
        rw [pace]
        rfl
      have exact := onTime.exact
      rw [← timing] at exact
      refine ⟨.hidden exact (fun _ => ?_) (fun shown => ?_), timing⟩
      · change limit.map PNat.val ≠ some 0
        cases limit with
        | none => simp
        | some count => simp
      · cases shown
    · rw [failed]
      refine ⟨onTime.idle rfl (fun live => ?_) (fun live => ?_) rfl, rfl⟩
      · cases live
      · cases live
  | reset => exact absurd rfl admitted
  | shutdown =>
    have timing := service.timing_stop host
    obtain ⟨ended, shown⟩ := service.stop_shows host
    refine ⟨onTime.idle timing (fun live => ?_) (fun live => ?_) shown, timing⟩
    · exact absurd (ended.symm.trans live) Bool.false_ne_true
    · exact absurd (ended.symm.trans live) Bool.false_ne_true
  | inspect request =>
    have timing : Timing.mk (service.emulator.inspect request host.inspector).2.pace.1
        (service.emulator.inspect request host.inspector).2.pace.2 service.executionDeadline
        service.scheduledUart = service.timing := by
      rw [Emulator.pace_inspect]
      rfl
    have exact := onTime.exact
    rw [← timing] at exact
    refine ⟨⟨exact, onTime.limited, onTime.running, fun shown => ?_⟩, timing⟩
    exact (onTime.paused shown).trans (congrArg (some ·.ticks) timing.symm)

/-- What follows a batch leaves the clock alone. -/
theorem OnTime.afterBatch (exact : service.timing.Exact)
    (hidden : service.status.lastStop ≠ some .executionDeadlineReached)
    {limitReached : Bool} (limited : limitReached = false → service.remainingInstructions ≠ some 0)
    (result : Except RuntimeError BackendStop) (publishDue : Bool) (host : HostOutcomes) :
    OnTime (service.afterBatch result limitReached publishDue host) ∧
      (service.afterBatch result limitReached publishDue host).timing = service.timing := by
  have flushed := (service.flushes_flush host).same
  have failing (lastStop : Option StopText) (error : ErrorText)
      (other : lastStop ≠ some .executionDeadlineReached) :
      OnTime ((service.flush host).2.fail lastStop error) ∧
        ((service.flush host).2.fail lastStop error).timing = service.timing := by
    have timing := service.timing_flush host
    refine ⟨.hidden (timing.symm ▸ exact) (fun live => (by cases live)) fun shown => ?_, timing⟩
    change lastStop.or (service.flush host).2.status.lastStop = _ at shown
    rw [flushed] at shown
    cases lastStop with
    | none => exact hidden shown
    | some text => exact other shown
  have pausing (text : StopText) (other : text ≠ .executionDeadlineReached)
      (pendingBreakpoint : Option U32) :
      OnTime ({ service with
          remainingInstructions := none
          pendingBreakpoint }.pauseWith (some text) host) ∧
        ({ service with
          remainingInstructions := none
          pendingBreakpoint }.pauseWith (some text) host).timing = service.timing := by
    refine ⟨.pauseWith { service with remainingInstructions := none, pendingBreakpoint } exact
      (fun limited => (by cases limited)) _ host fun shown => ?_, timing_pauseWith _ _ host⟩
    cases shown
    exact absurd rfl other
  have going (stop : BackendStop) :
      OnTime (if limitReached then
          { service with remainingInstructions := none }.pauseWith
            (some (.instructionLimitReached stop)) host
        else if publishDue then service.publish service.lifecycle (some (.stop stop)) none
        else service) ∧
      (if limitReached then
          { service with remainingInstructions := none }.pauseWith
            (some (.instructionLimitReached stop)) host
        else if publishDue then service.publish service.lifecycle (some (.stop stop)) none
        else service).timing = service.timing := by
    cases limitReached with
    | true => exact pausing _ (by simp) service.pendingBreakpoint
    | false =>
      cases publishDue with
      | true => exact ⟨.hidden exact (fun _ => limited rfl) fun shown => (by cases shown), rfl⟩
      | false => exact ⟨.hidden exact (fun _ => limited rfl) hidden, rfl⟩
  unfold Service.afterBatch
  match result with
  | .ok (.unicorn error) => exact failing _ _ (by simp)
  | .ok (.breakpoint address immediate) => exact pausing _ (by simp) _
  | .ok .instructionBudget | .ok (.mmioFault ..) | .ok (.mmuFault _) | .ok .cp15Boundary
  | .ok (.exception _) => exact going _
  | .error error => exact failing _ _ (by simp)

/-- A batch with nothing due, and what follows it. -/
theorem OnTime.batch (service : Service) {runner : Runner} (contract : StopsByDeadline runner)
    (exact : service.timing.Exact)
    (ahead : ∀ input ∈ service.scheduledUart, service.timing.ticks < input.atTick)
    (within : ∀ deadline, service.executionDeadline = some deadline →
      service.timing.ticks < deadline)
    (limited : service.remainingInstructions ≠ some 0)
    (hidden : service.status.lastStop ≠ some .executionDeadlineReached)
    (publishDue : Bool) (host : HostOutcomes) :
    let outcome := service.runBatch runner service.timing.ticks
    let after := outcome.2.2.afterBatch outcome.1 outcome.2.1 publishDue host
    OnTime after ∧ after.executionDeadline = service.executionDeadline ∧
      after.scheduledUart = service.scheduledUart := by
  intro outcome after
  have ran := exact_runBatch contract exact.batch exact.sorted ahead within limited
  have left (open' : outcome.2.1 = false) : outcome.2.2.remainingInstructions ≠ some 0 :=
    of_decide_eq_false open'
  obtain ⟨onTime, timing⟩ := OnTime.afterBatch ran hidden left outcome.1 publishDue host
  exact ⟨onTime, congrArg Timing.executionDeadline timing, congrArg Timing.scheduledUart timing⟩

/-- What the delivery of a turn makes of the timing. -/
theorem timing_deliverScheduled (service : Service) :
    (service.deliverScheduled service.timing.ticks).timing =
      { service.timing with
        scheduledUart := later ScheduledUartInput.atTick service.timing.ticks
          service.scheduledUart } := by
  have pace := service.pace_deliverScheduled service.timing.ticks
  change Timing.mk (service.deliverScheduled service.timing.ticks).emulator.pace.1
    (service.deliverScheduled service.timing.ticks).emulator.pace.2 _ _ = _
  rw [pace]
  rfl

/-- A turn of a running service delivers what is due, pauses at the deadline or runs a batch, and
leaves the timing exact. -/
theorem OnTime.turn (onTime : OnTime service) (live : service.live = true)
    (running : service.lifecycle = .running) (inbox : UartPort → List U8) {runner : Runner}
    (contract : StopsByDeadline runner) (publishDue : Bool) (host : HostOutcomes) :
    OnTime (service.turn inbox runner publishDue host) ∧
      (service.turn inbox runner publishDue host).executionDeadline = service.executionDeadline ∧
      (service.turn inbox runner publishDue host).scheduledUart =
        later ScheduledUartInput.atTick service.timing.ticks service.scheduledUart := by
  have exact := onTime.exact
  have sorted : (later ScheduledUartInput.atTick service.timing.ticks
      service.scheduledUart).Pairwise fun first second => first.atTick ≤ second.atTick :=
    exact.sorted.sublist later_sublist
  have ahead : ∀ input ∈ later ScheduledUartInput.atTick service.timing.ticks
      service.scheduledUart, service.timing.ticks < input.atTick := later_ahead exact.sorted
  have hidden := onTime.running live running
  have clock := service.timing_deliverScheduled
  generalize delivered : service.deliverScheduled service.timing.ticks = after at clock
  have queue : after.scheduledUart =
      later ScheduledUartInput.atTick service.timing.ticks service.scheduledUart :=
    congrArg Timing.scheduledUart clock
  have limited : after.remainingInstructions ≠ some 0 := delivered ▸ onTime.limited live
  have shown : after.status.lastStop ≠ some .executionDeadlineReached := delivered ▸ hidden
  have due : after.timing.Exact := by
    rw [clock]
    exact ⟨exact.batch, sorted, fun input queued => (ahead input queued).le, exact.within⟩
  have turned : service.turn inbox runner publishDue host =
      if after.executionDeadline.any fun deadline => deadline ≤ service.timing.ticks then
        after.pauseWith (some .executionDeadlineReached) host
      else
        let outcome := { after with emulator := after.emulator.drainUart inbox }.runBatch runner
          service.timing.ticks
        outcome.2.2.afterBatch outcome.1 outcome.2.1 publishDue host := by
    rw [← delivered]
    rfl
  rw [turned]
  split
  · rename_i reached
    have timing := after.timing_pauseWith (some .executionDeadlineReached) host
    rw [clock] at timing
    refine ⟨.pauseWith after due limited _ host fun _ => ?_,
      congrArg Timing.executionDeadline timing, congrArg Timing.scheduledUart timing⟩
    cases given : after.executionDeadline with
    | none =>
      rw [given] at reached
      cases reached
    | some deadline =>
      rw [given, Option.any_some, decide_eq_true_iff] at reached
      rw [clock]
      exact congrArg some (reached.antisymm (due.within deadline given |>.trans_eq' (by rw [clock])))
  · rename_i early
    have before (deadline : Nat) (given : after.executionDeadline = some deadline) :
        service.timing.ticks < deadline := by
      rw [given, Option.any_some, decide_eq_true_iff] at early
      exact Nat.lt_of_not_le early
    have drained : ({ after with emulator := after.emulator.drainUart inbox } : Service).timing =
        after.timing := by
      change Timing.mk (after.emulator.drainUart inbox).pace.1
        (after.emulator.drainUart inbox).pace.2 _ _ = _
      rw [Emulator.pace_drainUart]
      rfl
    have same := drained.trans clock
    have ready := OnTime.batch { after with emulator := after.emulator.drainUart inbox } contract
      (drained ▸ due) (by rw [same]; exact queue ▸ ahead) (by rw [same]; exact before) limited
      shown publishDue host
    rw [same] at ready
    exact ⟨ready.1, ready.2.1.trans (congrArg Timing.executionDeadline clock),
      ready.2.2.trans queue⟩

/-! ### Runs -/

/-- A step in which the loop finds the service running. -/
def Turns (service : Service) : Step → Prop
  | .turn .. => service.live = true ∧ service.lifecycle = .running
  | _ => False

instance (service : Service) (next : Step) : Decidable (service.Turns next) := by
  cases next <;> unfold Turns <;> infer_instance

/-- The inputs a step delivers, each with the tick the machine has then. -/
def deliveries (service : Service) (next : Step) : List (Nat × ScheduledUartInput) :=
  if service.Turns next then
    (due ScheduledUartInput.atTick service.timing.ticks service.scheduledUart).map
      (service.timing.ticks, ·)
  else []

/-- The bytes a step delivers to a port. -/
def deliveredBytes (service : Service) (next : Step) (port : UartPort) : List U8 :=
  bytesFor port ((service.deliveries next).map Prod.snd)

/-- What a step makes of the receive queues. A turn of a running service appends the bytes of its
deliveries and, unless it stops at the deadline, those of the inbox; its batch starts from there, at
the same tick and before any instruction. Nothing else adds a byte. -/
structure Feeds (service : Service) (next : Step) : Prop where
  turn : ∀ inbox runner publishDue host, next = .turn inbox runner publishDue host →
    service.Turns next →
      (service.executionDeadline = some service.timing.ticks ∧
        Receives service.backend (service.step next).backend (service.deliveredBytes next)) ∨
      ∃ fed budget boundary,
        Receives service.backend fed (fun port => service.deliveredBytes next port ++ inbox port) ∧
        Idles (runner fed (fed.cpu.read .pc) service.emulator.stop budget boundary).2
          (service.step next).backend
  waits : ¬ service.Turns next → ∀ port, (uartOf (service.step next).backend.machine.bus port).rx <:+
    (uartOf service.backend.machine.bus port).rx

/-- All inputs a run delivers, oldest first. -/
def delivered : Service → List Step → List (Nat × ScheduledUartInput)
  | _, [] => []
  | service, next :: steps => service.deliveries next ++ delivered (service.step next) steps

/-- A turn leaves only what comes after its tick in the queue. -/
def Served (service : Service) (next : Step) : Prop :=
  service.Turns next → ∀ input ∈ (service.step next).scheduledUart,
    service.timing.ticks < input.atTick

/-- A step that is no turn of a running service neither delivers nor lets time pass. -/
theorem OnTime.pass (onTime : OnTime service) {next : Step} (admitted : Admitted next)
    (waits : ¬ service.Turns next) :
    OnTime (service.step next) ∧ (service.step next).timing = service.timing := by
  cases live : service.live with
  | false =>
    have idle : service.step next = service := by
      simp only [Service.step, live, Bool.not_false, if_true]
    rw [idle]
    exact ⟨onTime, rfl⟩
  | true =>
    cases next with
    | command command host =>
      simp only [Service.step, live, Bool.not_true, Bool.false_eq_true, if_false]
      exact onTime.processCommand admitted host
    | disconnected host =>
      have kept : Command.shutdown ≠ .reset := by decide
      simp only [Service.step, live, Bool.not_true, Bool.false_eq_true, if_false]
      exact onTime.processCommand kept host
    | turn inbox runner publishDue host =>
      have paused : service.lifecycle ≠ .running := fun running => waits ⟨live, running⟩
      have idle : service.step (.turn inbox runner publishDue host) = service := by
        simp only [Service.step, live, Bool.not_true, Bool.false_eq_true, if_false, paused]
      rw [idle]
      exact ⟨onTime, rfl⟩

theorem OnTime.step (onTime : OnTime service) {next : Step} (admitted : Admitted next) :
    OnTime (service.step next) ∧
      (service.step next).executionDeadline = service.executionDeadline ∧
      (service.deliveries next).map Prod.snd ++ (service.step next).scheduledUart =
        service.scheduledUart ∧ service.Served next := by
  by_cases turns : service.Turns next
  · cases next with
    | command command host => cases turns
    | disconnected host => cases turns
    | turn inbox runner publishDue host =>
      obtain ⟨live, running⟩ := turns
      obtain ⟨after, deadline, queue⟩ := onTime.turn live running inbox admitted publishDue host
      have taken : service.step (.turn inbox runner publishDue host) =
          service.turn inbox runner publishDue host := by
        simp only [Service.step, live, running, Bool.not_true, Bool.false_eq_true, if_false,
          if_true]
      rw [Served, taken, queue, deliveries, if_pos ⟨live, running⟩, List.map_map]
      refine ⟨after, deadline, ?_, fun _ => later_ahead onTime.exact.sorted⟩
      simpa using due_append_later
  · obtain ⟨after, timing⟩ := onTime.pass admitted turns
    refine ⟨after, congrArg Timing.executionDeadline timing, ?_, fun taken => absurd taken turns⟩
    rw [deliveries, if_neg turns]
    exact congrArg Timing.scheduledUart timing

theorem OnTime.feeds (onTime : OnTime service) {next : Step} (admitted : Admitted next) :
    service.Feeds next := by
  refine ⟨fun inbox runner publishDue host same turns => ?_, fun waits port => ?_⟩
  · subst same
    obtain ⟨live, running⟩ := turns
    have received := service.receives_deliverScheduled service.timing.ticks
    have taken : service.step (.turn inbox runner publishDue host) =
        service.turn inbox runner publishDue host := by
      simp only [Service.step, live, running, Bool.not_true, Bool.false_eq_true, if_false, if_true]
    have bytes : service.deliveredBytes (.turn inbox runner publishDue host) = fun port =>
        bytesFor port (due ScheduledUartInput.atTick service.timing.ticks
          service.scheduledUart) := by
      funext port
      rw [deliveredBytes, deliveries, if_pos ⟨live, running⟩, List.map_map]
      simp only [Function.comp_def, List.map_id']
    rw [taken, bytes]
    by_cases reached : service.executionDeadline.any
        (fun deadline => deadline ≤ service.timing.ticks) = true
    · left
      have paused : service.turn inbox runner publishDue host =
          (service.deliverScheduled service.timing.ticks).pauseWith
            (some .executionDeadlineReached) host := if_pos reached
      rw [paused]
      refine ⟨?_, received.thenIdle (idles_pauseWith _ _ host)⟩
      cases given : service.executionDeadline with
      | none =>
        rw [given] at reached
        cases reached
      | some deadline =>
        rw [given, Option.any_some, decide_eq_true_iff] at reached
        exact congrArg some (reached.antisymm (onTime.exact.within deadline given))
    · right
      let after := service.deliverScheduled service.timing.ticks
      let fed : Service := { after with emulator := after.emulator.drainUart inbox }
      let outcome := fed.runBatch runner service.timing.ticks
      refine ⟨fed.backend, fed.instructionBudget service.timing.ticks,
        fed.tickBoundary service.timing.ticks,
        received.trans (after.emulator.receives_drainUart inbox), ?_⟩
      have ran : service.turn inbox runner publishDue host =
          outcome.2.2.afterBatch outcome.1 outcome.2.1 publishDue host := if_neg reached
      rw [ran, ← service.stop_deliverScheduled service.timing.ticks,
        ← after.emulator.stop_drainUart inbox]
      exact outcome.2.2.idles_afterBatch outcome.1 outcome.2.1 publishDue host
  · cases live : service.live with
    | false =>
      have idle : service.step next = service := by
        simp only [Service.step, live, Bool.not_false, if_true]
      rw [idle]
    | true =>
      cases next with
      | command command host =>
        simp only [Service.step, live, Bool.not_true, Bool.false_eq_true, if_false]
        exact service.suffix_processCommand admitted host port
      | disconnected host =>
        simp only [Service.step, live, Bool.not_true, Bool.false_eq_true, if_false]
        exact (service.idles_stop host).idle_suffix port
      | turn inbox runner publishDue host =>
        have paused : service.lifecycle ≠ .running := fun running => waits ⟨live, running⟩
        have idle : service.step (.turn inbox runner publishDue host) = service := by
          simp only [Service.step, live, Bool.not_true, Bool.false_eq_true, if_false, paused]
        rw [idle]

/-- What a step delivers is delivered at its own tick. -/
theorem OnTime.deliveries_exact (onTime : OnTime service) (next : Step) :
    ∀ entry ∈ service.deliveries next, entry.1 = entry.2.atTick ∧
      ∀ deadline, service.executionDeadline = some deadline → entry.2.atTick ≤ deadline := by
  intro entry member
  unfold deliveries at member
  split at member
  · obtain ⟨input, taken, rfl⟩ := List.mem_map.mp member
    have same := due_exact onTime.exact.ahead input taken
    exact ⟨same.symm, fun deadline given => same ▸ onTime.exact.within deadline given⟩
  · cases member

/-- A run delivers from the front of the queue, each input at its own tick. -/
theorem run_delivered (onTime : OnTime service) (steps : List Step)
    (admitted : ∀ next ∈ steps, Admitted next) :
    (delivered service steps).map Prod.snd ++ (run step service steps).scheduledUart =
        service.scheduledUart ∧
      (∀ entry ∈ delivered service steps, entry.1 = entry.2.atTick ∧
        ∀ deadline, service.executionDeadline = some deadline → entry.2.atTick ≤ deadline) ∧
      Throughout step (fun state next => state.Served next ∧ state.Feeds next) service steps := by
  induction steps generalizing service with
  | nil => exact ⟨rfl, fun entry member => (by cases member), trivial⟩
  | cons next steps ih =>
    obtain ⟨after, deadline, queue, served⟩ := onTime.step (admitted next (.head _))
    obtain ⟨rest, timely, serving⟩ := ih after fun other member => admitted other (.tail _ member)
    refine ⟨?_, fun entry member => ?_, ⟨served, onTime.feeds (admitted next (.head _))⟩, serving⟩
    · rw [delivered, List.map_append, List.append_assoc, run_cons, rest, queue]
    · rw [delivered, List.mem_append] at member
      rcases member with now | later
      · exact onTime.deliveries_exact next entry now
      · exact deadline ▸ timely entry later

/-- The clock has not moved. -/
def Unstarted (machine : Machine) : Prop := machine.ticks = 0

/-- A machine that was just configured has not run. -/
theorem unstarted_configured {blockMediaPaths : Fin 2 → Option String}
    {initialRamWrites : List (PhysicalAddress × List U8)} {source machine : Machine}
    {read : Fin 2 → Except IoError (List U8)}
    (configured : configuredMachine blockMediaPaths initialRamWrites source read = .ok machine) :
    Unstarted machine :=
  configured_invariant rfl (fun _ _ _ _ unstarted _ => unstarted)
    (fun _ _ unstarted => unstarted) configured

/-- A service that has started is on time, with the inputs of its configuration queued. -/
theorem onTime_start {config : RuntimeConfig}
    (started : Service.start config host = .ok service) :
    OnTime service ∧ service.executionDeadline = config.executionDeadline ∧
      StableOrder ScheduledUartInput.atTick config.scheduledUart service.scheduledUart := by
  obtain ⟨emulator, created, started⟩ := bind_ok started
  obtain ⟨machine, configured, created⟩ := bind_ok created
  obtain ⟨backend, built, created⟩ := bind_ok created
  obtain ⟨backend', positioned, created⟩ := bind_ok created
  cases created
  cases started
  have order := stableOrder_mergeSort ScheduledUartInput.atTick config.scheduledUart
  have zero : backend'.machine.ticks = 0 := by
    rw [machine_setProgramCounter positioned, machine_newBackend built]
    exact unstarted_configured configured
  refine ⟨.hidden ⟨?_, order.sorted, fun input _ => ?_, fun deadline _ => ?_⟩ (fun _ => ?_) ?_,
    rfl, order⟩
  · exact le_max_right _ _
  · exact zero.trans_le (Nat.zero_le _)
  · exact zero.trans_le (Nat.zero_le _)
  · exact fun limited => by cases limited
  · exact fun shown => by cases shown

/-- In every run of a service that has started, without a reset and over batches that keep to
their tick deadline: the inputs are delivered from the front of the configured ones in the order
of their ticks, each at its own tick and none past the deadline; their bytes are what a turn appends to
the receive queues before its batch, and nothing else is appended but the inbox; what is still queued
is not overdue, and a turn leaves nothing queued for its own tick; and the clock never passes the
deadline and stands at it when the service shows that it has been reached. -/
theorem scheduled_input_exact (config : RuntimeConfig) (host : HostOutcomes) (service : Service)
    (started : Service.start config host = .ok service) (steps : List Step)
    (admitted : ∀ next ∈ steps, Admitted next) :
    StableOrder ScheduledUartInput.atTick config.scheduledUart
        ((delivered service steps).map Prod.snd ++ (run step service steps).scheduledUart) ∧
      (∀ entry ∈ delivered service steps, entry.1 = entry.2.atTick ∧
        ∀ deadline, config.executionDeadline = some deadline → entry.2.atTick ≤ deadline) ∧
      Throughout step (fun state next => state.Served next ∧ state.Feeds next) service steps ∧
      ∀ state ∈ visited step service steps,
        (∀ input ∈ state.scheduledUart, state.timing.ticks ≤ input.atTick) ∧
        (∀ deadline, config.executionDeadline = some deadline →
          state.timing.ticks ≤ deadline) ∧
        (state.status.lastStop = some .executionDeadlineReached →
          config.executionDeadline = some state.timing.ticks) := by
  obtain ⟨onTime, deadline, order⟩ := onTime_start started
  obtain ⟨front, timely, served⟩ := run_delivered onTime steps admitted
  rw [deadline] at timely
  refine ⟨front.symm ▸ order, timely, served, fun state member => ?_⟩
  have kept (state : Service) (next : Step) (allowed : Admitted next)
      (held : OnTime state ∧ state.executionDeadline = config.executionDeadline) :
      OnTime (state.step next) ∧
        (state.step next).executionDeadline = config.executionDeadline := by
    obtain ⟨after, same, _⟩ := held.1.step allowed
    exact ⟨after, same.trans held.2⟩
  obtain ⟨there, same⟩ := visited_invariant kept service steps ⟨onTime, deadline⟩ admitted state
    member
  refine ⟨there.exact.ahead, fun limit given => ?_, fun shown => ?_⟩
  · exact there.exact.within limit (same.trans given)
  · exact same.symm.trans (there.paused shown)

/-- Three inputs out of order, one of them past the deadline. -/
def scriptedConfig : RuntimeConfig where
  machine := .default
  entry := 0x8000
  stop := 0
  instructionBatch := 64
  blockMediaPaths := fun _ => none
  initialRamWrites := []
  startPaused := false
  executionDeadline := some 3
  scheduledUart := [⟨4, .uart0, [0x63]⟩, ⟨2, .uart1, [0x62]⟩, ⟨0, .uart0, [0x61]⟩]

theorem scriptedConfig_sorted :
    (scriptedConfig.scheduledUart.mergeSort fun first second => first.atTick ≤ second.atTick) =
      [⟨0, .uart0, [0x61]⟩, ⟨2, .uart1, [0x62]⟩, ⟨4, .uart0, [0x63]⟩] := by
  simp [scriptedConfig, List.mergeSort, List.MergeSort.Internal.splitInTwo, List.splitAt,
    List.splitAt.go]

/-- A batch of one tick. -/
def tickRunner : Runner := fun backend _ _ _ tickDeadline =>
  (.ok .instructionBudget,
    if tickDeadline.any (backend.machine.ticks < ·) then
      { backend with machine := backend.machine.tick }
    else backend)

theorem stopsByDeadline_tickRunner : StopsByDeadline tickRunner := by
  intro backend start stop budget deadline positive early
  simp only [tickRunner, Option.any_some, decide_eq_true_eq]
  split
  · rename_i before
    exact before
  · exact early

/-- Four turns, with nothing in the inbox. -/
def scriptedTurns : List Step := List.replicate 4 (.turn (fun _ => []) tickRunner false fullDisk)

/-- The bytes of the first two inputs are received at their ticks, and the deadline pauses over the
third. -/
theorem scheduled_input_exact_scripted :
    ∃ service, Service.start scriptedConfig fullDisk = .ok service ∧
      Throughout step (fun state next => state.Served next ∧ state.Feeds next) service
        scriptedTurns ∧
      (delivered service scriptedTurns).map (fun entry => (entry.1, entry.2.port, entry.2.bytes)) =
        [(0, .uart0, [0x61]), (2, .uart1, [0x62])] ∧
      (run step service scriptedTurns).backend.machine.bus.uart0.rx = [0x61] ∧
      (run step service scriptedTurns).backend.machine.bus.uart1.rx = [0x62] ∧
      (run step service scriptedTurns).status.lastStop = some .executionDeadlineReached := by
  obtain ⟨service, started⟩ := start_ok scriptedConfig fullDisk rfl
  refine ⟨service, started, ?_, ?_⟩
  · have admitted : ∀ next ∈ scriptedTurns, Admitted next := by
      intro next member
      obtain rfl := List.eq_of_mem_replicate member
      exact stopsByDeadline_tickRunner
    exact (scheduled_input_exact scriptedConfig fullDisk service started scriptedTurns admitted).2.2.1
  · cases started
    rw [scriptedConfig_sorted]
    exact ⟨rfl, rfl, rfl, rfl⟩

end Service

end Minemu.Runtime
