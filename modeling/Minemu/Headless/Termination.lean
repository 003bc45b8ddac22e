import Minemu.Headless.StartMemory
import Minemu.Image.Conformance
import Minemu.Runtime.Progress

/-! Every headless run ends: as many turns as it was given ticks, and one more, bring it to its
deadline unless a BKPT or a failure has ended it before. -/

namespace Minemu.Headless

open Library Platform Minemu.Core Minemu.Image Minemu.Runtime Minemu.Unicorn

variable {maxTicks elapsed : Nat} {service : Service}

/-- The step a turn over an engine is. -/
def turnStep (turn : Turn) : Service.Step :=
  .turn turn.inbox (Service.adapterRunner turn.engine) turn.publishDue turn.host

/-- How a headless run ends, as its status shows it. -/
inductive Ended (maxTicks : Nat) (service : Service) : Prop
  | deadline (paused : service.lifecycle = .paused) (shown : service.status.lifecycle = .paused)
      (lastStop : service.status.lastStop = some .executionDeadlineReached)
      (ticks : service.status.machine.ticks = maxTicks)
  | breakpoint (paused : service.lifecycle = .paused) (shown : service.status.lifecycle = .paused)
      (immediate : U16) (address : U32)
      (lastStop : service.status.lastStop = some (.breakpoint immediate address))
      (ticks : service.status.machine.ticks ≤ maxTicks)
  | failed (dead : service.live = false) (shown : service.status.lifecycle = .failed)
      (error : ErrorText) (lastError : service.status.lastError = some error)

/-- A headless run on its way, with the ticks that have passed at least. -/
structure Paced (maxTicks elapsed : Nat) (service : Service) : Prop where
  onTime : Service.OnTime service
  deadline : service.executionDeadline = some maxTicks
  live : service.live = true
  running : service.lifecycle = .running
  shown : service.status.lifecycle = .running
  unlimited : service.remainingInstructions = none
  endless : service.emulator.stop = BitVec.allOnes 32
  elapsed : elapsed ≤ service.emulator.backend.machine.ticks

theorem Ended.step (ended : Ended maxTicks service) (turn : Turn) :
    service.step (turnStep turn) = service := by
  cases ended with
  | deadline paused | breakpoint paused =>
    simp only [Service.step, turnStep, paused, reduceCtorEq, ↓reduceIte, ite_self]
  | failed dead => simp only [Service.step, dead, Bool.not_false, ↓reduceIte]

/-! ### One turn -/

theorem ticks_pauseWith (service : Service) (lastStop : Option StopText) (host : HostOutcomes) :
    (service.pauseWith lastStop host).status.machine.ticks =
      service.emulator.backend.machine.ticks :=
  congrArg Timing.ticks (service.timing_pauseWith lastStop host)

theorem stop_deliverUart (emulator : Emulator) (port : UartPort) (bytes : List U8) :
    (emulator.deliverUart port bytes).stop = emulator.stop := by
  induction bytes generalizing emulator with
  | nil => rfl
  | cons byte bytes ih =>
    cases port with
    | uart0 => exact ih (emulator.setBus (emulator.backend.machine.bus.updateUart0 (.receive byte)))
    | uart1 => exact ih (emulator.setBus (emulator.backend.machine.bus.updateUart1 (.receive byte)))

theorem stop_ready (service : Service) (inbox : UartPort → List U8) :
    (service.ready inbox).emulator.stop = service.emulator.stop := by
  have scheduled (inputs : List ScheduledUartInput) (emulator : Emulator) :
      (inputs.foldl (fun emulator input => emulator.deliverUart input.port input.bytes)
        emulator).stop = emulator.stop := by
    induction inputs generalizing emulator with
    | nil => rfl
    | cons input inputs ih =>
      exact (ih _).trans (stop_deliverUart emulator input.port input.bytes)
  unfold Service.ready Emulator.drainUart
  simp only
  rw [stop_deliverUart, stop_deliverUart]
  exact scheduled _ service.emulator

/-- What follows a batch that neither the limit nor a disturbance ended. -/
theorem afterBatch_going {stop : BackendStop} (undisturbed : Counted.isDisturbance stop = false)
    (publishDue : Bool) (host : HostOutcomes) :
    service.afterBatch (.ok stop) false publishDue host =
      if publishDue then service.publish service.lifecycle (some (.stop stop)) none
      else service := by
  cases stop with
  | breakpoint address immediate => cases undisturbed
  | unicorn error => cases undisturbed
  | instructionBudget | mmioFault | mmuFault | cp15Boundary | exception => rfl

/-- A BKPT pauses the run, and a failure of the engine ends it. -/
theorem ended_disturbed {stop : BackendStop} (disturbed : Counted.isDisturbance stop = true)
    (publishDue : Bool) (host : HostOutcomes)
    (within : (service.afterBatch (.ok stop) false publishDue host).timing.ticks ≤ maxTicks) :
    Ended maxTicks (service.afterBatch (.ok stop) false publishDue host) := by
  cases stop with
  | breakpoint address immediate =>
    have shows := Service.pauseWith_shows { service with
      remainingInstructions := none
      pendingBreakpoint := some address } (some (.breakpoint immediate address)) host
    exact .breakpoint shows.1 rfl immediate address shows.2.2 within
  | unicorn error => exact .failed rfl rfl _ rfl
  | instructionBudget | cp15Boundary => cases disturbed
  | mmioFault address access detail => cases disturbed
  | mmuFault fault => cases disturbed
  | exception kind => cases disturbed

/-- The call that a turn makes. -/
def batchCall (service : Service) (turn : Turn) : BackendStop × UnicornBackend :=
  (service.ready turn.inbox).emulator.backend.call turn.engine
    ((service.ready turn.inbox).nextCall service.emulator.backend.machine.ticks)

/-- The service that a turn leaves its batch with. -/
def ranBatch (service : Service) (turn : Turn) : Service :=
  let ready := service.ready turn.inbox
  { ready with emulator := { ready.emulator with backend := (batchCall service turn).2 } }.note .batch

theorem Paced.step_eq (paced : Paced maxTicks elapsed service)
    (early : service.deadlineReached = false) (turn : Turn) :
    service.step (turnStep turn) = (ranBatch service turn).afterBatch
      (.ok (batchCall service turn).1) false turn.publishDue turn.host := by
  have free : (service.ready turn.inbox).remainingInstructions = none := paced.unlimited
  have ran : (service.ready turn.inbox).runBatch (Service.adapterRunner turn.engine)
      service.emulator.backend.machine.ticks =
        (.ok (batchCall service turn).1, false, ranBatch service turn) := by
    unfold Service.runBatch ranBatch
    rw [free]
    simp only [Option.map_none, reduceCtorEq, decide_false]
    rw [← free]
    rfl
  simp only [Service.step, turnStep, paced.live, paced.running, Bool.not_true, Bool.false_eq_true,
    ↓reduceIte]
  rw [Service.turn_eq, early, if_neg Bool.false_ne_true, ran]

/-- The call of a turn advances. -/
theorem Paced.advances (paced : Paced maxTicks elapsed service) (turn : Turn) (progress : MakesProgress turn.engine) :
    UnicornBackend.Advances service.emulator.backend.machine.ticks (batchCall service turn) := by
  have pace := service.pace_ready turn.inbox
  have ticks : (service.ready turn.inbox).emulator.backend.machine.ticks =
      service.emulator.backend.machine.ticks := congrArg Prod.fst pace
  have size : (service.ready turn.inbox).emulator.instructionBatch =
      service.emulator.instructionBatch := congrArg Prod.snd pace
  have free : (service.ready turn.inbox).remainingInstructions = none := paced.unlimited
  rw [← ticks]
  apply UnicornBackend.advances_call progress
  · exact if_pos ((stop_ready service turn.inbox).trans paced.endless)
  · refine Service.instructionBudget_pos (size ▸ paced.onTime.exact.batch) ?_ fun _ =>
      Service.tickBoundary_ahead
    rw [free]
    exact fun limited => by cases limited
  · change Option.any _ ((service.ready turn.inbox).tickBoundary _) = false
    cases bounded : (service.ready turn.inbox).tickBoundary
        service.emulator.backend.machine.ticks with
    | none => rfl
    | some boundary =>
      have ahead := Service.tickBoundary_ahead bounded
      rw [Option.any_some, ticks]
      exact decide_eq_false (Nat.not_le_of_gt ahead)

/-- A turn before the deadline: time passes, or the run ends. -/
theorem Paced.batch (paced : Paced maxTicks elapsed service)
    (early : service.deadlineReached = false) (turn : Turn) (bounded : ExecutesAtMost turn.engine)
    (progress : MakesProgress turn.engine) :
    Paced maxTicks (elapsed + 1) (service.step (turnStep turn)) ∨
      Ended maxTicks (service.step (turnStep turn)) := by
  have admitted : Service.Admitted (turnStep turn) := stopsByDeadline_adapterRunner bounded
  obtain ⟨onTime, deadline, -⟩ := paced.onTime.step admitted
  have within := onTime.exact.within maxTicks (deadline.trans paced.deadline)
  have advances := paced.advances turn progress
  rw [paced.step_eq early turn] at onTime deadline within ⊢
  cases disturbed : Counted.isDisturbance (batchCall service turn).1 with
  | true => exact .inr (ended_disturbed disturbed _ _ within)
  | false =>
    rcases advances with noted | later
    · rw [disturbed] at noted
      cases noted
    · refine .inl ?_
      have exits : (ranBatch service turn).emulator.stop = BitVec.allOnes 32 :=
        (stop_ready service turn.inbox).trans paced.endless
      have passed : elapsed + 1 ≤ (ranBatch service turn).emulator.backend.machine.ticks :=
        (Nat.add_le_add_right paced.elapsed 1).trans later
      have deadline := deadline.trans paced.deadline
      rw [afterBatch_going disturbed] at onTime deadline ⊢
      cases due : turn.publishDue with
      | true =>
        rw [due] at onTime deadline
        exact ⟨onTime, deadline, paced.live, paced.running, paced.running, paced.unlimited, exits,
          passed⟩
      | false =>
        rw [due] at onTime deadline
        exact ⟨onTime, deadline, paced.live, paced.running, paced.shown, paced.unlimited, exits,
          passed⟩

/-- A turn at the deadline delivers what is due and pauses. -/
theorem Paced.last_eq (paced : Paced maxTicks elapsed service)
    (reached : service.deadlineReached = true) (turn : Turn) :
    service.step (turnStep turn) =
      (service.deliverScheduled service.emulator.backend.machine.ticks).pauseWith
        (some .executionDeadlineReached) turn.host := by
  simp only [Service.step, turnStep, paced.live, paced.running, Bool.not_true,
    Bool.false_eq_true, ↓reduceIte]
  rw [Service.turn_eq, reached, if_pos rfl]

/-- A turn at the deadline ends the run. -/
theorem Paced.last (paced : Paced maxTicks elapsed service)
    (reached : service.deadlineReached = true) (turn : Turn) :
    Ended maxTicks (service.step (turnStep turn)) := by
  have late : maxTicks ≤ service.emulator.backend.machine.ticks := by
    rw [Service.deadlineReached, paced.deadline, Option.any_some] at reached
    exact of_decide_eq_true reached
  have within := paced.onTime.exact.within maxTicks paced.deadline
  have ticks : (service.deliverScheduled
      service.emulator.backend.machine.ticks).emulator.backend.machine.ticks =
        service.emulator.backend.machine.ticks :=
    congrArg Prod.fst (service.pace_deliverScheduled service.emulator.backend.machine.ticks)
  have shows := (service.deliverScheduled service.emulator.backend.machine.ticks).pauseWith_shows
    (some .executionDeadlineReached) turn.host
  rw [paced.last_eq reached turn]
  refine .deadline shows.1 rfl shows.2.2 ?_
  rw [ticks_pauseWith, ticks]
  exact within.antisymm late

/-! ### Runs -/

theorem paced_start {bootRom : List U8} {image : SystemImage}
    {blockMediaPaths : Fin 2 → Option String} {instructionBatch : Option ℕ+}
    {ramPrefill : List RamPrefill} {inputs : List HeadlessInput} {config : RuntimeConfig}
    {host : HostOutcomes}
    (configured : runtimeConfig bootRom image blockMediaPaths instructionBatch ramPrefill
      (some maxTicks) inputs = .ok config)
    (started : Service.start config host = .ok service) : Paced maxTicks 0 service := by
  obtain ⟨onTime, deadline, -⟩ := Service.onTime_start started
  obtain ⟨memory, roms, configured⟩ := bind_ok configured
  obtain ⟨scheduled, inputsTaken, configured⟩ := bind_ok configured
  obtain ⟨writes, filled, configured⟩ := bind_ok configured
  cases configured
  obtain ⟨emulator, created, started⟩ := bind_ok started
  obtain ⟨machine, assembled, created⟩ := bind_ok created
  obtain ⟨backend, built, created⟩ := bind_ok created
  obtain ⟨backend', positioned, created⟩ := bind_ok created
  cases created
  cases started
  exact ⟨onTime, deadline, rfl, rfl, rfl, rfl, rfl, Nat.zero_le _⟩

/-- A run on its way or at its end stays so, a tick further with every turn. -/
theorem paced_or_ended_run (turns : List Turn)
    (lawful : ∀ turn ∈ turns, ExecutesAtMost turn.engine ∧ MakesProgress turn.engine)
    (state : Paced maxTicks elapsed service ∨ Ended maxTicks service) :
    let after := run Service.step service (turns.map turnStep)
    Paced maxTicks (elapsed + turns.length) after ∨ Ended maxTicks after := by
  induction turns generalizing service elapsed with
  | nil => exact state
  | cons turn turns ih =>
    obtain ⟨⟨bounded, progress⟩, others⟩ := List.forall_mem_cons.mp lawful
    rw [List.map_cons, run_cons, List.length_cons, Nat.add_comm turns.length, ← Nat.add_assoc]
    apply ih others
    rcases state with paced | ended
    · cases reached : service.deadlineReached with
      | true => exact .inr (paced.last reached turn)
      | false => exact paced.batch reached turn bounded progress
    · rw [ended.step turn]
      exact .inr ended

/-- A headless run shows Running with a tick at least for each of its turns and none past its
budget, or it has ended: paused at its last tick or at a BKPT, or failed with an error. One turn
more than it has ticks brings it to its end. -/
theorem headless_run_ends (bootRom : List U8) (image : SystemImage)
    (blockMediaPaths : Fin 2 → Option String) (instructionBatch : Option ℕ+)
    (ramPrefill : List RamPrefill) (maxTicks : Nat) (inputs : List HeadlessInput)
    (config : RuntimeConfig)
    (configured : runtimeConfig bootRom image blockMediaPaths instructionBatch ramPrefill
      (some maxTicks) inputs = .ok config)
    (host : HostOutcomes) (service : Service) (started : Service.start config host = .ok service)
    (turns : List Turn)
    (lawful : ∀ turn ∈ turns, ExecutesAtMost turn.engine ∧ MakesProgress turn.engine) :
    let after := run Service.step service (turns.map turnStep)
    (Ended maxTicks after ∨ after.status.lifecycle = .running ∧
      turns.length ≤ after.emulator.backend.machine.ticks ∧
      after.emulator.backend.machine.ticks ≤ maxTicks) ∧
    (maxTicks < turns.length → Ended maxTicks after) := by
  have state := paced_or_ended_run turns lawful (.inl (paced_start configured started))
  rw [Nat.zero_add] at state
  intro after
  rcases state with paced | ended
  · have within := paced.onTime.exact.within maxTicks paced.deadline
    refine ⟨.inr ⟨paced.shown, paced.elapsed, within⟩, fun enough => ?_⟩
    exact absurd (paced.elapsed.trans within) (Nat.not_le_of_gt enough)
  · exact ⟨.inl ended, fun _ => ended⟩

/-- A boot ROM of its full size that starts with these words. -/
def bootRomOf (words : List U32) : List U8 :=
  let program := words.flatMap fun word => toBytes 4 word.toNat
  program ++ List.replicate (65536 - program.length) 0

/-- A machine with this boot ROM and an image of two modules. -/
def romMachine (words : List U32) : Machine :=
  .new { PhysicalMemory.empty with
    bootRom := fun index => (bootRomOf words)[index.val]?.getD 0
    systemRom := fun index => modularImage[index.val]?.getD 0 } 4096

/-- Its configuration with some ticks to run. -/
def romConfig (words : List U32) (maxTicks : Nat) : RuntimeConfig :=
  { newConfig (romMachine words) MemRegion.bootRom.base.get with executionDeadline := some maxTicks }

theorem withRoms_bootRomOf {words : List U32} (small : words.length ≤ 16384) :
    (bootRomOf words).length = 65536 ∧
      PhysicalMemory.withRoms (bootRomOf words) modularImage = .ok (romMachine words).memory := by
  have program : (words.flatMap fun word => toBytes 4 word.toNat).length = words.length * 4 := by
    rw [List.length_flatMap]
    simp [length_toBytes]
  have whole : (bootRomOf words).length = 65536 := by
    simp only [bootRomOf, List.length_append, List.length_replicate, program]
    omega
  have fits : modularImage.length ≤ 0x100_0000 := by decide +kernel
  exact ⟨whole, withRoms_eq_ok.mpr ⟨whole.le, fits, rfl⟩⟩

theorem runtimeConfig_romConfig {words : List U32} (small : words.length ≤ 16384)
    (maxTicks : Nat) :
    runtimeConfig (bootRomOf words) modularDecoded (fun _ => none) none [] (some maxTicks) [] =
      .ok (romConfig words maxTicks) := by
  have roms : PhysicalMemory.withRoms (bootRomOf words) modularDecoded.bytes =
      .ok (romMachine words).memory := (withRoms_bootRomOf small).2
  rw [runtimeConfig, roms]
  rfl

/-- A turn over an engine whose every batch is an SVC. -/
def svcTurn : Turn := ⟨fun _ => [], UnicornBackend.svcEngine, false, Service.fullDisk⟩

theorem makesProgress_svcEngine : MakesProgress UnicornBackend.svcEngine := by
  intro backend start stop count positive endless events emulated
  cases emulated
  exact .inl (backend.clearFlags.emulate_frame [.code 0 4 (some 0xef00_0000)]).2.1.ge

set_option maxRecDepth 8000 in
/-- The boot ROM starts with the SVC and has its full size. -/
theorem headless_run_ends_svc : ∃ service,
    (bootRomOf [0xef00_0000]).length = 65536 ∧
      (romMachine [0xef00_0000]).memory.readU32 ⟨0⟩ = .ok 0xef00_0000#32 ∧
      runtimeConfig (bootRomOf [0xef00_0000]) modularDecoded (fun _ => none) none [] (some 1) [] =
        .ok (romConfig [0xef00_0000] 1) ∧
      Service.start (romConfig [0xef00_0000] 1) Service.fullDisk = .ok service ∧
      Ended 1 (run Service.step service ([svcTurn, svcTurn].map turnStep)) := by
  have configured := runtimeConfig_romConfig (show [0xef00_0000#32].length ≤ 16384 by decide) 1
  obtain ⟨service, started⟩ := Service.start_ok (romConfig [0xef00_0000] 1) Service.fullDisk rfl
  refine ⟨service, (withRoms_bootRomOf (by decide)).1, by decide, configured, started, ?_⟩
  have lawful : ∀ turn ∈ [svcTurn, svcTurn],
      ExecutesAtMost turn.engine ∧ MakesProgress turn.engine := by
    intro turn member
    obtain rfl : turn = svcTurn := by simpa using member
    exact ⟨fun _ _ _ _ positive => positive, makesProgress_svcEngine⟩
  exact (headless_run_ends _ _ _ _ _ _ _ _ configured _ _ started _ lawful).2 (by decide)

end Minemu.Headless
