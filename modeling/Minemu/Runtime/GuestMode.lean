import Minemu.Runtime.ScheduledInput

/-! What the guest is doing as far as the service goes: running with or without an instruction
limit, paused, or ended. Commands change it, and so does the guest itself, by reaching its limit,
a breakpoint or a failure. -/

namespace Minemu.Runtime

open Library Platform Minemu.Core Minemu.Unicorn

inductive GuestMode where
  | unbounded
  | bounded (remaining : Nat)
  | paused
  | ended
deriving DecidableEq

namespace GuestMode

/-- What a command makes of the mode when it does not fail. -/
def effect (mode : GuestMode) (command : Command) : GuestMode :=
  match command, mode with
  | .shutdown, _ => ended
  | .pause, unbounded | .pause, bounded _ => paused
  | .resume limit, paused => limit.elim unbounded fun count => bounded count
  | _, mode => mode

/-- What queued commands make of it. -/
def settle (mode : GuestMode) (queue : List Command) : GuestMode := queue.foldl effect mode

/-- The guest goes on doing what it did; a limit can only run down. -/
def Steady : GuestMode → GuestMode → Prop
  | bounded before, bounded after => after ≤ before
  | before, after => before = after

instance : DecidableRel Steady
  | bounded before, bounded after => inferInstanceAs (Decidable (after ≤ before))
  | unbounded, after => inferInstanceAs (Decidable (unbounded = after))
  | paused, after => inferInstanceAs (Decidable (paused = after))
  | ended, after => inferInstanceAs (Decidable (ended = after))
  | bounded before, unbounded => inferInstanceAs (Decidable (bounded before = unbounded))
  | bounded before, paused => inferInstanceAs (Decidable (bounded before = paused))
  | bounded before, ended => inferInstanceAs (Decidable (bounded before = ended))

/-- The guest goes on, or pauses or ends of itself. -/
def Drifts (before after : GuestMode) : Prop :=
  Steady before after ∨ (after = paused ∧ before ≠ ended) ∨ after = ended

theorem Steady.refl (mode : GuestMode) : Steady mode mode := by
  cases mode <;> simp [Steady]

theorem Steady.trans {first second third : GuestMode} (before : Steady first second)
    (after : Steady second third) : Steady first third := by
  cases first <;> cases second <;> cases third <;> simp_all [Steady]
  omega

theorem Drifts.refl (mode : GuestMode) : Drifts mode mode := .inl (.refl mode)

theorem Drifts.trans {first second third : GuestMode} (before : Drifts first second)
    (after : Drifts second third) : Drifts first third := by
  cases first <;> cases second <;> cases third <;> simp_all [Drifts, Steady]
  omega

/-- Commands do not tell apart how much of a limit is left. -/
theorem Steady.effect {before after : GuestMode} (steady : Steady before after) (command : Command) :
    Steady (before.effect command) (after.effect command) := by
  cases before with
  | bounded before =>
    cases after with
    | bounded after => cases command <;> simp_all [Steady, GuestMode.effect]
    | unbounded | paused | ended => cases steady
  | unbounded | paused | ended =>
    cases after <;> cases steady
    exact .refl _

theorem Steady.settle {before after : GuestMode} (steady : Steady before after)
    (queue : List Command) : Steady (before.settle queue) (after.settle queue) := by
  induction queue generalizing before after with
  | nil => exact steady
  | cons command queue ih => exact ih (steady.effect command)

/-! ### What can come of it -/

/-- The modes the guest can be in once the queue has been taken, drifting in between. -/
inductive Outcome : GuestMode → List Command → GuestMode → Prop
  | drift {mode after : GuestMode} (drifts : Drifts mode after) : Outcome mode [] after
  | take {mode middle after : GuestMode} {command : Command} {queue : List Command}
      (drifts : Drifts mode middle) (rest : Outcome (middle.effect command) queue after) :
      Outcome mode (command :: queue) after

variable {mode after result : GuestMode} {queue : List Command}

/-- What can come of a mode it drifts to can come of the mode. -/
theorem Outcome.drifted (drifts : Drifts mode after) (outcome : Outcome after queue result) :
    Outcome mode queue result := by
  cases outcome with
  | drift later => exact .drift (drifts.trans later)
  | take later rest => exact .take (drifts.trans later) rest

theorem Outcome.taken {command : Command} (outcome : Outcome (mode.effect command) queue result) :
    Outcome mode (command :: queue) result := .take (.refl mode) outcome

/-- The last command acts on something that can come of the others. -/
theorem outcome_append {command : Command} : Outcome mode (queue ++ [command]) result ↔
    ∃ middle, Outcome mode queue middle ∧ Drifts (middle.effect command) result := by
  induction queue generalizing mode with
  | nil =>
    constructor
    · intro outcome
      cases outcome with
      | take drifts rest =>
        cases rest with
        | drift later => exact ⟨_, .drift drifts, later⟩
    · rintro ⟨middle, before, later⟩
      cases before with
      | drift drifts => exact .take drifts (.drift later)
  | cons first queue ih =>
    constructor
    · intro outcome
      cases outcome with
      | take drifts rest =>
        obtain ⟨middle, before, later⟩ := ih.mp rest
        exact ⟨middle, .take drifts before, later⟩
    · rintro ⟨middle, before, later⟩
      cases before with
      | take drifts rest => exact .take drifts (ih.mpr ⟨middle, rest, later⟩)

theorem Outcome.drifts (outcome : Outcome mode queue after) (later : Drifts after result) :
    Outcome mode queue result := by
  induction outcome with
  | drift drifts => exact .drift (drifts.trans later)
  | take drifts _ ih => exact .take drifts (ih later)

/-- Without drifting the queue settles the mode. -/
theorem outcome_settle (mode : GuestMode) (queue : List Command) :
    Outcome mode queue (mode.settle queue) := by
  induction queue generalizing mode with
  | nil => exact .drift (.refl mode)
  | cons command queue ih => exact (ih (mode.effect command)).taken

theorem settle_append (mode : GuestMode) (queue : List Command) (command : Command) :
    mode.settle (queue ++ [command]) = (mode.settle queue).effect command := by
  rw [settle, List.foldl_append]
  rfl

/-! ### Having ended -/

theorem Drifts.ended (mode : GuestMode) : Drifts mode ended := .inr (.inr rfl)

theorem ended_of_drifts (drifts : Drifts ended after) : after = ended := by
  rcases drifts with steady | ⟨-, awake⟩ | done
  · cases after <;> cases steady
    rfl
  · exact absurd rfl awake
  · exact done

theorem effect_ended (command : Command) : ended.effect command = ended := by cases command <;> rfl

/-- Every guest can end. -/
theorem outcome_ended (mode : GuestMode) (queue : List Command) : Outcome mode queue ended :=
  (outcome_settle mode queue).drifts (.ended _)

theorem settle_ended (queue : List Command) : ended.settle queue = ended := by
  induction queue with
  | nil => rfl
  | cons command queue ih =>
    change (ended.effect command).settle queue = ended
    rw [effect_ended, ih]

theorem Outcome.of_ended (outcome : Outcome ended queue result) : result = ended := by
  induction queue with
  | nil =>
    cases outcome with
    | drift drifts => exact ended_of_drifts drifts
  | cons command queue ih =>
    cases outcome with
    | take drifts rest =>
      rw [ended_of_drifts drifts, effect_ended] at rest
      exact ih rest

/-- Nothing but a shutdown ends a guest that has not ended. -/
theorem effect_eq_ended {command : Command} (ends : mode.effect command = ended) :
    mode = ended ∨ command = .shutdown := by
  cases command with
  | shutdown => exact .inr rfl
  | pause | reset | inspect request => cases mode <;> cases ends; exact .inl rfl
  | resume limit =>
    cases mode with
    | paused => cases limit <;> cases ends
    | unbounded | bounded remaining => cases ends
    | ended => exact .inl rfl

/-- A queue that ends the guest ends it whatever the guest does meanwhile. -/
theorem Outcome.of_settled (outcome : Outcome mode queue result) (settled : mode.settle queue = ended) :
    result = ended := by
  have ends (mode : GuestMode) : mode.settle queue = ended → mode = ended ∨ .shutdown ∈ queue := by
    clear outcome settled
    induction queue generalizing mode with
    | nil => exact .inl
    | cons command queue ih =>
      intro settled
      rcases ih (mode.effect command) settled with done | later
      · rcases effect_eq_ended done with before | rfl
        · exact .inl before
        · exact .inr (.head queue)
      · exact .inr (.tail command later)
  rcases ends mode settled with rfl | shutdown
  · exact outcome.of_ended
  · clear ends settled
    induction outcome with
    | drift => cases shutdown
    | take drifts rest ih =>
      rcases List.mem_cons.mp shutdown with rfl | later
      · exact rest.of_ended
      · exact ih later

/-- A pause leaves the guest paused, or ended. -/
theorem drifts_pause (drifts : Drifts (mode.effect .pause) result) :
    result = paused ∨ result = ended := by
  have pausing : mode.effect .pause = paused ∨ mode.effect .pause = ended := by
    cases mode with
    | unbounded | bounded remaining | paused => exact .inl rfl
    | ended => exact .inr rfl
  rcases pausing with idle | done
  · rw [idle] at drifts
    rcases drifts with steady | ⟨same, -⟩ | done
    · exact .inl steady.symm
    · exact .inl same
    · exact .inr done
  · rw [done] at drifts
    exact .inr (ended_of_drifts drifts)

end GuestMode

namespace Service

/-- The mode a service is in. -/
def mode (service : Service) : GuestMode :=
  match service.live, service.lifecycle with
  | true, .running => service.remainingInstructions.elim .unbounded .bounded
  | true, .paused => .paused
  | _, _ => .ended

variable {service : Service}

theorem mode_ended (ended : service.live = false) : service.mode = .ended := by
  rw [mode, ended]

theorem mode_paused (live : service.live = true) (paused : service.lifecycle = .paused) :
    service.mode = .paused := by
  rw [mode, live, paused]

theorem mode_running (live : service.live = true) (running : service.lifecycle = .running) :
    service.mode = service.remainingInstructions.elim .unbounded .bounded := by
  rw [mode, live, running]

theorem mode_congr {after : Service} (live : after.live = service.live)
    (lifecycle : after.lifecycle = service.lifecycle)
    (remaining : after.remainingInstructions = service.remainingInstructions) :
    after.mode = service.mode := by
  rw [mode, mode, live, lifecycle, remaining]

theorem flush_same (service : Service) (host : HostOutcomes) :
    (service.flush host).2.live = service.live ∧
      (service.flush host).2.lifecycle = service.lifecycle ∧
      (service.flush host).2.remainingInstructions = service.remainingInstructions := by
  rw [(service.flushes_flush host).same]
  exact ⟨rfl, rfl, rfl⟩

theorem mode_pauseWith (service : Service) (live : service.live = true) (lastStop : Option StopText)
    (host : HostOutcomes) : (service.pauseWith lastStop host).mode = .paused := by
  have kept := (flush_same { service with lifecycle := .paused } host).1
  exact mode_paused (kept.trans live) (service.pauseWith_shows lastStop host).1

theorem mode_reset (service : Service) (host : HostOutcomes) :
    (service.resetEmulator host).2.mode = service.mode := by
  obtain ⟨live, lifecycle, remaining⟩ := service.flush_same host
  unfold resetEmulator
  simp only
  split
  · exact mode_congr live lifecycle remaining
  · split
    · exact mode_congr live lifecycle remaining
    · split
      · exact mode_congr live lifecycle remaining
      · exact mode_congr live lifecycle remaining

theorem effect_reset (mode : GuestMode) : mode.effect .reset = mode := by cases mode <;> rfl

theorem effect_inspect (mode : GuestMode) (request : RuntimeInspectionRequest) :
    mode.effect (.inspect request) = mode := by cases mode <;> rfl

theorem step_live (live : service.live = true) (command : Command) (host : HostOutcomes) :
    service.step (.command command host) = service.processCommand command host := by
  simp only [step, live, Bool.not_true, Bool.false_eq_true, ↓reduceIte]

theorem mode_resume (live : service.live = true) (limit : Option ℕ+) (host : HostOutcomes) :
    (service.processCommand (.resume limit) host).mode = service.mode.effect (.resume limit) ∨
      (service.processCommand (.resume limit) host).mode = .ended := by
  cases lifecycle : service.lifecycle with
  | paused =>
    simp only [processCommand, lifecycle]
    split
    · exact .inr (mode_ended rfl)
    · left
      rw [mode_paused live lifecycle, mode_running]
      · cases limit <;> rfl
      · exact live
      · rfl
  | running =>
    left
    simp only [processCommand, lifecycle]
    rw [mode_running live lifecycle]
    cases service.remainingInstructions <;> rfl
  | starting | stopping | stopped | failed =>
    left
    simp only [processCommand, lifecycle, mode, live]
    rfl

theorem mode_processReset (service : Service) (host : HostOutcomes) :
    (service.processCommand .reset host).mode = service.mode := by
  have kept := service.mode_reset host
  cases lifecycle : service.lifecycle with
  | running | paused =>
    simp only [processCommand, lifecycle]
    cases reset : service.resetEmulator host with
    | mk error after =>
      rw [reset] at kept
      cases error <;> exact (mode_congr rfl rfl rfl).trans kept
  | starting | stopping | stopped | failed => simp only [processCommand, lifecycle]

/-- A command has its effect, or ends the service. -/
theorem mode_command (service : Service) (command : Command) (host : HostOutcomes) :
    (service.step (.command command host)).mode = service.mode.effect command ∨
      (service.step (.command command host)).mode = .ended := by
  cases live : service.live with
  | false =>
    right
    simp only [step, live, Bool.not_false, ↓reduceIte]
    exact mode_ended live
  | true =>
    rw [step_live live]
    cases command with
    | pause =>
      left
      cases lifecycle : service.lifecycle with
      | running =>
        simp only [processCommand, lifecycle]
        rw [mode_running live lifecycle, mode_pauseWith]
        · cases service.remainingInstructions <;> rfl
        · exact live
      | paused =>
        simp only [processCommand, lifecycle]
        rw [mode_paused live lifecycle]
        rfl
      | starting | stopping | stopped | failed =>
        simp only [processCommand, lifecycle, mode, live]
        rfl
    | resume limit => exact mode_resume live limit host
    | reset =>
      left
      rw [effect_reset]
      exact service.mode_processReset host
    | shutdown => exact .inr (mode_ended rfl)
    | inspect request =>
      left
      rw [effect_inspect]
      exact mode_congr rfl rfl rfl

/-- What follows a batch goes on, pauses or ends. -/
theorem drifts_afterBatch (live : service.live = true) (running : service.lifecycle = .running)
    (result : Except RuntimeError BackendStop) (limitReached publishDue : Bool)
    (host : HostOutcomes) :
    service.mode.Drifts (service.afterBatch result limitReached publishDue host).mode := by
  have awake : service.mode ≠ .ended := by
    rw [mode_running live running]
    cases service.remainingInstructions <;> simp
  have pausing (after : Service) (alive : after.live = true) (lastStop : Option StopText) :
      service.mode.Drifts (after.pauseWith lastStop host).mode :=
    .inr (.inl ⟨after.mode_pauseWith alive lastStop host, awake⟩)
  have going (stop : BackendStop) :
      service.mode.Drifts (if limitReached then
          { service with remainingInstructions := none }.pauseWith
            (some (.instructionLimitReached stop)) host
        else if publishDue then service.publish service.lifecycle (some (.stop stop)) none
        else service).mode := by
    cases limitReached with
    | true => exact pausing { service with remainingInstructions := none } live _
    | false =>
      cases publishDue with
      | true => exact .refl service.mode
      | false => exact .refl service.mode
  unfold afterBatch
  match result with
  | .ok (.unicorn error) => exact .inr (.inr (mode_ended rfl))
  | .ok (.breakpoint address immediate) =>
    exact pausing
      { service with remainingInstructions := none, pendingBreakpoint := some address } live _
  | .ok .instructionBudget | .ok (.mmioFault ..) | .ok (.mmuFault _) | .ok .cp15Boundary
  | .ok (.exception _) => exact going _
  | .error error => exact .inr (.inr (mode_ended rfl))

/-- A batch goes on. -/
theorem steady_runBatch (live : service.live = true) (running : service.lifecycle = .running)
    (runner : Runner) (currentTick : Nat) :
    (service.runBatch runner currentTick).2.2.live = true ∧
      (service.runBatch runner currentTick).2.2.lifecycle = .running ∧
      service.mode.Steady (service.runBatch runner currentTick).2.2.mode := by
  refine ⟨live, running, ?_⟩
  rw [mode_running live running, mode_running]
  · change GuestMode.Steady _ (Option.elim (service.remainingInstructions.map _) _ _)
    cases service.remainingInstructions with
    | none => exact .refl _
    | some remaining => exact Nat.sub_le _ _
  · exact live
  · exact running

/-- A turn of the loop goes on, pauses or ends. -/
theorem drifts_turn (service : Service) (inbox : UartPort → List U8) (runner : Runner)
    (publishDue : Bool) (host : HostOutcomes) :
    service.mode.Drifts (service.step (.turn inbox runner publishDue host)).mode := by
  cases live : service.live with
  | false =>
    simp only [step, live, Bool.not_false, ↓reduceIte]
    exact .refl _
  | true =>
    simp only [step, live, Bool.not_true, Bool.false_eq_true, ↓reduceIte]
    split
    case isFalse => exact .refl _
    rename_i running
    unfold turn
    simp only
    split
    · have awake : service.mode ≠ .ended := by
        rw [mode_running live running]
        cases service.remainingInstructions <;> simp
      refine .inr (.inl ⟨mode_pauseWith _ ?_ _ host, awake⟩)
      exact live
    · generalize delivered : { service.deliverScheduled service.emulator.backend.machine.ticks with
        emulator := (service.deliverScheduled
          service.emulator.backend.machine.ticks).emulator.drainUart inbox } = ready
      have alive : ready.live = true := delivered ▸ live
      have same : ready.lifecycle = .running := delivered ▸ running
      have kept : service.mode = ready.mode := delivered ▸ mode_congr rfl rfl rfl
      obtain ⟨live, running, steady⟩ := steady_runBatch alive same runner
        service.emulator.backend.machine.ticks
      rw [kept]
      exact GuestMode.Drifts.trans (.inl steady)
        (drifts_afterBatch live running _ _ publishDue host)

end Service

end Minemu.Runtime
