import Minemu.Runtime.GuestMode
import Minemu.Runtime.Shutdown
import Minemu.Unicorn.Attempts

/-! A bounded resume: does the service run exactly as many attempted instructions as it was
asked for? -/

namespace Minemu.Runtime

open Library Platform Minemu.Core Minemu.Unicorn

/-- One turn of the loop over an engine. -/
structure Turn where
  inbox : UartPort → List U8
  engine : Engine
  publishDue : Bool
  host : HostOutcomes

namespace Service

/-- The service when the batch of a turn starts: the input that has come is delivered. -/
def ready (service : Service) (inbox : UartPort → List U8) : Service :=
  let service := service.deliverScheduled service.emulator.backend.machine.ticks
  { service with emulator := service.emulator.drainUart inbox }

/-- The call the next batch makes. -/
def nextCall (service : Service) (currentTick : Nat) : UnicornBackend.RunCall :=
  ⟨service.emulator.backend.cpu.read .pc, service.emulator.stop,
    service.instructionBudget currentTick, service.tickBoundary currentTick⟩

def deadlineReached (service : Service) : Bool :=
  service.executionDeadline.any fun deadline => deadline ≤ service.emulator.backend.machine.ticks

/-- The instructions a turn attempts. -/
def attempts (service : Service) (turn : Turn) : Nat :=
  if service.live = true ∧ service.lifecycle = .running ∧ service.deadlineReached = false then
    let ready := service.ready turn.inbox
    ready.emulator.backend.attempts turn.engine
      (ready.nextCall service.emulator.backend.machine.ticks)
  else 0

/-- A paused service that a resume for `count` instructions sets running. -/
structure Accepts (service : Service) (count : ℕ+) (host : HostOutcomes) : Prop where
  live : service.live = true
  paused : service.lifecycle = .paused
  batch : 1 ≤ service.emulator.instructionBatch
  running : (service.step (.command (.resume (some count)) host)).lifecycle = .running

end Service

/-- A service and the instructions it has attempted since it was resumed. -/
structure Counted where
  service : Service
  attempted : Nat

namespace Counted

def step (state : Counted) (turn : Turn) : Counted where
  service := state.service.step
    (.turn turn.inbox (Service.adapterRunner turn.engine) turn.publishDue turn.host)
  attempted := state.attempted + state.service.attempts turn

/-- What stops a batch is a BKPT or a failure of the backend. -/
def isDisturbance : BackendStop → Bool
  | .breakpoint _ _ | .unicorn _ => true
  | _ => false

/-- A turn of a running service meets no deadline, no BKPT and no failure. -/
def Undisturbed (state : Counted) (turn : Turn) : Prop :=
  state.service.lifecycle = .running →
    state.service.deadlineReached = false ∧
    isDisturbance ((state.service.ready turn.inbox).emulator.backend.call turn.engine
      ((state.service.ready turn.inbox).nextCall
        state.service.emulator.backend.machine.ticks)).1 = false

/-- A call executes all the instructions that remain, stopped by no BKPT or failed fetch. -/
def Finishes (engine : Engine) (backend : UnicornBackend) (call : UnicornBackend.RunCall)
    (remaining : Nat) : Prop :=
  ∃ batch result, backend.batch engine call = some (batch, result) ∧
    remaining ≤ batch.executedInstructions ∧
    batch.callbackStop.all (fun stop => UnicornBackend.isFaultStop stop && !stop.isFailedFetch) =
      true

/-- The call of a turn takes a tick for every instruction it attempts, or executes all that
remain. -/
def Meets (state : Counted) (turn : Turn) : Prop :=
  state.service.lifecycle = .running →
    let ready := state.service.ready turn.inbox
    let call := ready.nextCall state.service.emulator.backend.machine.ticks
    UnicornBackend.Even turn.engine ready.emulator.backend call ∨
      ∀ remaining, state.service.remainingInstructions = some remaining →
        Finishes turn.engine ready.emulator.backend call remaining

end Counted

/-! ### One turn -/

namespace Service

variable {service : Service}

theorem tickBoundary_ahead {currentTick boundary : Nat}
    (bounded : service.tickBoundary currentTick = some boundary) : currentTick < boundary := by
  have member := List.min?_mem bounded
  exact of_decide_eq_true (List.mem_filter.mp member).2

theorem instructionBudget_le {currentTick remaining : Nat}
    (limited : service.remainingInstructions = some remaining) :
    service.instructionBudget currentTick ≤ remaining := by
  unfold instructionBudget
  rw [limited, Option.elim_some]
  cases service.tickBoundary currentTick with
  | none => exact Nat.min_le_left _ _
  | some boundary =>
    rw [Option.elim_some]
    omega

/-- Delivering input leaves the limit, the clock and the batch size alone. -/
theorem pace_ready (service : Service) (inbox : UartPort → List U8) :
    (service.ready inbox).emulator.pace = service.emulator.pace := by
  unfold ready
  simp only
  rw [Emulator.pace_drainUart, pace_deliverScheduled]

/-- What follows a batch that ran into no BKPT and no failure: a pause at the limit, or nothing
an observer of the lifecycle could tell. -/
theorem afterBatch_undisturbed (live : service.live = true) (running : service.lifecycle = .running)
    {stop : BackendStop} (undisturbed : Counted.isDisturbance stop = false)
    (limitReached publishDue : Bool) (host : HostOutcomes) :
    let after := service.afterBatch (.ok stop) limitReached publishDue host
    after.live = true ∧
      after.emulator.instructionBatch = service.emulator.instructionBatch ∧
      if limitReached then after.lifecycle = .paused
      else after.lifecycle = .running ∧
        after.remainingInstructions = service.remainingInstructions := by
  have going : service.afterBatch (.ok stop) limitReached publishDue host =
      if limitReached then
        { service with remainingInstructions := none }.pauseWith
          (some (.instructionLimitReached stop)) host
      else if publishDue then service.publish service.lifecycle (some (.stop stop)) none
      else service := by
    cases stop <;> first | rfl | cases undisturbed
  simp only [going]
  cases limitReached with
  | true =>
    simp only [↓reduceIte]
    refine ⟨?_, ?_, (pauseWith_shows _ _ host).1⟩
    · exact (flush_same { service with remainingInstructions := none, lifecycle := .paused } host).1.trans live
    · have timing := timing_pauseWith { service with remainingInstructions := none }
        (some (.instructionLimitReached stop)) host
      exact congrArg Timing.instructionBatch timing
  | false =>
    simp only [Bool.false_eq_true, ↓reduceIte]
    cases publishDue with
    | true => exact ⟨live, rfl, running, rfl⟩
    | false => exact ⟨live, rfl, running, rfl⟩

/-- An even call attempts no more than its budget. -/
theorem attempts_le {engine : Engine} {backend : UnicornBackend} {call : UnicornBackend.RunCall}
    (atMost : ExecutesAtMost engine) (positive : 1 ≤ call.budget)
    (even : UnicornBackend.Even engine backend call) :
    backend.attempts engine call ≤ call.budget := by
  unfold UnicornBackend.attempts
  cases ran : backend.batch engine call with
  | none => exact Nat.zero_le _
  | some outcome =>
    obtain ⟨batch, result⟩ := outcome
    have within := (UnicornBackend.call_batch ran).2.2 atMost positive
    have balanced := even.batch batch result ran
    rw [Option.elim_some, UnicornBackend.attemptedInstructions]
    cases stopped : batch.callbackStop with
    | none => simpa using within
    | some stop =>
      simp only [UnicornBackend.EvenBatch, stopped] at balanced
      rw [Option.any_some]
      cases failed : stop.isFailedFetch with
      | false => exact within
      | true =>
        rw [balanced.2.mp failed]
        exact positive

/-- What a call that meets the condition takes off the remaining instructions is what it
attempts. -/
theorem counted_call {engine : Engine} {backend : UnicornBackend} {call : UnicornBackend.RunCall}
    {remaining : Nat} (atMost : ExecutesAtMost engine) (positive : 1 ≤ call.budget)
    (budget : call.budget ≤ remaining)
    (meets : UnicornBackend.Even engine backend call ∨
      Counted.Finishes engine backend call remaining) :
    backend.attempts engine call ≤ remaining ∧
      remaining - ((backend.call engine call).2.machine.ticks - backend.machine.ticks) =
        remaining - backend.attempts engine call := by
  rcases meets with even | ⟨batch, result, ran, all, plain⟩
  · refine ⟨(attempts_le atMost positive even).trans budget, ?_⟩
    unfold UnicornBackend.attempts
    cases ran : backend.batch engine call with
    | none =>
      rw [UnicornBackend.call_idle even ran, Nat.sub_self]
      rfl
    | some outcome =>
      obtain ⟨batch, result⟩ := outcome
      obtain ⟨called, ticks, -⟩ := UnicornBackend.call_batch ran
      rw [called, UnicornBackend.ticks_even (even.batch batch result ran), ticks,
        Nat.add_sub_cancel_left]
      rfl
  · obtain ⟨called, ticks, within⟩ := UnicornBackend.call_batch ran
    have most := within atMost positive
    have faults : batch.callbackStop.all UnicornBackend.isFaultStop = true := by
      cases stopped : batch.callbackStop with
      | none => rfl
      | some stop =>
        rw [stopped, Option.all_some, Bool.and_eq_true] at plain
        exact plain.1
    have fetched : batch.callbackStop.any BackendStop.isFailedFetch = false := by
      cases stopped : batch.callbackStop with
      | none => rfl
      | some stop =>
        rw [stopped, Option.all_some, Bool.and_eq_true, Bool.not_eq_true'] at plain
        exact plain.2
    have least : batch.machine.ticks + batch.executedInstructions ≤
        (batch.finishBatch engine result call.tickDeadline).2.machine.ticks :=
      UnicornBackend.ticks_atLeast call.tickDeadline faults result
    have attempted : backend.attempts engine call = batch.executedInstructions := by
      rw [UnicornBackend.attempts, ran, Option.elim_some, UnicornBackend.attemptedInstructions,
        fetched]
      rfl
    rw [← called] at least
    rw [attempted]
    omega

theorem turn_eq (service : Service) (inbox : UartPort → List U8) (runner : Runner)
    (publishDue : Bool) (host : HostOutcomes) :
    service.turn inbox runner publishDue host =
      if service.deadlineReached then
        (service.deliverScheduled service.emulator.backend.machine.ticks).pauseWith
          (some .executionDeadlineReached) host
      else
        let outcome := (service.ready inbox).runBatch runner
          service.emulator.backend.machine.ticks
        outcome.2.2.afterBatch outcome.1 outcome.2.1 publishDue host := rfl

/-- What running a batch over an engine leaves of a service with an instruction limit. -/
theorem runBatch_adapter (engine : Engine) {remaining : Nat}
    (limited : service.remainingInstructions = some remaining) (currentTick : Nat) :
    let outcome := service.emulator.backend.call engine (service.nextCall currentTick)
    let left := remaining - (outcome.2.machine.ticks - service.emulator.backend.machine.ticks)
    let ran := service.runBatch (adapterRunner engine) currentTick
    ran.1 = .ok outcome.1 ∧ ran.2.1 = decide (left = 0) ∧ ran.2.2.live = service.live ∧
      ran.2.2.lifecycle = service.lifecycle ∧
      ran.2.2.emulator.instructionBatch = service.emulator.instructionBatch ∧
      ran.2.2.remainingInstructions = some left := by
  intro outcome left ran
  have limit : ran.2.2.remainingInstructions = some left := by
    change service.remainingInstructions.map _ = _
    rw [limited]
    rfl
  refine ⟨rfl, ?_, rfl, rfl, rfl, limit⟩
  change decide (ran.2.2.remainingInstructions = some 0) = _
  rw [limit]
  simp only [Option.some.injEq]

end Service

namespace Counted

variable {state : Counted} {count : Nat}

/-- A service that runs has instructions left, as many as it has not attempted yet; a paused one
has attempted them all. -/
structure Exact (count : Nat) (state : Counted) : Prop where
  live : state.service.live = true
  batch : 1 ≤ state.service.emulator.instructionBatch
  phase : (state.service.lifecycle = .running ∧ ∃ remaining,
      state.service.remainingInstructions = some remaining ∧ 1 ≤ remaining ∧
        state.attempted + remaining = count) ∨
    (state.service.lifecycle = .paused ∧ state.attempted = count)

/-- A turn of a service that does not run changes nothing. -/
theorem step_paused (paused : state.service.lifecycle = .paused) (turn : Turn) :
    state.step turn = state := by
  have idle : state.service.attempts turn = 0 := by
    unfold Service.attempts
    rw [if_neg]
    rintro ⟨-, running, -⟩
    rw [paused] at running
    cases running
  have same : state.service.step (.turn turn.inbox (Service.adapterRunner turn.engine)
      turn.publishDue turn.host) = state.service := by
    simp only [Service.step, paused, reduceCtorEq, ↓reduceIte, ite_self]
  unfold step
  rw [idle, same]
  rfl

theorem exact_step (state : Counted) (turn : Turn)
    (allowed : ExecutesAtMost turn.engine ∧ state.Undisturbed turn ∧ state.Meets turn)
    (exact : state.Exact count) : (state.step turn).Exact count := by
  obtain ⟨live, batch, phase⟩ := exact
  obtain ⟨atMost, undisturbed, meets⟩ := allowed
  rcases phase with ⟨running, remaining, limited, positive, total⟩ | ⟨paused, total⟩
  · obtain ⟨early, plain⟩ := undisturbed running
    have awaited : (state.service.ready turn.inbox).remainingInstructions = some remaining := limited
    have pace := congrArg Prod.snd (state.service.pace_ready turn.inbox)
    have enough : 1 ≤ (state.service.ready turn.inbox).emulator.instructionBatch :=
      batch.trans_eq pace.symm
    have some : (state.service.ready turn.inbox).remainingInstructions ≠ some 0 := by
      rw [awaited, Ne, Option.some.injEq]
      exact Nat.ne_of_gt positive
    have budget : 1 ≤ (state.service.ready turn.inbox).instructionBudget
        state.service.emulator.backend.machine.ticks :=
      Service.instructionBudget_pos enough some fun _ => Service.tickBoundary_ahead
    obtain ⟨most, left⟩ := Service.counted_call atMost budget (Service.instructionBudget_le awaited)
      ((meets running).imp_right fun finishes => finishes remaining limited)
    have attempted : state.service.attempts turn =
        (state.service.ready turn.inbox).emulator.backend.attempts turn.engine
          ((state.service.ready turn.inbox).nextCall
            state.service.emulator.backend.machine.ticks) := by
      unfold Service.attempts
      rw [if_pos ⟨live, running, early⟩]
    have turned : (state.step turn).service =
        let outcome := (state.service.ready turn.inbox).runBatch (Service.adapterRunner turn.engine)
          state.service.emulator.backend.machine.ticks
        outcome.2.2.afterBatch outcome.1 outcome.2.1 turn.publishDue turn.host := by
      simp only [step, Service.step, live, running, Bool.not_true, Bool.false_eq_true, ↓reduceIte]
      rw [Service.turn_eq, early, if_neg Bool.false_ne_true]
    obtain ⟨stop, limit, lives, runs, size, remains⟩ := Service.runBatch_adapter turn.engine awaited
      state.service.emulator.backend.machine.ticks
    rw [← attempted] at most left
    rw [left] at limit remains
    dsimp only at turned
    rw [stop, limit] at turned
    obtain ⟨alive, same, after⟩ := Service.afterBatch_undisturbed (lives.trans live)
      (runs.trans running) plain (remaining - state.service.attempts turn = 0) turn.publishDue
      turn.host
    rw [← turned] at alive same after
    have counted : (state.step turn).attempted =
        state.attempted + state.service.attempts turn := rfl
    refine ⟨alive, (enough.trans_eq (size.symm.trans same.symm)), ?_⟩
    by_cases reached : remaining - state.service.attempts turn = 0
    · rw [decide_eq_true reached, if_pos rfl] at after
      refine .inr ⟨after, ?_⟩
      omega
    · rw [decide_eq_false reached, if_neg Bool.false_ne_true] at after
      refine .inl ⟨after.1, _, after.2.trans remains, ?_, ?_⟩
      · omega
      · omega
  · rw [step_paused paused]
    exact ⟨live, batch, .inr ⟨paused, total⟩⟩

/-! ### Runs -/

/-- The service right after it has taken a resume for `count` instructions. -/
def resumed (service : Service) (count : ℕ+) (host : HostOutcomes) : Counted :=
  ⟨service.step (.command (.resume (some count)) host), 0⟩

theorem exact_resumed {service : Service} {count : ℕ+} {host : HostOutcomes}
    (accepts : service.Accepts count host) : (resumed service count host).Exact count := by
  obtain ⟨live, paused, batch, running⟩ := accepts
  rw [Service.step_live live] at running
  have after (emulator : Emulator) (size : 1 ≤ emulator.instructionBatch) :
      Exact count ⟨{ service with
        pendingBreakpoint := none
        emulator
        remainingInstructions := some count
        lifecycle := .running }.publishClearingStop .running, 0⟩ :=
    ⟨live, size, .inl ⟨rfl, _, rfl, count.pos, Nat.zero_add _⟩⟩
  unfold resumed
  rw [Service.step_live live]
  simp only [Service.processCommand, paused] at running ⊢
  cases pending : service.pendingBreakpoint with
  | none => exact after service.emulator batch
  | some address =>
    simp only [pending] at running ⊢
    cases moved : service.emulator.resumeFromBreakpoint address host with
    | error error =>
      simp only [moved] at running
      have halted : LifecycleState.paused = .running := running
      cases halted
    | ok emulator =>
      have size := congrArg Prod.snd (Emulator.pace_resumed moved)
      exact after emulator (batch.trans_eq size.symm)

/-- A turn the theorem is about: an engine that keeps to the count it is given, nothing that
disturbs the run, and the condition. -/
def Allowed (state : Counted) (turn : Turn) : Prop :=
  ExecutesAtMost turn.engine ∧ state.Undisturbed turn ∧ state.Meets turn

/-- While the service runs each turn attempts an instruction. -/
def Progresses (state : Counted) (turn : Turn) : Prop :=
  state.service.lifecycle = .running → 1 ≤ state.service.attempts turn

theorem run_paused (paused : state.service.lifecycle = .paused) (turns : List Turn) :
    run step state turns = state := by
  induction turns with
  | nil => rfl
  | cons turn turns ih => rw [run_cons, step_paused paused, ih]

/-- Turns that progress have attempted as many instructions as there were turns, or the service
has paused. -/
theorem run_progresses (exact : state.Exact count) (turns : List Turn)
    (allowed : Throughout step Allowed state turns)
    (progresses : Throughout step Progresses state turns) :
    (run step state turns).service.lifecycle = .paused ∨
      state.attempted + turns.length ≤ (run step state turns).attempted := by
  induction turns generalizing state with
  | nil => exact .inr le_rfl
  | cons turn turns ih =>
    rcases exact.phase with ⟨running, -⟩ | ⟨paused, -⟩
    · have advanced : state.attempted + 1 ≤ (state.step turn).attempted :=
        Nat.add_le_add_left (progresses.1 running) _
      refine (ih (exact_step state turn allowed.1 exact) allowed.2 progresses.2).imp_right
        fun later => ?_
      rw [run_cons, List.length_cons]
      omega
    · rw [run_paused paused]
      exact .inl paused

/-- After a resume for `count` instructions, over turns that meet the condition: in every state
the service is running and has attempted fewer, or it is paused and has attempted exactly
`count`. Where every turn attempts an instruction, `count` turns pause it. -/
theorem bounded_resume_exact (service : Service) (count : ℕ+) (host : HostOutcomes)
    (turns : List Turn) (accepts : service.Accepts count host)
    (allowed : Throughout step Allowed (resumed service count host) turns) :
    (∀ state ∈ visited step (resumed service count host) turns,
      (state.service.lifecycle = .running ∧ state.attempted < count) ∨
        (state.service.lifecycle = .paused ∧ state.attempted = count)) ∧
    (Throughout step Progresses (resumed service count host) turns → count ≤ turns.length →
      (run step (resumed service count host) turns).service.lifecycle = .paused) := by
  have initial := exact_resumed accepts
  have always := throughout_invariant exact_step _ _ initial allowed
  have phase (state : Counted) (exact : state.Exact count) :
      (state.service.lifecycle = .running ∧ state.attempted < count) ∨
        (state.service.lifecycle = .paused ∧ state.attempted = count) := by
    refine exact.phase.imp_left ?_
    rintro ⟨running, remaining, -, positive, total⟩
    exact ⟨running, by omega⟩
  refine ⟨fun state reached => phase state (always state reached), fun progresses enough => ?_⟩
  rcases run_progresses initial turns allowed progresses with paused | attempted
  · exact paused
  · rcases phase _ (always _ (run_mem_visited step _ turns)) with ⟨-, fewer⟩ | ⟨paused, -⟩
    · exact absurd (enough.trans ((Nat.le_add_left _ _).trans attempted)) (Nat.not_le.mpr fewer)
    · exact paused

/-- An engine whose every batch is one turn of the loop `b .` at address 0. -/
def spinEngine : Engine where
  setExits _ _ := .ok ()
  flushTlb _ := .ok ()
  emuStart _ _ _ _ := ([.code 0 4 (some 0xeaff_fffe)], .ok ())

/-- A guest that starts paused at the loop, at the start of its boot ROM. -/
def spinConfig : RuntimeConfig :=
  { System.plainConfig with machine := .new (.programmed [0xeaff_fffe]) 4096 }

def turnOver (engine : Engine) : Turn := ⟨fun _ => [], engine, false, System.quietHost⟩

theorem even_spin {backend : UnicornBackend} {call : UnicornBackend.RunCall}
    (fresh : backend.deferredException = none) (endless : call.tickDeadline = none)
    (masked : backend.cpu.irqsMasked = true) : UnicornBackend.Even spinEngine backend call where
  fresh := fresh
  noIrq bounded := by
    rw [endless] at bounded
    cases bounded
  batch batch result ran := by
    have trapless : (decodeBreakpoint 0xeaff_fffe#32).isNone = true ∧
        (decodeCp15 0xeaff_fffe#32).isNone = true := by decide
    rw [Option.isNone_iff_eq_none, Option.isNone_iff_eq_none] at trapless
    have plain : backend.clearFlags.emulate [.code 0 4 (some 0xeaff_fffe)] =
        backend.clearFlags.instructionCounterCallback := by
      simp [UnicornBackend.emulate, UnicornBackend.event,
        UnicornBackend.a32SynchronousTrapCallback, trapless, UnicornBackend.cp15Trap]
    simp only [UnicornBackend.batch, UnicornBackend.resumeDeferredException, fresh,
      UnicornBackend.deadlineReached, endless, spinEngine, plain, Option.any_none,
      Option.isSome_none, Bool.false_eq_true, ↓reduceIte, Option.some.injEq, Prod.mk.injEq] at ran
    obtain ⟨rfl, -⟩ := ran
    refine .inr ?_
    have quiet := UnicornBackend.deliverIrq_masked
      (backend.clearFlags.instructionCounterCallback.account) masked
    rw [quiet]

/-- Three instructions, one a turn: the service runs until the third. -/
theorem bounded_resume_spin : ∃ service,
    Service.start spinConfig System.quietHost = .ok service ∧
    (run step (resumed service 3 System.quietHost)
      [turnOver spinEngine, turnOver spinEngine]).service.lifecycle = .running ∧
    (run step (resumed service 3 System.quietHost)
      [turnOver spinEngine, turnOver spinEngine, turnOver spinEngine]).service.lifecycle =
        .paused := by
  obtain ⟨service, started⟩ : ∃ service,
      Service.start spinConfig System.quietHost = .ok service := ⟨_, rfl⟩
  refine ⟨service, started, ?_⟩
  cases started
  have allowed (state : Counted) (undisturbed : state.Undisturbed (turnOver spinEngine))
      (meets : state.Meets (turnOver spinEngine)) : Allowed state (turnOver spinEngine) :=
    ⟨fun _ _ _ _ => id, undisturbed, meets⟩
  refine ⟨by decide +kernel, (bounded_resume_exact _ 3 System.quietHost
    [turnOver spinEngine, turnOver spinEngine, turnOver spinEngine] ⟨rfl, rfl, by decide, rfl⟩
    ⟨allowed _ (fun _ => ⟨rfl, ?_⟩) (fun _ => .inl ?_),
      allowed _ (fun _ => ⟨by decide +kernel, ?_⟩) (fun _ => .inl ?_),
      allowed _ (fun _ => ⟨by decide +kernel, ?_⟩) (fun _ => .inl ?_), trivial⟩).2
    ⟨fun _ => ?_, fun _ => ?_, fun _ => ?_, trivial⟩ le_rfl⟩
  · decide +kernel
  · exact even_spin (by decide +kernel) (by decide +kernel) (by decide +kernel)
  · decide +kernel
  · exact even_spin (by decide +kernel) (by decide +kernel) (by decide +kernel)
  · decide +kernel
  · exact even_spin (by decide +kernel) (by decide +kernel) (by decide +kernel)
  · decide +kernel
  · decide +kernel
  · decide +kernel

/-- A guest that starts paused at an SVC. -/
def svcConfig : RuntimeConfig := { System.plainConfig with machine := UnicornBackend.svcMachine }

/-- A resume for two instructions pauses after one, an SVC. -/
theorem svc_counts_twice : ∃ service,
    Service.start svcConfig System.quietHost = .ok service ∧
    service.Accepts 2 System.quietHost ∧ ExecutesAtMost UnicornBackend.svcEngine ∧
    (resumed service 2 System.quietHost).Undisturbed (turnOver UnicornBackend.svcEngine) ∧
    ((resumed service 2 System.quietHost).step
      (turnOver UnicornBackend.svcEngine)).service.lifecycle = .paused ∧
    ((resumed service 2 System.quietHost).step
      (turnOver UnicornBackend.svcEngine)).attempted = 1 := by
  refine ⟨_, rfl, ⟨rfl, rfl, le_rfl, rfl⟩, fun _ _ _ _ => id, fun _ => ⟨rfl, ?_⟩, ?_, ?_⟩
  · decide +kernel
  · decide +kernel
  · decide +kernel

end Counted

end Minemu.Runtime
