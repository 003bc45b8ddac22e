import Minemu.Terminal.Session

/-! The whole app and the app of the command bar: to the emulator thread and to the guest's mode,
the widgets, the router and the queue make no difference. -/

namespace Minemu.Terminal

open Library Platform Minemu.Core Minemu.Unicorn Minemu.Runtime Minemu.Tui

namespace App

/-- The part of the app that lifecycle decisions read. -/
def lifecycle (app : App) : Tui.App where
  runtime := ⟨app.runtime.system, app.runtime.status.lifecycle⟩
  view := app.view
  mode := app.input.mode
  quit := app.quit
  resumeAfterInput := app.resumeAfterInput
  suppressInputResume := app.suppressInputResume

/-- An action as far as it reaches lifecycle decisions. -/
def lifecycleAction (app : App) : Action → Tui.Action
  | .quit => .quit
  | .selectView view => .selectView view
  | .toggleView => .toggleView
  | .focus _ => .focus
  | .setMode mode => .setMode mode
  | .toggleRun => .toggleRun
  | .start instructionLimit => .start instructionLimit
  | .stop => .stop
  | .reset => .reset
  | .sendUart _ _ => .sendUart
  | .requestInspection target request => .requestInspection request
      (app.runtime.pending.any fun entry => entry.target = target && entry.request = request)
  | .widgetKey _ _ => .widgetKey
  | .insertText _ _ => .insertText
  | .navigate _ _ => .navigate
  | .goto _ _ => .goto
  | .setUart _ => .setUart
  | .setPrimary _ => .setPrimary
  | .setSecondary _ => .setSecondary
  | .refresh _ => .refresh
  | .showMessage _ => .showMessage
  | .showHelp => .showHelp
  | .resize _ _ => .resize

variable {app after : App} {actions more rest : List Action} {action : Action}

/-! ### One action -/

theorem sent_lifecycle (app : App) (command : Command) :
    (app.lifecycle.send command).1 = decide ((app.send command).1 = .sent) := rfl

theorem lifecycle_target {id : WidgetId} {event : AppEvent}
    (done : app.target id event = .ok (after, more)) : after.lifecycle = app.lifecycle := by
  obtain ⟨_, _, rfl⟩ := target_ok done
  rfl

theorem lifecycle_broadcast {event : AppEvent} (done : app.broadcast event = .ok (after, more)) :
    after.lifecycle = app.lifecycle := by
  obtain ⟨_, _, rfl⟩ := broadcast_ok done
  rfl

theorem lifecycle_startEmulation (app : App) (limit : Option ℕ+) :
    (app.startEmulation limit).lifecycle = app.lifecycle.startEmulation limit := by
  unfold startEmulation Tui.App.startEmulation
  by_cases idle : app.runtime.status.lifecycle ≠ .paused ∧ app.resumeAfterInput = false
  · rw [if_pos idle]
    exact (if_pos idle).symm
  · rw [if_neg idle]
    refine Eq.trans ?_ (if_neg idle).symm
    dsimp only
    split <;> rfl

theorem lifecycle_stop (app : App) : app.stop.1.lifecycle = app.lifecycle.stop := by
  unfold stop Tui.App.stop
  by_cases idle : app.runtime.status.lifecycle ≠ .running
  · rw [if_pos idle]
    refine Eq.trans ?_ (if_pos idle).symm
    split <;> rfl
  · rw [if_neg idle]
    refine Eq.trans ?_ (if_neg idle).symm
    dsimp only
    split <;> rfl

theorem lifecycle_turn (app : App) (view : View) : (app.turn view).1.lifecycle =
    if view = .inspect ∧ app.runtime.status.lifecycle = .running then
      { app.lifecycle with view }.suppress.stop
    else { app.lifecycle with view } := by
  unfold turn
  dsimp only
  split
  · exact lifecycle_stop _
  · rfl

theorem lifecycle_selectView {view : View} (done : app.selectView view = .ok (after, more)) :
    after.lifecycle = app.lifecycle.selectView view := by
  have marked : (if view = .inspect then app.suppress else app).lifecycle =
      if view = .inspect then app.lifecycle.suppress else app.lifecycle := by split <;> rfl
  unfold selectView at done
  unfold Tui.App.selectView
  dsimp only at done ⊢
  rw [← marked]
  generalize (if view = .inspect then app.suppress else app) = suppressed at done ⊢
  by_cases here : suppressed.view = view
  · rw [if_pos here] at done
    cases done
    exact (if_pos here).symm
  · rw [if_neg here] at done
    obtain ⟨⟨_, _⟩, updated, same⟩ := bind_ok done
    cases same
    exact ((lifecycle_broadcast updated).trans (lifecycle_turn suppressed view)).trans
      (if_neg here).symm

theorem lifecycle_pauseForInput (app : App) (mode : InputMode) :
    (app.pauseForInput mode).lifecycle = app.lifecycle.pauseForInput mode := by
  unfold pauseForInput Tui.App.pauseForInput
  by_cases pauses : mode = .command ∧ app.runtime.status.lifecycle = .running
  · rw [if_pos pauses]
    refine Eq.trans ?_ (if_pos pauses).symm
    dsimp only
    rw [sent_lifecycle]
    by_cases sent : (app.send .pause).1 = .sent
    · rw [if_pos sent, if_pos (decide_eq_true sent)]
      rfl
    · rw [if_neg sent, if_neg (by simpa using sent)]
      rfl
  · rw [if_neg pauses]
    exact (if_neg pauses).symm

theorem lifecycle_resumeAfter (app : App) :
    app.resumeAfter.lifecycle = app.lifecycle.resumeAfter := by
  have resumed : (if app.resumeAfterInput = true ∧ app.suppressInputResume = false then
      app.startEmulation none else app).lifecycle =
      if app.resumeAfterInput = true ∧ app.suppressInputResume = false then
        app.lifecycle.startEmulation none else app.lifecycle := by
    split
    · exact lifecycle_startEmulation app none
    · rfl
  unfold Tui.App.resumeAfter
  exact congrArg (fun app : Tui.App =>
    { app with resumeAfterInput := false, suppressInputResume := false }) resumed

theorem lifecycle_setMode (app : App) (mode : InputMode) :
    (app.setMode mode).lifecycle = app.lifecycle.setMode mode := by
  have entered : ({ app.pauseForInput mode with
      input := (app.pauseForInput mode).input.setMode mode } : App).lifecycle =
      { app.lifecycle.pauseForInput mode with mode } :=
    congrArg (fun app : Tui.App => { app with mode }) (lifecycle_pauseForInput app mode)
  unfold setMode Tui.App.setMode
  dsimp only
  by_cases same : app.input.mode = mode
  · rw [if_pos same]
    exact (if_pos same).symm
  · rw [if_neg same]
    refine Eq.trans ?_ (if_neg same).symm
    rw [← entered]
    by_cases leaves : app.input.mode = .command ∧ mode = .normal
    · rw [if_pos leaves]
      exact (lifecycle_resumeAfter _).trans (if_pos leaves).symm
    · rw [if_neg leaves]
      exact (if_neg leaves).symm

theorem lifecycle_toggleRun (app : App) :
    app.suppress.toggleRun.1.lifecycle = app.lifecycle.processAction .toggleRun := by
  unfold toggleRun Tui.App.processAction
  by_cases resumes : app.suppress.resumeAfterInput = true
  · rw [if_pos resumes]
    exact (lifecycle_stop _).trans (if_pos resumes).symm
  · rw [if_neg resumes]
    refine Eq.trans ?_ (if_neg resumes).symm
    have same : app.lifecycle.suppress.runtime.status = app.suppress.runtime.status.lifecycle := rfl
    rw [same]
    cases app.suppress.runtime.status.lifecycle with
    | running => exact lifecycle_stop _
    | paused => exact lifecycle_startEmulation _ none
    | _ => rfl

theorem lifecycle_reset (done : app.reset = .ok (after, more)) :
    after.lifecycle = (app.lifecycle.send .reset).2 := by
  unfold reset at done
  dsimp only at done
  split at done
  · obtain ⟨⟨_, _⟩, updated, same⟩ := bind_ok done
    cases same
    exact lifecycle_broadcast updated
  · cases done
    rfl

theorem lifecycle_requestInspection (app : App) (target : WidgetId)
    (request : RuntimeInspectionRequest) :
    (app.requestInspection target request).lifecycle =
      app.lifecycle.processAction (app.lifecycleAction (.requestInspection target request)) := by
  have asked : ({ app with runtime := (app.runtime.request target request).2 } : App).lifecycle =
      app.lifecycle.processAction (app.lifecycleAction (.requestInspection target request)) := by
    unfold RuntimeController.request
    by_cases pending : (app.runtime.pending.any fun entry =>
        entry.target = target && entry.request = request) = true
    · rw [if_pos pending]
      exact (if_pos pending).symm
    · rw [if_neg pending]
      refine Eq.trans ?_ (if_neg pending).symm
      dsimp only
      split <;> rfl
  unfold requestInspection
  dsimp only
  split
  · exact asked
  · exact asked

/-- Processing an action is processing its part that reaches lifecycle decisions. -/
theorem lifecycle_processAction (done : app.processAction action = .ok (after, more)) :
    after.lifecycle = app.lifecycle.processAction (app.lifecycleAction action) := by
  cases action with
  | quit | widgetKey target key | sendUart port bytes | showMessage message | showHelp
  | resize split percent => exact state_ok done ▸ rfl
  | focus target =>
    rw [← state_ok done]
    dsimp only
    split <;> rfl
  | selectView view | toggleView => exact lifecycle_selectView done
  | setMode mode => exact state_ok done ▸ lifecycle_setMode app mode
  | toggleRun => exact state_ok done ▸ lifecycle_toggleRun app
  | start limit => exact state_ok done ▸ lifecycle_startEmulation _ limit
  | stop => exact state_ok done ▸ lifecycle_stop _
  | reset => exact lifecycle_reset done
  | requestInspection target request =>
    exact state_ok done ▸ lifecycle_requestInspection app target request
  | insertText target text | navigate target motion | goto target value | refresh target =>
    exact lifecycle_target done
  | setUart port =>
    obtain ⟨⟨_, _⟩, updated, same⟩ := bind_ok done
    cases same
    have shown := lifecycle_broadcast updated
    exact shown
  | setPrimary subview | setSecondary subview => exact lifecycle_broadcast done

/-! ### The run of the bar -/

/-- The emulator thread's part in a step of the app. -/
def AppStep.emulated : AppStep → Option System.Interleaving
  | .receive host => some (.receive host)
  | .turn inbox runner publishDue host => some (.turn inbox runner publishDue host)
  | .exit => some .exit
  | _ => none

/-- The emulator thread's part in a step of the bar's app. -/
def watched : TuiStep → Option System.Interleaving
  | .receive host => some (.receive host)
  | .turn inbox runner publishDue host => some (.turn inbox runner publishDue host)
  | .exit => some .exit
  | .action _ | .refreshStatus => none

/-- The lifecycle parts agree, and while the bar is open a use of it is recorded. -/
structure Simulates (app : App) (watch : Watch) : Prop where
  agrees : watch.app = app.lifecycle
  opened : app.input.mode = .command → watch.bar.isSome = true

/-- A run of the bar's app with these steps of the emulator thread has come to the app. -/
def Followed (start : Watch) (emulated : List System.Interleaving) (app : App) : Prop :=
  ∃ steps, Simulates app (run Watch.step start steps) ∧ steps.filterMap watched = emulated

variable {watch : Watch} {emulated : List System.Interleaving} {outside : Surroundings}
  {total : UartPort → List U8}

theorem Simulates.same (simulates : Simulates app watch) (same : after.lifecycle = app.lifecycle) :
    Simulates after watch := by
  have mode : after.input.mode = app.input.mode := congrArg Tui.App.mode same
  exact ⟨simulates.agrees.trans same.symm, fun open' => simulates.opened (mode.symm.trans open')⟩

theorem Followed.same (followed : Followed watch emulated app)
    (same : after.lifecycle = app.lifecycle) : Followed watch emulated after := by
  obtain ⟨steps, simulates, emulates⟩ := followed
  exact ⟨steps, simulates.same same, emulates⟩

/-- One step more. -/
theorem Followed.next (followed : Followed watch emulated app) (step : TuiStep)
    (simulated : ∀ watch, Simulates app watch → Simulates after (watch.step step)) :
    Followed watch (emulated ++ (watched step).toList) after := by
  obtain ⟨steps, simulates, emulates⟩ := followed
  refine ⟨steps ++ [step], ?_, ?_⟩
  · rw [run_append]
    exact simulated _ simulates
  · rw [List.filterMap_append, emulates, List.filterMap_cons]
    cases watched step <;> rfl

/-- A mode is entered from normal mode and left for normal mode. -/
theorem orderly_setMode {mode : InputMode} (orderly : app.Orderly (.setMode mode :: rest)) :
    app.input.mode = .normal ∨ mode = .normal := by
  cases orderly with
  | entry console normal => exact .inl normal
  | plain plain still => exact .inr (of_decide_eq_true (plain _ List.mem_cons_self))

theorem simulates_setMode {mode : InputMode} (simulates : Simulates app watch)
    (enters : app.input.mode = .normal ∨ mode = .normal) :
    Simulates (app.setMode mode) (watch.act (.setMode mode)) := by
  have entered : (app.setMode mode).input.mode = mode := (stays_setMode app mode).mode
  have moved : watch.app.setMode mode = (app.setMode mode).lifecycle :=
    (congrArg (·.setMode mode) simulates.agrees).trans (lifecycle_setMode app mode).symm
  have here : watch.app.mode = app.input.mode := congrArg Tui.App.mode simulates.agrees
  by_cases opened : app.input.mode = .command
  · obtain rfl : mode = .normal := enters.resolve_left fun normal => by
      rw [opened] at normal
      cases normal
    obtain ⟨use, bar⟩ := Option.isSome_iff_exists.mp (simulates.opened opened)
    refine ⟨?_, fun open' => ?_⟩
    · rw [← moved]
      simp only [Watch.act, here, opened, bar, ↓reduceIte]
      rfl
    · cases entered.symm.trans open'
  · refine ⟨?_, fun open' => ?_⟩
    · rw [← moved]
      simp only [Watch.act, here, opened, ↓reduceIte]
      rfl
    · simp only [Watch.act, here, opened, entered.symm.trans open', ↓reduceIte, Option.isSome_some]

theorem simulates_other (simulates : Simulates app watch)
    (other : ∀ mode, action ≠ .setMode mode) (done : app.processAction action = .ok (after, more)) :
    Simulates after (watch.act (app.lifecycleAction action)) := by
  have others : ∀ mode, app.lifecycleAction action ≠ .setMode mode := by
    cases action with
    | setMode mode => exact absurd rfl (other mode)
    | _ => exact fun _ => by simp [lifecycleAction]
  have moved : watch.app.processAction (app.lifecycleAction action) = after.lifecycle := by
    rw [simulates.agrees, lifecycle_processAction done]
  have mode : after.input.mode = app.input.mode := by
    have kept := (app.lifecycle.keeps_processAction others).mode
    rw [← lifecycle_processAction done] at kept
    exact kept
  rw [Watch.act_other watch others]
  refine ⟨moved, fun open' => ?_⟩
  rw [Option.isSome_map]
  exact simulates.opened (mode.symm.trans open')

theorem followed_action (followed : Followed watch emulated app)
    (orderly : app.Orderly (action :: rest)) (done : app.processAction action = .ok (after, more)) :
    Followed watch emulated after := by
  have simulated (watch : Watch) (simulates : Simulates app watch) :
      Simulates after (watch.step (.action (app.lifecycleAction action))) := by
    cases action with
    | setMode mode =>
      cases done
      exact simulates_setMode simulates (orderly_setMode orderly)
    | _ => exact simulates_other simulates (by simp) done
  have stepped := followed.next _ simulated
  rwa [watched, Option.toList_none, List.append_nil] at stepped

/-- What holds while a queue is processed. -/
structure Tracks (watch : Watch) (emulated : List System.Interleaving) (total : UartPort → List U8)
    (app : App) (actions : List Action) : Prop where
  consistent : app.Consistent total actions
  followed : Followed watch emulated app

theorem tracks_step (tracks : Tracks watch emulated total app (action :: rest))
    (done : app.processAction action = .ok (after, more)) :
    Tracks watch emulated total after (rest ++ more) :=
  ⟨consistent_step tracks.consistent done,
    followed_action tracks.followed tracks.consistent.orderly done⟩

theorem followed_processActions (followed : Followed watch emulated app)
    (consistent : app.Consistent total actions) (done : app.processActions actions = .ok after) :
    Followed watch emulated after := by
  have kept : Tracks watch emulated total after [] :=
    workOff_invariant (fun _ _ _ _ _ done tracks => tracks_step tracks done) ⟨consistent, followed⟩
      (processActions_ok done)
  exact kept.followed

theorem followed_quiet (followed : Followed watch emulated app) (placed : app.Placed)
    (quiet : ∀ action ∈ actions, action.quiet = true)
    (done : app.processActions actions = .ok after) :
    Followed watch emulated after :=
  followed_processActions followed
    (consistent_start placed (orderly_quiet quiet) fun action member _ =>
      owed_quiet app (quiet action member)) done

/-! ### Steps of the app -/

/-- A tick takes over the latest status. -/
theorem followed_tick {due : Bool} (followed : Followed watch emulated app) (placed : app.Placed)
    (done : app.tick outside due = .ok after) : Followed watch emulated after := by
  obtain ⟨middle, actions, ⟨⟨widgets, rfl⟩, quiet⟩, done⟩ := tick_ok done
  have known : app.runtime.refreshStatus.2.system = app.runtime.system ∧
      app.runtime.refreshStatus.2.status = app.runtime.system.service.status := by
    unfold RuntimeController.refreshStatus
    dsimp only
    split
    · rename_i same
      exact ⟨rfl, same.symm⟩
    · exact ⟨rfl, rfl⟩
  have simulated (watch : Watch) (simulates : Simulates app watch) :
      Simulates { app with runtime := app.runtime.refreshStatus.2.poll.2, widgets }
        (watch.step .refreshStatus) := by
    refine ⟨?_, simulates.opened⟩
    have fresh : (watch.step .refreshStatus).app = app.lifecycle.refreshStatus :=
      congrArg (·.refreshStatus) simulates.agrees
    rw [fresh]
    simp only [lifecycle, Tui.App.refreshStatus, RuntimeController.poll, known]
  have fresh := followed.next _ simulated
  rw [watched, Option.toList_none, List.append_nil] at fresh
  exact followed_quiet fresh ⟨placed.pane, placed.typing⟩ quiet done

theorem followed_event {event : Event} (followed : Followed watch emulated app)
    (placed : app.Placed) (done : app.handleEvent outside event = .ok after) :
    Followed watch emulated after := by
  cases event with
  | mouse mouse =>
    have same : (app.handleMouse outside mouse).1.lifecycle = app.lifecycle := by
      unfold handleMouse
      split
      · split
        · dsimp only
          split <;> rfl
        · rfl
      · split <;> rfl
      · rfl
      · rfl
    exact followed_processActions (followed.same same) (consistent_mouse placed mouse) done
  | input event =>
    unfold handleEvent at done
    dsimp only at done
    split at done
    · cases done
      exact followed.same rfl
    · rename_i open'
      have same : (app.routed event).lifecycle = app.lifecycle :=
        congrArg (fun mode => { app.lifecycle with mode }) (app.mode_route event)
      exact followed_processActions (followed.same same) (consistent_route placed event open') done

theorem followed_render {area : Area} (followed : Followed watch emulated app)
    (done : app.render outside area = .ok after) : Followed watch emulated after := by
  unfold render at done
  dsimp only at done
  split at done
  · cases done
    exact followed.same rfl
  · obtain ⟨_, _, same⟩ := bind_ok done
    cases same
    exact followed.same rfl

/-- A step of the emulator thread is the same step of it in the bar's app. -/
theorem followed_advance (followed : Followed watch emulated app) (next : System.Interleaving)
    (step : TuiStep) (same : watched step = some next)
    (advances : ∀ watch : Watch, ∃ quiet, watch.step step = watch.advance next quiet) :
    Followed watch (emulated ++ [next]) (app.advance next) := by
  have simulated (watch : Watch) (simulates : Simulates app watch) :
      Simulates (app.advance next) (watch.step step) := by
    obtain ⟨quiet, stepped⟩ := advances watch
    rw [stepped]
    refine ⟨?_, fun open' => ?_⟩
    · have advanced : (watch.advance next quiet).app = { app.lifecycle with
          runtime := { app.lifecycle.runtime with system := app.runtime.system.step next } } := by
        rw [Watch.advance, simulates.agrees]
        rfl
      exact advanced
    · rw [Watch.advance, Option.isSome_map]
      exact simulates.opened open'
  have stepped := followed.next step simulated
  rwa [same] at stepped

theorem followed_step {step : AppStep} (followed : Followed watch emulated app)
    (placed : app.Placed) (done : app.step outside step = .ok after) :
    Followed watch (emulated ++ step.emulated.toList) after := by
  have idle (followed : Followed watch emulated after) :
      Followed watch (emulated ++ []) after := by
    rwa [List.append_nil]
  cases step with
  | tick due => exact idle (followed_tick followed placed done)
  | event event => exact idle (followed_event followed placed done)
  | render area => exact idle (followed_render followed done)
  | answered channel response =>
    cases done
    exact idle (followed.same rfl)
  | receive host =>
    cases done
    exact followed_advance followed _ (.receive host) rfl fun _ => ⟨_, by rw [Watch.step]⟩
  | turn inbox runner publishDue host =>
    cases done
    exact followed_advance followed _ (.turn inbox runner publishDue host) rfl
      fun _ => ⟨_, by rw [Watch.step]⟩
  | exit =>
    cases done
    exact followed_advance followed _ .exit rfl fun _ => ⟨_, by rw [Watch.step]⟩

theorem followed_session {steps : List AppStep} {last : App} {typed : UartPort → List U8}
    (followed : Followed watch emulated app) (placed : app.Placed)
    (ran : session outside app steps = .ok (last, typed)) :
    Followed watch (emulated ++ steps.filterMap (·.emulated)) last := by
  induction steps generalizing app emulated typed with
  | nil =>
    cases ran
    rwa [List.filterMap_nil, List.append_nil]
  | cons step steps ih =>
    obtain ⟨middle, stepped, others⟩ := bind_ok ran
    obtain ⟨⟨_, rest⟩, remaining, same⟩ := bind_ok others
    cases same
    have later := ih (followed_step followed placed stepped) (placed_step placed stepped).1 remaining
    have joined : step.emulated.toList ++ steps.filterMap (·.emulated) =
        (step :: steps).filterMap (·.emulated) := by
      rw [List.filterMap_cons]
      cases step.emulated <;> rfl
    rwa [List.append_assoc, joined] at later

theorem followed_start {service : Service} {capacity : Nat}
    (paused : service.status.lifecycle = .paused)
    (started : start (.spawn service capacity) = .ok app) :
    Followed (.start service capacity) [] app := by
  obtain ⟨_, actions, ⟨⟨widgets, rfl⟩, quiet⟩, started⟩ := start_ok started
  refine followed_quiet ⟨[], ⟨?_, fun open' => (by cases open')⟩, rfl⟩
    ⟨rfl, fun insert => (by cases insert)⟩ quiet started
  have seen : (System.spawn service capacity).service.status.lifecycle = .paused := paused
  simp only [run_nil, Watch.start, lifecycle, seen]

/-- In whatever order keys, clicks, pastes, answers, ticks and the steps of the emulator thread
come, to lifecycle decisions the whole app behaves as the bar's: a run of that, with the same steps
of the emulator thread in the same order, ends with the same system, view and mode. -/
theorem lifecycle_refined {service : Service} {capacity : Nat} {steps : List AppStep} {last : App}
    {bytes : UartPort → List U8} (paused : service.status.lifecycle = .paused)
    (started : start (.spawn service capacity) = .ok app)
    (ran : session outside app steps = .ok (last, bytes)) :
    ∃ tuiSteps, (run Watch.step (.start service capacity) tuiSteps).app = last.lifecycle ∧
      tuiSteps.filterMap watched = steps.filterMap (·.emulated) := by
  obtain ⟨tuiSteps, simulates, emulates⟩ :=
    followed_session (followed_start paused started) (placed_start started).1 ran
  exact ⟨tuiSteps, simulates.agrees, emulates⟩

theorem status_start {config : RuntimeConfig} {host : HostOutcomes} {service : Service}
    (started : Service.start config host = .ok service) :
    service.status.lifecycle = if config.startPaused then .paused else .running := by
  obtain ⟨emulator, _, same⟩ := bind_ok started
  cases same
  rfl

/-- The guest is started from the bar: the thread answers the first refresh, takes the resume, and
the next tick of the app sees the guest run. -/
def startedGuest : List AppStep :=
  [':', 's', 't', 'a', 'r', 't'].map (fun letter => press (.char letter)) ++
    [press .enter, .receive System.quietHost, .receive System.quietHost, .tick false]

/-- Then the bar is opened over the running guest and left again. -/
def openedBar : List AppStep := [press (.char ':'), .receive System.quietHost]

def leftBar : List AppStep := [press .esc, .receive System.quietHost]

set_option maxRecDepth 8000 in
/-- The guest pauses while the bar is open and runs again when it has been left. -/
theorem lifecycle_refined_bar : ∃ service app middle last bytes bytes' tuiSteps,
    Service.start System.plainConfig System.quietHost = .ok service ∧
      start (.spawn service 4) = .ok app ∧
      session bareScreen app (startedGuest ++ openedBar) = .ok (middle, bytes) ∧
      middle.runtime.system.service.status.lifecycle = .paused ∧
      session bareScreen app (startedGuest ++ openedBar ++ leftBar) = .ok (last, bytes') ∧
      last.runtime.system.service.status.lifecycle = .running ∧
      (run Watch.step (.start service 4) tuiSteps).app = last.lifecycle ∧
      tuiSteps.filterMap watched = List.replicate 4 (.receive System.quietHost) := by
  have observed : ((Service.start System.plainConfig System.quietHost).toOption.bind fun service =>
      (start (.spawn service 4)).toOption.bind fun app =>
        (session bareScreen app (startedGuest ++ openedBar)).toOption.bind fun middle =>
          (session bareScreen app (startedGuest ++ openedBar ++ leftBar)).toOption.map fun last =>
            (middle.1.runtime.system.service.status.lifecycle,
              last.1.runtime.system.service.status.lifecycle)) =
      some (.paused, .running) := by decide +kernel
  obtain ⟨service, started, observed⟩ := Option.bind_eq_some_iff.mp observed
  obtain ⟨app, opened, observed⟩ := Option.bind_eq_some_iff.mp observed
  obtain ⟨⟨middle, bytes⟩, ranFirst, observed⟩ := Option.bind_eq_some_iff.mp observed
  obtain ⟨⟨last, bytes'⟩, ran, both⟩ := Option.map_eq_some_iff.mp observed
  obtain ⟨paused, running⟩ : _ ∧ _ := by simpa only [Prod.mk.injEq] using both
  rw [toOption_eq_some] at started opened ranFirst ran
  have initial : service.status.lifecycle = .paused := status_start started
  obtain ⟨tuiSteps, same, emulates⟩ := lifecycle_refined initial opened ran
  exact ⟨service, app, middle, last, bytes, bytes', tuiSteps, started, opened, ranFirst, paused,
    ran, running, same, emulates⟩

end App

end Minemu.Terminal
