import Minemu.Runtime.GuestMode
import Minemu.Runtime.Shutdown

/-! The terminal UI's command bar: opening it pauses a running guest, leaving it resumes what was
paused. When does the round trip leave the guest in the mode it was in? -/

namespace Minemu.Tui

open Library Platform Minemu.Core Minemu.Runtime

inductive View where
  | runtime
  | inspect
deriving DecidableEq

def View.toggled : View → View
  | runtime => inspect
  | inspect => runtime

inductive InputMode where
  | normal
  | insert
  | command
  | leader
  | searchAscii
  | searchBytes
  | goto
deriving DecidableEq

/-- What the input router and the widgets ask of the app. `pending` tells whether the same
inspection is still unanswered; the actions that reach no further than widgets, layout, dialog
or the UART inbox carry nothing. -/
inductive Action where
  | quit
  | selectView (view : View)
  | toggleView
  | focus
  | setMode (mode : InputMode)
  | toggleRun
  | start (instructionLimit : Option ℕ+)
  | stop
  | reset
  | sendUart
  | requestInspection (request : RuntimeInspectionRequest) (pending : Bool)
  | widgetKey
  | insertText
  | navigate
  | goto
  | setUart
  | setPrimary
  | setSecondary
  | refresh
  | showMessage
  | showHelp
  | resize
deriving DecidableEq

/-- The runtime behind its handle, and the lifecycle of the latest status snapshot. -/
structure RuntimeController where
  system : System
  status : LifecycleState

/-- The part of the app that lifecycle decisions read. -/
structure App where
  runtime : RuntimeController
  view : View
  mode : InputMode
  quit : Bool
  resumeAfterInput : Bool
  suppressInputResume : Bool

namespace App

/-- `RuntimeHandle::send`, and whether it succeeded. -/
def send (app : App) (command : Command) : Bool × App :=
  let (outcome, system) := app.runtime.system.send command
  (outcome = .sent, { app with runtime := { app.runtime with system } })

def suppress (app : App) : App := { app with suppressInputResume := true }

def startEmulation (app : App) (instructionLimit : Option ℕ+) : App :=
  if app.runtime.status ≠ .paused ∧ app.resumeAfterInput = false then app
  else (app.send (.resume instructionLimit)).2

def stop (app : App) : App :=
  if app.runtime.status ≠ .running then app else (app.send .pause).2

def selectView (app : App) (view : View) : App :=
  let app := if view = .inspect then app.suppress else app
  if app.view = view then app
  else
    let app := { app with view }
    if view = .inspect ∧ app.runtime.status = .running then app.suppress.stop else app

/-- Opening the command bar pauses a running guest. -/
def pauseForInput (app : App) (mode : InputMode) : App :=
  if mode = .command ∧ app.runtime.status = .running then
    let (paused, app) := app.send .pause
    if paused then { app with resumeAfterInput := true, suppressInputResume := false } else app
  else app

/-- Leaving it resumes what it paused. -/
def resumeAfter (app : App) : App :=
  let app :=
    if app.resumeAfterInput = true ∧ app.suppressInputResume = false then app.startEmulation none
    else app
  { app with resumeAfterInput := false, suppressInputResume := false }

def setMode (app : App) (mode : InputMode) : App :=
  let previous := app.mode
  if previous = mode then app
  else
    let app := { app.pauseForInput mode with mode }
    if previous = .command ∧ mode = .normal then app.resumeAfter else app

def processAction (app : App) : Action → App
  | .quit => { app.suppress with quit := true }
  | .selectView view => app.selectView view
  | .toggleView => app.selectView app.view.toggled
  | .setMode mode => app.setMode mode
  | .toggleRun =>
    let app := app.suppress
    if app.resumeAfterInput then app.stop
    else match app.runtime.status with
      | .running => app.stop
      | .paused => app.startEmulation none
      | _ => app
  | .start instructionLimit => app.suppress.startEmulation instructionLimit
  | .stop => app.suppress.stop
  | .reset => (app.suppress.send .reset).2
  | .requestInspection request pending => if pending then app else (app.send (.inspect request)).2
  | _ => app

/-- The latest published status is taken over, as at the start of every UI tick. -/
def refreshStatus (app : App) : App :=
  { app with runtime := { app.runtime with
      status := app.runtime.system.service.status.lifecycle } }

/-- What the guest is doing. -/
def guest (app : App) : GuestMode := app.runtime.system.service.mode

def queue (app : App) : List Command := app.runtime.system.commands.queue

/-- Start, stop, toggle, reset, quit and select-inspect. -/
def disturbs (app : App) : Action → Bool
  | .quit | .toggleRun | .start _ | .stop | .reset => true
  | .selectView view => view = .inspect
  | .toggleView => app.view.toggled = .inspect
  | _ => false

end App

/-! ### Uses of the bar -/

/-- A use of the bar so far: the guest's mode and the queued commands when it was opened, whether
everything done since was undisturbing, and whether the guest has gone on without pausing or
ending of itself. -/
structure BarUse where
  mode : GuestMode
  queue : List Command
  plain : Bool
  quiet : Bool

/-- A use of the bar, with the guest's mode and the queued commands when it was left. -/
structure FinishedUse extends BarUse where
  modeLeft : GuestMode
  queueLeft : List Command

/-- What can come of the guest could have come of it without the bar, and where it did not pause
or end of itself it goes on as it would have. -/
structure FinishedUse.Transparent (use : FinishedUse) : Prop where
  possible : ∀ result, use.modeLeft.Outcome use.queueLeft result → use.mode.Outcome use.queue result
  kept : use.quiet = true → (use.mode.settle use.queue).Steady (use.modeLeft.settle use.queueLeft)

/-- The app and the record of its command bar. -/
structure Watch where
  app : App
  bar : Option BarUse
  finished : List FinishedUse

/-- One step of the UI thread or of the emulator thread. -/
inductive TuiStep where
  | action (action : Action)
  | refreshStatus
  | receive (host : HostOutcomes)
  | turn (inbox : UartPort → List U8) (runner : Service.Runner) (publishDue : Bool)
    (host : HostOutcomes)
  | exit

namespace Watch

/-- `App::start`, after it has seen the initial pause. -/
def start (service : Service) (commandCapacity : Nat) : Watch where
  app := ⟨⟨.spawn service commandCapacity, .paused⟩, .runtime, .normal, false, false, false⟩
  bar := none
  finished := []

/-- The emulator thread takes a step, in which the guest may have paused or ended of itself. -/
def advance (watch : Watch) (next : System.Interleaving) (quiet : GuestMode → GuestMode → Bool) :
    Watch :=
  let app := { watch.app with runtime := { watch.app.runtime with
    system := watch.app.runtime.system.step next } }
  { watch with
    app
    bar := watch.bar.map fun use =>
      { use with quiet := use.quiet && quiet watch.app.guest app.guest } }

/-- The bar is opened in any other mode, and left for normal mode only: while it is open the
router offers no other. -/
def act (watch : Watch) (action : Action) : Watch :=
  let app := watch.app.processAction action
  match action with
  | .setMode mode =>
    if watch.app.mode = .command then
      match mode, watch.bar with
      | .normal, some use =>
        { app
          bar := none
          finished := watch.finished ++ [{ use with modeLeft := app.guest, queueLeft := app.queue }] }
      | _, _ => watch
    else
      { watch with
        app
        bar := if mode = .command then some ⟨watch.app.guest, watch.app.queue, true, true⟩ else none }
  | action =>
    { watch with
      app
      bar := watch.bar.map fun use => { use with plain := use.plain && !watch.app.disturbs action } }

def step (watch : Watch) : TuiStep → Watch
  | .action action => watch.act action
  | .refreshStatus => { watch with app := watch.app.refreshStatus }
  | .receive host =>
    watch.advance (.receive host) fun before after =>
      after = watch.app.queue.head?.elim before before.effect
  | .turn inbox runner publishDue host =>
    watch.advance (.turn inbox runner publishDue host) fun before after => before.Steady after
  | .exit => watch.advance .exit fun _ _ => true

/-- A step that pauses the guest on opening the bar finds it running without a limit, or ended,
once the commands queued before are taken; one that resumes it on leaving finds room for the
command. -/
def Meets (watch : Watch) : TuiStep → Prop
  | .action (.setMode .command) =>
    watch.app.mode ≠ .command → watch.app.runtime.status = .running →
      (watch.app.send .pause).1 = true →
        watch.app.guest.settle watch.app.queue = .unbounded ∨
          watch.app.guest.settle watch.app.queue = .ended
  | .action (.setMode .normal) =>
    watch.app.mode = .command → watch.app.resumeAfterInput = true →
      watch.app.suppressInputResume = false → watch.app.runtime.system.commands.connected = true →
        watch.app.runtime.system.commands.HasRoom
  | _ => True

end Watch

/-! ### Sends -/

namespace App

variable {app : App} {command : Command}

/-- What no send changes. -/
structure Keeps (app after : App) : Prop where
  service : after.runtime.system.service = app.runtime.system.service
  connected : after.runtime.system.commands.connected = app.runtime.system.commands.connected
  mode : after.mode = app.mode
  resumes : after.resumeAfterInput = app.resumeAfterInput

theorem Keeps.refl (app : App) : Keeps app app := ⟨rfl, rfl, rfl, rfl⟩

theorem Keeps.trans {first second third : App} (before : Keeps first second)
    (after : Keeps second third) : Keeps first third :=
  ⟨after.service.trans before.service, after.connected.trans before.connected,
    after.mode.trans before.mode, after.resumes.trans before.resumes⟩

theorem keeps_send (app : App) (command : Command) : Keeps app (app.send command).2 :=
  ⟨rfl, Channel.trySend_connected, rfl, rfl⟩

theorem keeps_suppress (app : App) : Keeps app app.suppress := ⟨rfl, rfl, rfl, rfl⟩

theorem keeps_stop (app : App) : Keeps app app.stop := by
  unfold stop
  split
  · exact .refl app
  · exact keeps_send app .pause

theorem keeps_startEmulation (app : App) (limit : Option ℕ+) : Keeps app (app.startEmulation limit) := by
  unfold startEmulation
  split
  · exact .refl app
  · exact keeps_send app _

theorem keeps_selectView (app : App) (view : View) : Keeps app (app.selectView view) := by
  have changed (app : App) : Keeps app { app with view } := ⟨rfl, rfl, rfl, rfl⟩
  have selected (app : App) : Keeps app (if app.view = view then app
      else if view = .inspect ∧ app.runtime.status = .running then
        { app with view }.suppress.stop
      else { app with view }) := by
    split
    · exact .refl app
    · split
      · exact ((changed app).trans (keeps_suppress _)).trans (keeps_stop _)
      · exact changed app
  by_cases inspect : view = .inspect
  · have unfolded := selected app.suppress
    rw [inspect] at unfolded ⊢
    exact (keeps_suppress app).trans unfolded
  · have unfolded := selected app
    unfold selectView
    simp only [inspect, ↓reduceIte] at unfolded ⊢
    exact unfolded

theorem send_sent : (app.send command).1 = true ↔
    app.runtime.system.commands.connected = true ∧ app.runtime.system.commands.HasRoom := by
  have placed : (app.send command).1 = true ↔
      (app.runtime.system.commands.trySend command).1 = .sent := decide_eq_true_iff
  exact placed.trans Channel.trySend_sent_iff

theorem queue_sent (sent : (app.send command).1 = true) :
    (app.send command).2.queue = app.queue ++ [command] := by
  obtain ⟨connected, room⟩ := send_sent.mp sent
  exact (Channel.trySend_sent connected room).2.1

theorem queue_refused (refused : (app.send command).1 = false) :
    (app.send command).2.queue = app.queue := by
  have failed : ¬ (app.runtime.system.commands.connected = true ∧
      app.runtime.system.commands.HasRoom) := by
    intro both
    rw [send_sent.mpr both] at refused
    cases refused
  rw [not_and_or, Bool.not_eq_true] at failed
  exact congrArg Channel.queue (Channel.trySend_failed failed).2

/-- Every action but a change of mode keeps the service, the mode and what the bar will resume. -/
theorem keeps_processAction (app : App) {action : Action} (other : ∀ mode, action ≠ .setMode mode) :
    Keeps app (app.processAction action) := by
  cases action with
  | setMode mode => exact absurd rfl (other mode)
  | quit => exact ⟨rfl, rfl, rfl, rfl⟩
  | selectView view => exact app.keeps_selectView view
  | toggleView => exact app.keeps_selectView _
  | toggleRun =>
    unfold processAction
    simp only
    split
    · exact (keeps_suppress app).trans (keeps_stop _)
    · split
      · exact (keeps_suppress app).trans (keeps_stop _)
      · exact (keeps_suppress app).trans (keeps_startEmulation _ none)
      · exact keeps_suppress app
  | start limit => exact (keeps_suppress app).trans (keeps_startEmulation _ limit)
  | stop => exact (keeps_suppress app).trans (keeps_stop _)
  | reset => exact (keeps_suppress app).trans (keeps_send _ .reset)
  | requestInspection request pending =>
    cases pending with
    | true => exact .refl app
    | false => exact keeps_send app _
  | focus | sendUart | widgetKey | insertText | navigate | goto | setUart | setPrimary
  | setSecondary | refresh | showMessage | showHelp | resize => exact .refl app

/-- An undisturbing one suppresses nothing and at most asks for an inspection. -/
theorem processAction_plain (app : App) {action : Action} (other : ∀ mode, action ≠ .setMode mode)
    (plain : app.disturbs action = false) :
    (app.processAction action).suppressInputResume = app.suppressInputResume ∧
      ((app.processAction action).queue = app.queue ∨
        ∃ request, (app.processAction action).queue = app.queue ++ [.inspect request]) := by
  have selected (view : View) (runtime : view ≠ .inspect) :
      (app.selectView view).suppressInputResume = app.suppressInputResume ∧
        (app.selectView view).queue = app.queue := by
    unfold selectView
    simp only [runtime, ↓reduceIte, false_and]
    split <;> exact ⟨rfl, rfl⟩
  cases action with
  | setMode mode => exact absurd rfl (other mode)
  | selectView view =>
    obtain ⟨suppressed, queue⟩ := selected view (by simpa [disturbs] using plain)
    exact ⟨suppressed, .inl queue⟩
  | toggleView =>
    obtain ⟨suppressed, queue⟩ := selected app.view.toggled (by simpa [disturbs] using plain)
    exact ⟨suppressed, .inl queue⟩
  | requestInspection request pending =>
    cases pending with
    | true => exact ⟨rfl, .inl rfl⟩
    | false =>
      refine ⟨rfl, ?_⟩
      cases sent : (app.send (.inspect request)).1 with
      | true => exact .inr ⟨request, queue_sent sent⟩
      | false => exact .inl (queue_refused sent)
  | quit | toggleRun | start limit | stop | reset => cases plain
  | focus | sendUart | widgetKey | insertText | navigate | goto | setUart | setPrimary
  | setSecondary | refresh | showMessage | showHelp | resize => exact ⟨rfl, .inl rfl⟩

end App

/-! ### An open bar -/

namespace BarUse

variable {use after : BarUse} {app next : App} {pending : List Command}

/-- What the guest and the queue have come to follows from what they were when the bar was
opened, with what opening it placed behind them. -/
structure Follows (use : BarUse) (pending : List Command) (app : App) : Prop where
  possible : ∀ result, app.guest.Outcome app.queue result →
    use.mode.Outcome (use.queue ++ pending) result
  kept : use.quiet = true →
    (use.mode.settle (use.queue ++ pending)).Steady (app.guest.settle app.queue)

/-- Whether leaving the bar will resume the guest. -/
inductive Pending (use : BarUse) (app : App) : Prop
  | untouched (idle : app.resumeAfterInput = false) (follows : use.Follows [] app)
  | paused (resumes : app.resumeAfterInput = true) (unsuppressed : app.suppressInputResume = false)
      (running : use.mode.settle use.queue = .unbounded ∨ use.mode.settle use.queue = .ended)
      (follows : use.Follows [.pause] app)

/-- Nothing has happened yet. -/
theorem follows_opened (mode : GuestMode) (queue pending : List Command) (plain quiet : Bool)
    (guest : app.guest = mode) (queued : app.queue = queue ++ pending) :
    Follows ⟨mode, queue, plain, quiet⟩ pending app := by
  constructor
  · intro result outcome
    rw [guest, queued] at outcome
    exact outcome
  · intro _
    rw [guest, queued]
    exact .refl _

/-- A step of the guest or of the queue that follows from what was before. -/
theorem Follows.moved (follows : use.Follows pending app) (mode : after.mode = use.mode)
    (queue : after.queue = use.queue) (quiet : after.quiet = true → use.quiet = true)
    (possible : ∀ result, next.guest.Outcome next.queue result → app.guest.Outcome app.queue result)
    (kept : after.quiet = true →
      (app.guest.settle app.queue).Steady (next.guest.settle next.queue)) :
    after.Follows pending next := by
  constructor
  · intro result outcome
    rw [mode, queue]
    exact follows.possible result (possible result outcome)
  · intro still
    rw [mode, queue]
    exact (follows.kept (quiet still)).trans (kept still)

/-- An inspection is queued behind everything and changes nothing. -/
theorem Follows.inspected (follows : use.Follows pending app) (mode : after.mode = use.mode)
    (queue : after.queue = use.queue) (quiet : after.quiet = use.quiet)
    (guest : next.guest = app.guest) {request : RuntimeInspectionRequest}
    (queued : next.queue = app.queue ++ [.inspect request]) : after.Follows pending next := by
  refine follows.moved mode queue (fun still => quiet ▸ still) ?_ ?_
  · intro result outcome
    rw [guest, queued, GuestMode.outcome_append] at outcome
    obtain ⟨middle, before, later⟩ := outcome
    rw [Service.effect_inspect] at later
    exact before.drifts later
  · intro _
    rw [guest, queued, GuestMode.settle_append, Service.effect_inspect]
    exact .refl _

theorem Follows.same (follows : use.Follows pending app) (mode : after.mode = use.mode)
    (queue : after.queue = use.queue) (quiet : after.quiet = use.quiet)
    (guest : next.guest = app.guest) (queued : next.queue = app.queue) :
    after.Follows pending next := by
  refine follows.moved mode queue (fun still => quiet ▸ still) ?_ ?_
  · intro result outcome
    rwa [guest, queued] at outcome
  · intro _
    rw [guest, queued]
    exact .refl _

theorem Pending.moved (before : use.Pending app) (mode : after.mode = use.mode)
    (queue : after.queue = use.queue) (resumes : next.resumeAfterInput = app.resumeAfterInput)
    (suppressed : next.suppressInputResume = app.suppressInputResume)
    (follows : ∀ pending, use.Follows pending app → after.Follows pending next) :
    after.Pending next := by
  cases before with
  | untouched idle opened => exact .untouched (resumes.trans idle) (follows _ opened)
  | paused pausing unsuppressed running opened =>
    rw [← mode, ← queue] at running
    exact .paused (resumes.trans pausing) (suppressed.trans unsuppressed) running (follows _ opened)

end BarUse

namespace Watch

variable {watch : Watch}

/-- A closed channel has no service behind it, nothing is to be resumed while the bar is not
open, an open use that was plain so far is pending, and the finished ones are transparent. -/
structure Sound (watch : Watch) : Prop where
  closed : watch.app.runtime.system.commands.connected = false →
    watch.app.runtime.system.service.live = false
  idle : watch.app.mode ≠ .command → watch.app.resumeAfterInput = false
  pending : ∀ use ∈ watch.bar, use.plain = true → use.Pending watch.app
  finished : ∀ use ∈ watch.finished, use.plain = true → use.Transparent

theorem sound_start (service : Service) (capacity : Nat) : (start service capacity).Sound := by
  constructor
  · nofun
  · intro _
    rfl
  · nofun
  · nofun

/-! ### The emulator thread -/

/-- Receiving takes the oldest command and lets the service process it, or does nothing. -/
theorem receive_cases (system : System) (host : HostOutcomes) :
    system.step (.receive host) = system ∨
      ∃ command rest, system.commands.queue = command :: rest ∧
        (system.step (.receive host)).service = system.service.step (.command command host) ∧
        (system.step (.receive host)).commands.queue = rest := by
  simp only [System.step]
  split
  · exact .inl rfl
  · split
    · exact .inl rfl
    · rename_i command first
      obtain ⟨rest, queue⟩ := List.head?_eq_some_iff.mp first
      refine .inr ⟨command, rest, queue, rfl, ?_⟩
      simp only [Channel.receive, queue, List.tail_cons]

/-- What receiving leaves of the guest and the queue was possible before. -/
theorem possible_receive (system : System) (host : HostOutcomes) {result : GuestMode}
    (outcome : (system.step (.receive host)).service.mode.Outcome
      (system.step (.receive host)).commands.queue result) :
    system.service.mode.Outcome system.commands.queue result := by
  rcases receive_cases system host with same | ⟨command, rest, queue, service, left⟩
  · rwa [same] at outcome
  · rw [service, left] at outcome
    rw [queue]
    rcases Service.mode_command system.service command host with took | ended
    · rw [took] at outcome
      exact outcome.taken
    · rw [ended] at outcome
      rw [outcome.of_ended]
      exact GuestMode.outcome_ended _ _

theorem settle_receive (system : System) (host : HostOutcomes)
    (quiet : (system.step (.receive host)).service.mode =
      system.commands.queue.head?.elim system.service.mode system.service.mode.effect) :
    (system.service.mode.settle system.commands.queue).Steady
      ((system.step (.receive host)).service.mode.settle
        (system.step (.receive host)).commands.queue) := by
  rcases receive_cases system host with same | ⟨command, rest, queue, service, left⟩
  · rw [same]
    exact .refl _
  · rw [queue, List.head?_cons, Option.elim_some] at quiet
    rw [quiet, queue, left]
    exact .refl _

theorem Sound.advanced (sound : watch.Sound) (next : System.Interleaving)
    (quiet : GuestMode → GuestMode → Bool)
    (closed : (watch.app.runtime.system.step next).commands.connected = false →
      (watch.app.runtime.system.step next).service.live = false)
    (possible : ∀ result, (watch.app.runtime.system.step next).service.mode.Outcome
        (watch.app.runtime.system.step next).commands.queue result →
      watch.app.guest.Outcome watch.app.queue result)
    (kept : quiet watch.app.guest (watch.app.runtime.system.step next).service.mode = true →
      (watch.app.guest.settle watch.app.queue).Steady
        ((watch.app.runtime.system.step next).service.mode.settle
          (watch.app.runtime.system.step next).commands.queue)) :
    (watch.advance next quiet).Sound := by
  refine ⟨closed, sound.idle, ?_, sound.finished⟩
  intro after opened plain
  obtain ⟨use, was, rfl⟩ := Option.map_eq_some_iff.mp opened
  refine (sound.pending use was plain).moved rfl rfl rfl rfl fun pending follows => ?_
  refine follows.moved rfl rfl ?_ possible ?_
  · intro still
    exact (Bool.and_eq_true_iff.mp still).1
  · intro still
    exact kept (Bool.and_eq_true_iff.mp still).2

theorem sound_receive (sound : watch.Sound) (host : HostOutcomes) :
    (watch.step (.receive host)).Sound := by
  refine Sound.advanced sound (.receive host) (fun before after =>
    after = watch.app.queue.head?.elim before before.effect) ?_
    (fun result => possible_receive _ host) ?_
  · intro gone
    have same : (watch.app.runtime.system.step (.receive host)).commands.connected =
        watch.app.runtime.system.commands.connected := by
      simp only [System.step]
      split
      · rfl
      · split <;> rfl
    have stopped := sound.closed (same ▸ gone)
    simp only [System.step, stopped, ↓reduceIte]
  · intro quiet
    exact settle_receive _ host (decide_eq_true_iff.mp quiet)

theorem sound_turn (sound : watch.Sound) (inbox : UartPort → List U8) (runner : Service.Runner)
    (publishDue : Bool) (host : HostOutcomes) :
    (watch.step (.turn inbox runner publishDue host)).Sound := by
  refine Sound.advanced sound (.turn inbox runner publishDue host)
    (fun before after => before.Steady after) ?_ ?_ ?_
  · intro gone
    exact System.step_stopped (sound.closed gone) _
  · intro result outcome
    exact outcome.drifted (Service.drifts_turn _ inbox runner publishDue host)
  · intro quiet
    exact (decide_eq_true_iff.mp quiet).settle _

theorem sound_exit (sound : watch.Sound) : (watch.step .exit).Sound := by
  cases live : watch.app.runtime.system.service.live with
  | true =>
    have same : watch.app.runtime.system.step .exit = watch.app.runtime.system := by
      simp only [System.step, live, ↓reduceIte]
    refine Sound.advanced sound .exit (fun _ _ => true) ?_ ?_ ?_
    · rw [same]
      exact sound.closed
    · rw [same]
      exact fun result outcome => outcome
    · rw [same]
      exact fun _ => .refl _
  | false =>
    have dropped : watch.app.runtime.system.step .exit =
        { watch.app.runtime.system with
          commands := watch.app.runtime.system.commands.disconnect } := by
      simp only [System.step, live, Bool.false_eq_true, ↓reduceIte]
    have ended : watch.app.guest = .ended := Service.mode_ended live
    have still : watch.app.runtime.system.service.mode = .ended := ended
    refine Sound.advanced sound .exit (fun _ _ => true) ?_ ?_ ?_
    · rw [dropped]
      exact fun _ => live
    · rw [dropped, ended]
      intro result outcome
      dsimp only at outcome
      rw [still] at outcome
      rw [outcome.of_ended]
      exact GuestMode.outcome_ended _ _
    · rw [dropped, ended]
      intro _
      dsimp only
      rw [still, GuestMode.settle_ended, GuestMode.settle_ended]
      exact .refl _

/-! ### The UI thread -/

theorem sound_refreshStatus (sound : watch.Sound) : (watch.step .refreshStatus).Sound := by
  refine ⟨sound.closed, sound.idle, ?_, sound.finished⟩
  intro use opened plain
  refine (sound.pending use opened plain).moved rfl rfl rfl rfl fun pending follows => ?_
  exact follows.same rfl rfl rfl rfl rfl

/-- What the app keeps keeps a closed channel without a service. -/
theorem Sound.kept_closed (sound : watch.Sound) {app : App} (keeps : watch.app.Keeps app) :
    app.runtime.system.commands.connected = false → app.runtime.system.service.live = false := by
  rw [keeps.connected, keeps.service]
  exact sound.closed

theorem act_other (watch : Watch) {action : Action} (other : ∀ mode, action ≠ .setMode mode) :
    watch.act action = { watch with
      app := watch.app.processAction action
      bar := watch.bar.map fun use =>
        { use with plain := use.plain && !watch.app.disturbs action } } := by
  cases action <;> first | rfl | exact absurd rfl (other _)

theorem sound_other (sound : watch.Sound) {action : Action}
    (other : ∀ mode, action ≠ .setMode mode) : (watch.act action).Sound := by
  have keeps := watch.app.keeps_processAction other
  rw [act_other watch other]
  refine ⟨sound.kept_closed keeps, ?_, ?_, sound.finished⟩
  · intro closed
    dsimp only at closed ⊢
    rw [keeps.mode] at closed
    rw [keeps.resumes]
    exact sound.idle closed
  · intro after opened plain
    obtain ⟨use, was, rfl⟩ := Option.map_eq_some_iff.mp opened
    obtain ⟨before, undisturbing⟩ := Bool.and_eq_true_iff.mp plain
    obtain ⟨suppressed, queue⟩ := watch.app.processAction_plain other
      (by simpa using undisturbing)
    have guest : (watch.app.processAction action).guest = watch.app.guest :=
      congrArg Service.mode keeps.service
    refine (sound.pending use was before).moved rfl rfl keeps.resumes suppressed
      fun pending follows => ?_
    rcases queue with same | ⟨request, inspected⟩
    · exact follows.same rfl rfl rfl guest same
    · exact follows.inspected rfl rfl rfl guest inspected

/-! ### Opening the bar -/

/-- Opening the bar pauses the guest, or leaves everything as it was. -/
theorem pauseForInput_cases (app : App) :
    (app.runtime.status = .running ∧ (app.send .pause).1 = true ∧
      app.pauseForInput .command = { (app.send .pause).2 with
        resumeAfterInput := true, suppressInputResume := false }) ∨
    (app.Keeps (app.pauseForInput .command) ∧ (app.pauseForInput .command).queue = app.queue) := by
  by_cases running : app.runtime.status = .running
  · cases sent : (app.send .pause).1 with
    | true =>
      refine .inl ⟨running, rfl, ?_⟩
      unfold App.pauseForInput
      rw [if_pos ⟨rfl, running⟩]
      simp only [sent, ↓reduceIte]
    | false =>
      have refused : app.pauseForInput .command = (app.send .pause).2 := by
        unfold App.pauseForInput
        rw [if_pos ⟨rfl, running⟩]
        simp only [sent, Bool.false_eq_true, ↓reduceIte]
      rw [refused]
      exact .inr ⟨app.keeps_send .pause, App.queue_refused sent⟩
  · have same : app.pauseForInput .command = app := by
      unfold App.pauseForInput
      rw [if_neg fun both => running both.2]
    rw [same]
    exact .inr ⟨.refl app, rfl⟩

theorem act_open (watch : Watch) (closed : watch.app.mode ≠ .command) :
    watch.act (.setMode .command) = { watch with
      app := { watch.app.pauseForInput .command with mode := .command }
      bar := some ⟨watch.app.guest, watch.app.queue, true, true⟩ } := by
  have entered : watch.app.processAction (.setMode .command) =
      { watch.app.pauseForInput .command with mode := .command } := by
    simp only [App.processAction, App.setMode, closed, false_and, ↓reduceIte]
  simp only [act, entered, closed, ↓reduceIte]

theorem sound_open (sound : watch.Sound) (closed : watch.app.mode ≠ .command)
    (meets : watch.Meets (.action (.setMode .command))) :
    (watch.act (.setMode .command)).Sound := by
  rw [act_open watch closed]
  have idle := sound.idle closed
  rcases pauseForInput_cases watch.app with ⟨running, sent, paused⟩ | ⟨keeps, queue⟩
  · have gone := sound.kept_closed (watch.app.keeps_send .pause)
    rw [paused]
    refine ⟨gone, fun left => absurd rfl left, ?_, sound.finished⟩
    intro use opened _
    cases opened
    refine .paused rfl rfl (meets closed running sent) ?_
    exact BarUse.follows_opened _ _ _ _ _ rfl (App.queue_sent sent)
  · have gone := sound.kept_closed keeps
    refine ⟨gone, fun left => absurd rfl left, ?_, sound.finished⟩
    intro use opened _
    cases opened
    refine .untouched (keeps.resumes.trans idle) ?_
    refine BarUse.follows_opened _ _ _ _ _ (congrArg Service.mode keeps.service) ?_
    rw [List.append_nil]
    exact queue

theorem sound_enter (sound : watch.Sound) (closed : watch.app.mode ≠ .command) {mode : InputMode}
    (other : mode ≠ .command) : (watch.act (.setMode mode)).Sound := by
  have entered : watch.act (.setMode mode) =
      { watch with app := { watch.app with mode }, bar := none } := by
    have moved : watch.app.setMode mode = { watch.app with mode } := by
      unfold App.setMode App.pauseForInput
      simp only [other, closed, false_and, ↓reduceIte]
      split
      · rename_i same
        rw [← same]
      · rfl
    simp only [act, App.processAction, moved, closed, other, ↓reduceIte]
  rw [entered]
  exact ⟨sound.closed, fun _ => sound.idle closed, nofun, sound.finished⟩

/-! ### Leaving it -/

/-- The app after the bar is left: a pending resume is sent. -/
def leaving (app : App) : App :=
  if app.resumeAfterInput = true ∧ app.suppressInputResume = false then (app.send (.resume none)).2
  else app

theorem setMode_normal (app : App) (opened : app.mode = .command) :
    app.setMode .normal = { leaving app with
      mode := .normal, resumeAfterInput := false, suppressInputResume := false } := by
  have unpaused : app.pauseForInput .normal = app := by
    unfold App.pauseForInput
    rw [if_neg fun both => nomatch both.1]
  unfold App.setMode leaving
  rw [unpaused]
  simp only [opened, reduceCtorEq, and_self, ↓reduceIte, App.resumeAfter, App.startEmulation]
  by_cases resumes : app.resumeAfterInput = true ∧ app.suppressInputResume = false
  · simp only [resumes, and_self, ↓reduceIte, Bool.true_eq_false, and_false]
    rfl
  · rw [if_neg resumes, if_neg resumes]

theorem keeps_leaving (app : App) : app.Keeps (leaving app) := by
  unfold leaving
  split
  · exact app.keeps_send _
  · exact .refl app

/-- Resuming what the bar paused takes the guest back to what it was. -/
theorem transparent_resumed {use : BarUse} {app : App} {queueLeft : List Command}
    (running : use.mode.settle use.queue = .unbounded ∨ use.mode.settle use.queue = .ended)
    (follows : use.Follows [.pause] app) (resumed : queueLeft = app.queue ++ [.resume none]) :
    FinishedUse.Transparent ⟨use, app.guest, queueLeft⟩ := by
  constructor
  · intro result outcome
    dsimp only at outcome ⊢
    rw [resumed, GuestMode.outcome_append] at outcome
    obtain ⟨middle, before, later⟩ := outcome
    obtain ⟨first, possible, pausing⟩ := GuestMode.outcome_append.mp (follows.possible middle before)
    rcases running with unbounded | ended
    · rcases GuestMode.drifts_pause pausing with rfl | rfl
      · have goes := GuestMode.outcome_settle use.mode use.queue
        rw [unbounded] at goes
        exact goes.drifts later
      · rw [GuestMode.effect_ended] at later
        rw [GuestMode.ended_of_drifts later]
        exact GuestMode.outcome_ended _ _
    · rw [possible.of_settled ended, GuestMode.effect_ended] at pausing
      rw [GuestMode.ended_of_drifts pausing, GuestMode.effect_ended] at later
      rw [GuestMode.ended_of_drifts later]
      exact GuestMode.outcome_ended _ _
  · intro still
    have kept := follows.kept still
    dsimp only
    rw [GuestMode.settle_append] at kept
    rw [resumed, GuestMode.settle_append]
    rcases running with unbounded | ended
    · rw [unbounded] at kept ⊢
      have paused : app.guest.settle app.queue = .paused := kept.symm
      rw [paused]
      exact .refl _
    · rw [ended, GuestMode.effect_ended] at kept
      rw [ended]
      have done : app.guest.settle app.queue = .ended := kept.symm
      rw [done]
      exact .refl _

/-- A guest whose service has gone was to be resumed in vain. -/
theorem transparent_gone {use : BarUse} {app : App} {queueLeft : List Command}
    (running : use.mode.settle use.queue = .unbounded ∨ use.mode.settle use.queue = .ended)
    (follows : use.Follows [.pause] app) (ended : app.guest = .ended) :
    FinishedUse.Transparent ⟨use, app.guest, queueLeft⟩ := by
  constructor
  · intro result outcome
    dsimp only at outcome ⊢
    rw [ended] at outcome
    rw [outcome.of_ended]
    exact GuestMode.outcome_ended _ _
  · intro still
    have kept := follows.kept still
    dsimp only
    rw [GuestMode.settle_append, ended, GuestMode.settle_ended] at kept
    rw [ended, GuestMode.settle_ended]
    rcases running with unbounded | done
    · rw [unbounded] at kept
      cases kept
    · rw [done]
      exact .refl _

theorem transparent_untouched {use : BarUse} {app : App} (follows : use.Follows [] app) :
    FinishedUse.Transparent ⟨use, app.guest, app.queue⟩ := by
  obtain ⟨possible, kept⟩ := follows
  rw [List.append_nil] at possible kept
  exact ⟨possible, kept⟩

theorem transparent_leaving (sound : watch.Sound) (opened : watch.app.mode = .command)
    (meets : watch.Meets (.action (.setMode .normal))) {use : BarUse}
    (pending : use.Pending watch.app) :
    FinishedUse.Transparent ⟨use, watch.app.guest, (leaving watch.app).queue⟩ := by
  cases pending with
  | untouched idle follows =>
    have same : leaving watch.app = watch.app := by
      unfold leaving
      rw [idle, if_neg fun both => nomatch both.1]
    rw [same]
    exact transparent_untouched follows
  | paused resumes unsuppressed running follows =>
    have resumed : leaving watch.app = (watch.app.send (.resume none)).2 := by
      unfold leaving
      rw [if_pos ⟨resumes, unsuppressed⟩]
    cases connected : watch.app.runtime.system.commands.connected with
    | true =>
      have room := meets opened resumes unsuppressed connected
      refine transparent_resumed running follows ?_
      rw [resumed]
      exact App.queue_sent (App.send_sent.mpr ⟨connected, room⟩)
    | false => exact transparent_gone running follows (Service.mode_ended (sound.closed connected))

theorem sound_leave (sound : watch.Sound) (opened : watch.app.mode = .command)
    (meets : watch.Meets (.action (.setMode .normal))) : (watch.act (.setMode .normal)).Sound := by
  have keeps := keeps_leaving watch.app
  cases bar : watch.bar with
  | none =>
    have same : watch.act (.setMode .normal) = watch := by
      simp only [act, opened, bar, ↓reduceIte]
    rw [same]
    exact sound
  | some use =>
    have left : watch.act (.setMode .normal) =
        { app := { leaving watch.app with
            mode := .normal, resumeAfterInput := false, suppressInputResume := false }
          bar := none
          finished := watch.finished ++
            [⟨use, (leaving watch.app).guest, (leaving watch.app).queue⟩] } := by
      have normal := setMode_normal watch.app opened
      simp only [act, App.processAction, normal, opened, bar, ↓reduceIte]
      rfl
    have gone := sound.kept_closed keeps
    rw [left]
    refine ⟨gone, fun _ => rfl, nofun, ?_⟩
    intro finished member plain
    rcases List.mem_append.mp member with before | now
    · exact sound.finished finished before plain
    · rw [List.mem_singleton] at now
      subst now
      have guest : (leaving watch.app).guest = watch.app.guest := congrArg Service.mode keeps.service
      rw [guest]
      exact transparent_leaving sound opened meets (sound.pending use bar plain)

/-- While the bar is open only leaving it changes the mode. -/
theorem act_stays (watch : Watch) (opened : watch.app.mode = .command) {mode : InputMode}
    (stays : mode ≠ .normal) : watch.act (.setMode mode) = watch := by
  simp only [act, opened, ↓reduceIte]
  cases mode with
  | normal => exact absurd rfl stays
  | insert | command | leader | searchAscii | searchBytes | goto => rfl

/-! ### Runs -/

theorem sound_setMode (sound : watch.Sound) (mode : InputMode)
    (meets : watch.Meets (.action (.setMode mode))) : (watch.act (.setMode mode)).Sound := by
  by_cases opened : watch.app.mode = .command
  · by_cases leaves : mode = .normal
    · rw [leaves] at meets ⊢
      exact sound_leave sound opened meets
    · rw [act_stays watch opened leaves]
      exact sound
  · by_cases opens : mode = .command
    · rw [opens] at meets ⊢
      exact sound_open sound opened meets
    · exact sound_enter sound opened opens

theorem sound_step (watch : Watch) (step : TuiStep) (meets : watch.Meets step)
    (sound : watch.Sound) : (watch.step step).Sound := by
  cases step with
  | action action =>
    by_cases other : ∀ mode, action ≠ .setMode mode
    · exact sound_other sound other
    · push Not at other
      obtain ⟨mode, rfl⟩ := other
      exact sound_setMode sound mode meets
  | refreshStatus => exact sound_refreshStatus sound
  | receive host => exact sound_receive sound host
  | turn inbox runner publishDue host => exact sound_turn sound inbox runner publishDue host
  | exit => exact sound_exit sound

/-- In a run whose every step meets the condition, each use of the bar with no disturbing command
leaves the guest as it was: whatever can come of it could have come of it without the bar, and
where the guest neither paused nor ended of itself meanwhile, it goes on doing what it did. -/
theorem command_bar_transparent (service : Service) (commandCapacity : Nat) (steps : List TuiStep)
    (meets : Throughout step Meets (start service commandCapacity) steps) :
    ∀ watch ∈ visited step (start service commandCapacity) steps,
      ∀ use ∈ watch.finished, use.plain = true → use.Transparent := by
  intro watch reached
  exact (throughout_invariant sound_step _ _ (sound_start service commandCapacity) meets
    watch reached).finished

/-- Opening the bar over a run without a limit and leaving it again. -/
def cancelled : List TuiStep :=
  [.action (.start none), .receive System.quietHost, .refreshStatus, .action (.setMode .command),
    .receive System.quietHost, .action (.setMode .normal)]

theorem meets_cancelled : ∃ service, Service.start System.plainConfig System.quietHost = .ok service ∧
    Throughout step Meets (start service 4) cancelled ∧
      ∀ watch ∈ visited step (start service 4) cancelled,
        ∀ use ∈ watch.finished, use.plain = true → use.Transparent := by
  obtain ⟨service, started⟩ : ∃ service,
      Service.start System.plainConfig System.quietHost = .ok service := ⟨_, rfl⟩
  have meets : Throughout step Meets (start service 4) cancelled := by
    cases started
    refine ⟨trivial, trivial, trivial, fun _ _ _ => .inl rfl, trivial, fun _ _ _ _ => ?_, trivial⟩
    decide +kernel
  exact ⟨service, started, meets, command_bar_transparent service 4 cancelled meets⟩

/-- The same over a run of five instructions: it goes on without a limit. -/
def limitLost : List TuiStep :=
  [.action (.start (some 5)), .receive System.quietHost, .refreshStatus,
    .action (.setMode .command), .receive System.quietHost, .action (.setMode .normal)]

theorem limit_lost : ∃ service, Service.start System.plainConfig System.quietHost = .ok service ∧
    ∃ use ∈ (run step (start service 4) limitLost).finished, use.plain = true ∧
      use.mode = .bounded 5 ∧ use.queue = [] ∧
      use.modeLeft.settle use.queueLeft = .unbounded ∧ ¬ use.Transparent := by
  refine ⟨_, rfl, _, .head _, rfl, rfl, rfl, rfl, ?_⟩
  intro transparent
  have limited : GuestMode.Steady (.bounded 5) .unbounded := transparent.kept rfl
  cases limited

end Watch

end Minemu.Tui
