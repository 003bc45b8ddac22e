import Minemu.Library.Worklist
import Minemu.Terminal.Widgets
import Minemu.Tui.Inspections

/-! The app of the terminal UI: it routes input, processes the actions that input and widgets ask
for, and stands between the widgets and the emulator thread. -/

namespace Minemu.Terminal

open Library Platform Minemu.Core Minemu.Runtime Minemu.Tui

deriving instance DecidableEq for MachineStatus
deriving instance DecidableEq for RuntimeStatus

/-! ### The runtime behind its handle -/

/-- `sent` records what was handed to `send_uart`. -/
structure RuntimeController where
  system : System
  status : RuntimeStatus
  sent : UartPort → List U8 := fun _ => []
  pending : List PendingInspection := []
  channels : Nat := 0

namespace RuntimeController

variable (controller : RuntimeController)

def send (command : Command) : SendOutcome × RuntimeController :=
  let (outcome, system) := controller.system.send command
  (outcome, { controller with system })

def sendUart (port : UartPort) (bytes : List U8) : RuntimeController :=
  { controller with sent := record controller.sent port bytes }

/-- What is pending is not requested again. -/
def request (target : WidgetId) (request : RuntimeInspectionRequest) :
    SendOutcome × RuntimeController :=
  if controller.pending.any fun entry => entry.target = target && entry.request = request then
    (.sent, controller)
  else
    let (outcome, controller) := controller.send (.inspect request)
    if outcome = .sent then
      (.sent, { controller with
        pending := controller.pending ++ [⟨target, request, controller.channels, none⟩]
        channels := controller.channels + 1 })
    else (outcome, controller)

/-- The published status, when it is news. -/
def refreshStatus : Option RuntimeStatus × RuntimeController :=
  let status := controller.system.service.status
  if status = controller.status then (none, controller)
  else (some status, { controller with status })

/-- The answered inspections, in the order of the poll. -/
def poll : List PendingInspection × RuntimeController :=
  (takenFrom controller.pending.length 0 controller.pending,
    { controller with pending := (pollFrom controller.pending.length 0 controller.pending).2 })

end RuntimeController

/-! ### Layout -/

/-- A part of the terminal. -/
structure Area extends Rect where
  x : U16
  y : U16

/-- What the terminal library and the errors' texts give: the rows of the screen, its columns at a
percentage, the two panes of the right column, the help popup, the inside of the header, and what
an error of the runtime displays. -/
structure Surroundings where
  rows : Area → Area × Area × Area × Area
  columns : Nat → Area → Area × Area
  right : Area → Area × Area
  popup : Area → Area
  headerInner : Area → Area
  describe : RuntimeError → String

structure SplitLayout where
  runtimeMain : Nat := 65
  inspectMain : Nat := 65

def Area.contains (area : Area) (column row : Nat) : Bool :=
  area.x.toNat ≤ column && column < saturatingAdd 16 area.x.toNat area.width.toNat &&
    (area.y.toNat ≤ row && row < saturatingAdd 16 area.y.toNat area.height.toNat)

namespace SplitLayout

variable (layout : SplitLayout) (outside : Surroundings)

def resize (split : SplitId) (percent : Nat) : SplitLayout :=
  let percent := max 25 (min percent 80)
  match split with
  | .runtimeMain => { layout with runtimeMain := percent }
  | .inspectMain => { layout with inspectMain := percent }

def percent : View → Nat
  | .runtime => layout.runtimeMain
  | .inspect => layout.inspectMain

def splitColumn (area : Area) (view : View) : Nat :=
  area.x.toNat + saturatingMul 16 area.width.toNat (layout.percent view) / 100

/-- The one pane that a compact screen has room for. -/
def compactPane : View → WidgetId → WidgetId
  | .runtime, .events => .events
  | .runtime, .dialog => .dialog
  | .runtime, _ => .console
  | .inspect, .secondary => .secondary
  | .inspect, .dialog => .dialog
  | .inspect, _ => .primary

def areas (area : Area) (view : View) (focused : WidgetId) (target : WidgetId) : Option Area :=
  let (header, main, inputBar, hints) := outside.rows area
  let compact := main.width.toNat < 70 || main.height.toNat < 12
  let (left, column) := outside.columns (layout.percent view) main
  let (upper, lower) := outside.right column
  match target with
  | .header => some header
  | .inputBar => some inputBar
  | .hints => some hints
  | .help => some (outside.popup area)
  | pane =>
    if compact then if pane = compactPane view focused then some main else none
    else match view, pane with
      | .runtime, .console | .inspect, .primary => some left
      | .runtime, .events | .inspect, .secondary => some upper
      | _, .dialog => some lower
      | _, _ => none

def focusAt (area : Area) (view : View) (focused : WidgetId) (column row : Nat) : Option WidgetId :=
  [.console, .events, .primary, .secondary, .dialog].find? fun target =>
    (layout.areas outside area view focused target).any fun area => area.contains column row

end SplitLayout

/-- `HeaderWidget::view_at`. -/
def viewAt (outside : Surroundings) (area : Area) (column row : Nat) : Option View :=
  let inner := outside.headerInner area
  if row < inner.y.toNat ∨ saturatingAdd 16 inner.y.toNat inner.height.toNat ≤ row then none
  else if column < inner.x.toNat then none
  else
    let offset := column - inner.x.toNat
    if offset ≤ 10 then some .runtime
    else if 12 ≤ offset ∧ offset ≤ 22 then some .inspect
    else none

/-- The mouse events that the app tells apart. -/
inductive MouseKind where
  | downLeft
  | dragLeft
  | upLeft
  | other

structure MouseEvent where
  kind : MouseKind
  control : Bool
  column : Nat
  row : Nat

/-- The terminal's events. -/
inductive Event where
  | input (event : InputEvent)
  | mouse (event : MouseEvent)

def InputEvent.isPress : InputEvent → Bool
  | .key event => event.press
  | .paste _ | .other => false

def plainClickAction (outside : Surroundings) (layout : SplitLayout) (area : Area) (view : View)
    (focused : WidgetId) (mode : InputMode) (column row : Nat) : Option Action :=
  if mode = .insert then none
  else match (layout.areas outside area view focused .header).bind fun header =>
      viewAt outside header column row with
    | some view => some (.selectView view)
    | none => (layout.focusAt outside area view focused column row).map .focus

/-! ### The app -/

/-- The action queue is not among the fields: it is empty between events, and what an action or an
event puts at its back is returned. -/
structure App where
  runtime : RuntimeController
  widgets : Widgets := {}
  view : View := .runtime
  focused : WidgetId := .console
  input : InputRouter := {}
  layout : SplitLayout := {}
  quit : Bool := false
  resumeAfterInput : Bool := false
  suppressInputResume : Bool := false
  terminalArea : Area := ⟨⟨0, 0⟩, 0, 0⟩
  dragging : Option SplitId := none
  helpVisible : Bool := false

def visibleFocus (view : View) (target : WidgetId) : Bool :=
  match view, target with
  | .runtime, .console | .runtime, .events | .runtime, .dialog => true
  | .inspect, .primary | .inspect, .secondary | .inspect, .dialog => true
  | _, _ => false

def refreshes : List Action := [.refresh .primary, .refresh .secondary]

def debugLifecycle : LifecycleState → String
  | .starting => "Starting"
  | .running => "Running"
  | .paused => "Paused"
  | .stopping => "Stopping"
  | .stopped => "Stopped"
  | .failed => "Failed"

/-- The error of a send that was refused. -/
def sendError : SendOutcome → String
  | .disconnected => "runtime service has stopped"
  | .full | .sent => "runtime command queue is full"

namespace App

variable (app : App)

def send (command : Command) : SendOutcome × App :=
  let (outcome, runtime) := app.runtime.send command
  (outcome, { app with runtime })

def suppress : App := { app with suppressInputResume := true }

/-- A message for the dialog, which asks for nothing. -/
def showMessage (message : DialogMessage) : App :=
  { app with widgets := { app.widgets with dialog := app.widgets.dialog.update (.dialog message) } }

def runtimeError (operation : String) (outcome : SendOutcome) : App :=
  app.showMessage (.error (operation ++ " failed: " ++ sendError outcome))

def target (target : WidgetId) (event : AppEvent) : Except Panic (App × List Action) := do
  let (widgets, actions) ← app.widgets.target target event
  return ({ app with widgets }, actions)

def broadcast (event : AppEvent) : Except Panic (App × List Action) := do
  let (widgets, actions) ← app.widgets.broadcast event
  return ({ app with widgets }, actions)

def startEmulation (instructionLimit : Option ℕ+) : App :=
  if app.runtime.status.lifecycle ≠ .paused ∧ app.resumeAfterInput = false then
    app.showMessage (.error "emulation is not paused")
  else
    let (outcome, app) := app.send (.resume instructionLimit)
    if outcome = .sent then
      app.showMessage (.info (match instructionLimit with
        | none => "emulation started"
        | some count => "emulation started for " ++ toString count.val ++ " instructions"))
    else app.runtimeError "start" outcome

def stop : App × List Action :=
  if app.runtime.status.lifecycle ≠ .running then
    if app.runtime.status.lifecycle = .paused then (app, refreshes)
    else (app.showMessage (.error "emulation is not running"), [])
  else
    let (outcome, app) := app.send .pause
    if outcome = .sent then (app.showMessage (.info "emulation stopped"), refreshes)
    else (app.runtimeError "stop" outcome, [])

/-- The pane that a view starts with. -/
def firstFocus : View → WidgetId
  | .runtime => .console
  | .inspect => .primary

/-- The other view is shown; inspection stops a running guest. -/
def turn (view : View) : App × List Action :=
  let app := { app with view, focused := firstFocus view }
  if view = .inspect ∧ app.runtime.status.lifecycle = .running then app.suppress.stop else (app, [])

def selectView (view : View) : Except Panic (App × List Action) :=
  let app := if view = .inspect then app.suppress else app
  if app.view = view then return (app, [])
  else do
    let (app, stopping) := app.turn view
    let (app, actions) ← app.broadcast (.viewChanged view)
    return (app, stopping ++ actions)

/-- Opening the command bar pauses a running guest. -/
def pauseForInput (mode : InputMode) : App :=
  if mode = .command ∧ app.runtime.status.lifecycle = .running then
    let (outcome, app) := app.send .pause
    if outcome = .sent then { app with resumeAfterInput := true, suppressInputResume := false }
    else app
  else app

/-- Leaving it resumes what it paused. -/
def resumeAfter : App :=
  let app :=
    if app.resumeAfterInput = true ∧ app.suppressInputResume = false then app.startEmulation none
    else app
  { app with resumeAfterInput := false, suppressInputResume := false }

def setMode (mode : InputMode) : App :=
  let previous := app.input.mode
  if previous = mode then app
  else
    let app := app.pauseForInput mode
    let app := { app with input := app.input.setMode mode }
    if previous = .command ∧ mode = .normal then app.resumeAfter else app

def toggleRun : App × List Action :=
  if app.resumeAfterInput then app.stop
  else match app.runtime.status.lifecycle with
    | .running => app.stop
    | .paused => (app.startEmulation none, [])
    | state =>
      (app.showMessage (.error ("cannot toggle emulation while " ++ debugLifecycle state)), [])

def reset : Except Panic (App × List Action) :=
  let (outcome, app) := app.send .reset
  if outcome = .sent then do
    let (app, actions) ← app.broadcast .reset
    return (app.showMessage (.info "emulator reset requested"), actions ++ refreshes)
  else return (app.runtimeError "reset" outcome, [])

def requestInspection (target : WidgetId) (request : RuntimeInspectionRequest) : App :=
  let (outcome, runtime) := app.runtime.request target request
  let app := { app with runtime }
  if outcome = .sent then app else app.runtimeError (debugRequest request) outcome

def setUart (port : UartPort) : Except Panic (App × List Action) := do
  let (app, actions) ← app.broadcast (.uartSelected port)
  return (app.showMessage (.info ("console input set to UART" ++ portName port)), actions)

/-- One action, with what it puts at the back of the queue. -/
def processAction : Action → Except Panic (App × List Action)
  | .quit => return ({ app.suppress with quit := true }, [])
  | .selectView view => app.selectView view
  | .toggleView => app.selectView app.view.toggled
  | .focus target =>
    return (if visibleFocus app.view target then { app with focused := target } else app, [])
  | .setMode mode => return (app.setMode mode, [])
  | .toggleRun => return app.suppress.toggleRun
  | .start instructionLimit => return (app.suppress.startEmulation instructionLimit, [])
  | .stop => return app.suppress.stop
  | .reset => app.suppress.reset
  | .sendUart port bytes => return ({ app with runtime := app.runtime.sendUart port bytes }, [])
  | .requestInspection target request => return (app.requestInspection target request, [])
  | .widgetKey target key =>
    let (widgets, actions) := app.widgets.handleKey target key app.input.mode
    return ({ app with widgets }, actions)
  | .insertText target text => app.target target (.insertText text)
  | .navigate target motion => app.target target (.navigate motion)
  | .goto target value => app.target target (.goto value)
  | .setUart port => app.setUart port
  | .setPrimary subview => app.broadcast (.primarySelected subview)
  | .setSecondary subview => app.broadcast (.secondarySelected subview)
  | .refresh target => app.target target .refresh
  | .showMessage message => return (app.showMessage message, [])
  | .showHelp => return ({ app with helpVisible := true }, [])
  | .resize split percent => return ({ app with layout := app.layout.resize split percent }, [])

/-! ### The action queue -/

/-- What an action can still bring about: the most that it puts into the queue, and itself. -/
def weight : Action → Nat
  | .selectView _ | .toggleView => 19
  | .widgetKey _ _ => 10
  | .setSecondary _ => 9
  | .toggleRun | .stop | .reset => 7
  | .setPrimary _ => 5
  | .refresh _ | .navigate _ _ | .goto _ _ | .insertText _ _ => 3
  | _ => 1

theorem weight_pos (action : Action) : 0 < weight action := by
  cases action <;> simp [weight]

theorem weight_le (action : Action) : weight action ≤ 19 := by
  cases action <;> simp [weight]

/-- Processes the queue until it is empty; the rounds are as many as the queue weighs. -/
def processActions (actions : List Action) : Except Panic App :=
  (workOff processAction (load weight actions) app actions).map Prod.fst

/-! ### Ticks, events and frames -/

/-- The text of a breakpoint's stop. -/
def breakpointText (immediate : U16) (address : U32) : String :=
  "breakpoint #0x" ++ String.ofList ((Nat.toDigits 16 immediate.toNat).leftpad 4 '0') ++ " at " ++
    Headless.hexText address

/-- News of the status: a pause refreshes the inspection panes, and the dialog tells of a
breakpoint. -/
def takeStatus : Except Panic (App × List Action) :=
  let (news, runtime) := app.runtime.refreshStatus
  let app := { app with runtime }
  match news with
  | none => return (app, [])
  | some status => do
    let (app, actions) ← app.broadcast (.status status)
    if status.lifecycle ≠ .paused then return (app, actions)
    else match status.lastStop with
      | some (.breakpoint immediate address) =>
        return (app.showMessage (.info (breakpointText immediate address)), actions ++ refreshes)
      | _ => return (app, actions ++ refreshes)

/-- A failed inspection becomes a message; the primary pane is asked whether it still matters. -/
def inspectionFailed (entry : PendingInspection) (detail : String) :
    Except Panic (App × List Action) :=
  if entry.target = .primary then app.target .primary (.inspectionFailed entry.request detail)
  else return (app.showMessage (requestFailed entry.request detail), [])

/-- What a poll hands out reaches the widget that asked. -/
def deliver (outside : Surroundings) (entry : PendingInspection) :
    Except Panic (App × List Action) :=
  match entry.response with
  | some (.received (.ok inspection) _ _) => app.target entry.target (.inspection inspection)
  | some (.received (.error error) _ _) => app.inspectionFailed entry (outside.describe error)
  | some .disconnected => app.inspectionFailed entry "inspection response channel closed"
  | none => return (app, [])

def deliverAll (outside : Surroundings) : List PendingInspection → App →
    Except Panic (App × List Action)
  | [], app => return (app, [])
  | entry :: entries, app => do
    let (app, first) ← app.deliver outside entry
    let (app, rest) ← deliverAll outside entries app
    return (app, first ++ rest)

/-- `due` tells whether 100 ms have passed since the last pulse. -/
def pulse (due : Bool) : Except Panic (App × List Action) :=
  if due then app.broadcast .pulse else return (app, [])

/-- One round of the loop. The error it returns once the status is Failed is left out: sessions may
go on after it. -/
def tick (outside : Surroundings) (due : Bool) : Except Panic App := do
  let (app, ofStatus) ← app.takeStatus
  let (answered, runtime) := app.runtime.poll
  let (app, ofAnswers) ← deliverAll outside answered { app with runtime }
  let (app, ofPulse) ← app.pulse due
  app.processActions (ofStatus ++ ofAnswers ++ ofPulse)

def handleMouse (outside : Surroundings) (mouse : MouseEvent) : App × List Action :=
  match mouse.kind with
  | .downLeft =>
    if mouse.control then
      let split := match app.view with
        | .runtime => .runtimeMain
        | .inspect => .inspectMain
      let column := app.layout.splitColumn app.terminalArea app.view
      let near := mouse.column - column ≤ 2 ∧ column - mouse.column ≤ 2
      (if near then { app with dragging := some split } else app, [])
    else
      (app, (plainClickAction outside app.layout app.terminalArea app.view app.focused
        app.input.mode mouse.column mouse.row).toList)
  | .dragLeft =>
    match app.dragging with
    | none => (app, [])
    | some split =>
      let relative := mouse.column - app.terminalArea.x.toNat
      let width := app.terminalArea.width.toNat
      (app, if width = 0 then [] else [.resize split (saturatingMul 16 relative 100 / width)])
  | .upLeft => ({ app with dragging := none }, [])
  | .other => (app, [])

/-- A key press closes the help and does nothing else. -/
def handleEvent (outside : Surroundings) : Event → Except Panic App
  | .mouse event =>
    let (app, actions) := app.handleMouse outside event
    app.processActions actions
  | .input event =>
    if app.helpVisible ∧ event.isPress then return { app with helpVisible := false }
    else
      let (actions, input) := app.input.route event app.focused
      { app with input }.processActions actions

/-- The primary pane in its place on the screen, if it has one. -/
def renderPrimary (widget : PrimaryWidget) : Option Area → Except Panic PrimaryWidget
  | some area => widget.update (.render area.toRect)
  | none => return widget

/-- Rendering changes only what a widget derives from the size of its pane. -/
def render (outside : Surroundings) (area : Area) : Except Panic App := do
  let app := { app with terminalArea := area }
  let place := app.layout.areas outside area app.view app.focused
  if app.view = .runtime then return app
  else
    let primary ← renderPrimary app.widgets.primary (place .primary)
    let secondary := match place .secondary with
      | some area => app.widgets.secondary.render area.toRect
      | none => app.widgets.secondary
    return { app with widgets := { app.widgets with primary, secondary } }

/-- The app after it has seen the initial pause. -/
def start (system : System) : Except Panic App := do
  let app : App := { runtime := { system, status := system.service.status } }
  let (app, ofStatus) ← app.broadcast (.status app.runtime.status)
  let (app, ofView) ← app.broadcast (.viewChanged .runtime)
  app.processActions (ofStatus ++ ofView)

/-- A step of the UI thread, an answer on the channel of an inspection, or a step of the emulator
thread. -/
inductive AppStep where
  | tick (due : Bool)
  | event (event : Event)
  | render (area : Area)
  | answered (channel : Nat) (response : Response)
  | receive (host : HostOutcomes)
  | turn (inbox : UartPort → List U8) (runner : Service.Runner) (publishDue : Bool)
    (host : HostOutcomes)
  | exit

def advance (next : System.Interleaving) : App :=
  { app with runtime := { app.runtime with system := app.runtime.system.step next } }

def step (outside : Surroundings) : AppStep → Except Panic App
  | .tick due => app.tick outside due
  | .event event => app.handleEvent outside event
  | .render area => app.render outside area
  | .answered channel response =>
    return { app with runtime := { app.runtime with
      pending := app.runtime.pending.map (·.heard (some channel) response) } }
  | .receive host => return app.advance (.receive host)
  | .turn inbox runner publishDue host => return app.advance (.turn inbox runner publishDue host)
  | .exit => return app.advance .exit

end App

end Minemu.Terminal
