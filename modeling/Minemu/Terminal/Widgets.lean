import Minemu.Headless.Config
import Minemu.Terminal.Router

/-! The widgets of the terminal UI: what each makes of a key and of an event of the app, and the
actions that it asks for. -/

namespace Minemu.Terminal

open Library Platform Minemu.Core Minemu.Unicorn Minemu.Runtime Minemu.Tui

/-- The app's events. -/
inductive AppEvent where
  | status (status : RuntimeStatus)
  | inspection (inspection : RuntimeInspection)
  | inspectionFailed (request : RuntimeInspectionRequest) (error : String)
  | viewChanged (view : View)
  | reset
  | pulse
  | refresh
  | navigate (motion : Motion)
  | goto (value : List Char)
  | insertText (text : List Char)
  | uartSelected (port : UartPort)
  | primarySelected (subview : PrimarySubview)
  | secondarySelected (subview : SecondarySubview)
  | dialog (message : DialogMessage)

/-! ### Texts -/

/-- The text of a struct or of a variant with fields under `{:?}`. -/
def debugFields (name : String) (fields : List (String × String)) : String :=
  name ++ " \x7b " ++ ", ".intercalate (fields.map fun field => field.1 ++ ": " ++ field.2) ++ " \x7d"

def debugTuple (name field : String) : String := name ++ "(" ++ field ++ ")"

def debugRange (range : PhysicalRange) : String :=
  debugFields "PhysicalRange" [
    ("start", debugTuple "PhysicalAddress" (toString range.start.get.toNat)),
    ("length", toString range.length.toNat)]

def debugVirtual (address : VirtualAddress) : String :=
  debugTuple "VirtualAddress" (toString address.get.toNat)

def debugMachine : InspectionRequest → String
  | .memory range => debugTuple "Memory" (debugRange range)
  | .mmu => "Mmu"
  | .peripherals => "Peripherals"
  | .events => "Events"

def debugRequest : RuntimeInspectionRequest → String
  | .machine request => debugTuple "Machine" (debugMachine request)
  | .liveMemory range => debugTuple "LiveMemory" (debugRange range)
  | .virtualMemory address length =>
    debugFields "VirtualMemory" [("address", debugVirtual address), ("length", toString length)]
  | .translate address => debugTuple "Translate" (debugVirtual address)
  | .execution address before after =>
    debugFields "Execution" [
      ("address", (address.map fun address => debugTuple "Some" (debugVirtual address)).getD "None"),
      ("before", toString before),
      ("after", toString after)]
  | .searchMemory pattern =>
    debugFields "SearchMemory" [
      ("pattern", "[" ++ ", ".intercalate (pattern.map fun byte => toString byte.toNat) ++ "]")]

def requestFailed (request : RuntimeInspectionRequest) (error : String) : DialogMessage :=
  .error (debugRequest request ++ " failed: " ++ error)

/-! ### Scrolling -/

/-- `usize::MAX`. -/
def lastUsize : Nat := 2 ^ 64 - 1

def navScroll (fromBottom : Nat) : Motion → Nat
  | .up count | .left count => saturatingAdd 64 fromBottom count
  | .down count | .right count | .nextItem count | .endItem count => fromBottom - count
  | .top => lastUsize
  | .bottom => 0

/-! ### Header, console, events and dialog -/

structure HeaderWidget where
  status : Option RuntimeStatus := none

def HeaderWidget.update (header : HeaderWidget) : AppEvent → HeaderWidget
  | .status status => { header with status := some status }
  | _ => header

/-- The console and how far it is scrolled up. -/
structure ConsoleWidget extends Tui.ConsoleWidget where
  fromBottom : Nat := 0

namespace ConsoleWidget

def send (console : ConsoleWidget) (bytes : List U8) : ConsoleWidget × List Action :=
  ({ console with toConsoleWidget := (console.toConsoleWidget.send bytes).1 },
    [.sendUart console.uart bytes])

/-- The console's motions by items do not scroll. -/
def scroll (fromBottom : Nat) : Motion → Nat
  | .up count | .left count => saturatingAdd 64 fromBottom count
  | .down count | .right count => fromBottom - count
  | .top => lastUsize
  | .bottom => 0
  | .nextItem _ | .endItem _ => fromBottom

def handleKey (console : ConsoleWidget) (key : KeyEvent) (mode : InputMode) :
    ConsoleWidget × List Action :=
  match mode, key.code with
  | .normal, .char 'i' => (console, [.setMode .insert])
  | .insert, .enter => console.send [10]
  | .insert, .backspace => console.send [8]
  | .insert, .char character => console.send (utf8 [character])
  | _, _ => (console, [])

def requestPeripherals : Action := .requestInspection .console (.machine .peripherals)

def update (console : ConsoleWidget) : AppEvent → ConsoleWidget × List Action
  | .inspection (.machine (.peripherals bus)) =>
    ({ console with
        uart0 := console.uart0.observe bus.uart0.inspect
        uart1 := console.uart1.observe bus.uart1.inspect }, [])
  | .viewChanged view =>
    ({ console with active := view = .runtime }, if view = .runtime then [requestPeripherals] else [])
  | .reset =>
    ({ console with
        uart0 := console.uart0.reset
        uart1 := console.uart1.reset
        fromBottom := 0 }, [])
  | .pulse => (console, if console.active then [requestPeripherals] else [])
  | .uartSelected uart => ({ console with uart }, [])
  | .navigate motion => ({ console with fromBottom := scroll console.fromBottom motion }, [])
  | .insertText text => console.send (utf8 text)
  | _ => (console, [])

end ConsoleWidget

structure EventsWidget where
  events : List ObservableEvent := []
  fromBottom : Nat := 0
  active : Bool := false

def EventsWidget.update (widget : EventsWidget) : AppEvent → EventsWidget × List Action
  | .inspection (.machine (.events events)) => ({ widget with events }, [])
  | .viewChanged view => ({ widget with active := view = .runtime }, [])
  | .pulse =>
    (widget, if widget.active then [.requestInspection .events (.machine .events)] else [])
  | .navigate motion => ({ widget with fromBottom := navScroll widget.fromBottom motion }, [])
  | _ => (widget, [])

structure DialogWidget where
  messages : List DialogMessage := []
  fromBottom : Nat := 0
  capacity : Nat := 256

namespace DialogWidget

def pushMessage (dialog : DialogWidget) (message : DialogMessage) : DialogWidget :=
  let messages :=
    if dialog.messages.length = dialog.capacity then dialog.messages.tail else dialog.messages
  { dialog with messages := messages ++ [message], fromBottom := 0 }

def update (dialog : DialogWidget) : AppEvent → DialogWidget
  | .dialog message => dialog.pushMessage message
  | .inspection (.translation address physical) =>
    dialog.pushMessage
      (.info (Headless.hexText address.get ++ " -> " ++ Headless.hexText physical.get))
  | .navigate motion => { dialog with fromBottom := navScroll dialog.fromBottom motion }
  | _ => dialog

end DialogWidget

/-! ### The primary pane -/

section Primary

open PrimaryWidget

variable (widget : PrimaryWidget)

/-- What the pane wants to know for its view. -/
def inspectionRequest : RuntimeInspectionRequest :=
  match widget.subview with
  | .physicalMemory => .liveMemory widget.memoryRange
  | .virtualMemory =>
    if widget.virtualInitialized then .virtualMemory widget.virtualStart widget.memoryWindow
    else .execution none 0 0
  | .disassembly =>
    .execution widget.disassemblyAddress (if widget.disassemblyAddress = none then 32 else 0) 224

def refreshPrimary : List Action := [.requestInspection .primary (inspectionRequest widget)]

def primaryKey (key : KeyEvent) (mode : InputMode) : List Action :=
  if mode ≠ .normal then []
  else match key.code with
    | .tab => [.setPrimary (nextPrimary widget.subview)]
    | .char '/' => if widget.subview = .physicalMemory then [.setMode .searchAscii] else []
    | .char '\\' => if widget.subview = .physicalMemory then [.setMode .searchBytes] else []
    | .char '>' => [.setMode .goto]
    | _ => []

/-- What a goto asks for after it: a message when the address is refused, the bytes otherwise. -/
def gotoActions (value : List Char) (after : PrimaryWidget) : List Action :=
  match Command.hexAddress value with
  | .error error => [.showMessage (.error error)]
  | .ok address =>
    if widget.subview = .physicalMemory ∧ memoryRegion ⟨address⟩ = none then
      [.showMessage (.error "address is outside Boot ROM, system ROM, and RAM")]
    else refreshPrimary after

/-- The bytes of the view are to be requested at the next pulse. -/
def dirty : Bool :=
  match widget.subview with
  | .physicalMemory => widget.memoryDirty
  | .virtualMemory => widget.virtualDirty
  | .disassembly => false

def updatePrimary : AppEvent → Except Panic (PrimaryWidget × List Action)
  | .inspection (.liveMemory range bytes) => do
    return (← widget.update (.liveMemory range bytes), [])
  | .inspection (.virtualMemory address bytes) => do
    return (← widget.update (.virtualMemory address bytes), [])
  | .inspection (.execution inspection) => do
    let after ← widget.update (.execution inspection)
    -- the first program counter places the virtual window, whose bytes are requested next
    let placed := widget.subview = .virtualMemory ∧ widget.virtualInitialized = false
    return (after, if placed then refreshPrimary after else [])
  | .inspection (.searchMemory (some address)) => do
    let after ← { widget with memoryCursor := address }.ensureCursorVisible
    return (after, [
      .setPrimary .physicalMemory,
      .showMessage (.info ("match at " ++ Headless.hexText address.get)),
      .refresh .primary])
  | .inspection (.searchMemory none) =>
    return (widget, [.showMessage (.info "pattern not found in physical RAM")])
  | .inspectionFailed request error =>
    return (widget,
      if request = inspectionRequest widget then [.showMessage (requestFailed request error)] else [])
  | .viewChanged view => do
    return (← widget.update (.viewChanged view), if view = .inspect then [.refresh .primary] else [])
  | .refresh => return (widget, if widget.active then refreshPrimary widget else [])
  | .pulse => do
    let after ← widget.update .pulse
    return (after, if widget.active ∧ dirty widget then refreshPrimary after else [])
  | .primarySelected subview => do
    let after ← widget.update (.primarySelected subview)
    return (after, if after.active then refreshPrimary after else [])
  | .navigate motion => do
    let after ← widget.update (.navigate motion)
    return (after, refreshPrimary after)
  | .goto value => do
    let after ← widget.update (.goto value)
    return (after, gotoActions widget value after)
  | _ => return (widget, [])

end Primary

/-! ### The secondary pane -/

structure SecondaryWidget where
  subview : SecondarySubview := .registers
  execution : Option ExecutionInspection := none
  peripherals : Option MmioBus := none
  mmu : Option Mmu := none
  rows : Fin 4 → Nat := fun _ => 0
  maxRows : Fin 4 → Nat := ![17, 0, 0, 0]
  active : Bool := false

namespace SecondaryWidget

variable (widget : SecondaryWidget)

def refresh : List Action :=
  let mmu := .requestInspection .secondary (.machine .mmu)
  let peripherals := .requestInspection .secondary (.machine .peripherals)
  match widget.subview with
  | .registers => [.requestInspection .secondary (.execution none 0 4)]
  | .system => [mmu]
  | .peripherals => [peripherals]
  | .pending => [mmu, peripherals]

/-- The row of a register by its name. -/
def registerRow (value : List Char) : Option Nat :=
  let name := value.map Char.toLower
  if name = "pc".toList then some 0
  else if name = "lr".toList then some 1
  else if name = "sp".toList then some 2
  else match name with
    | 'r' :: digits =>
      match Command.parseU64 digits with
      | some number => if 13 ≤ number then none else some (number + 3)
      | none => none
    | _ =>
      if name = "cpsr".toList then some 16
      else if name = "spsr".toList then some 17
      else none

def setRow (index : Fin 4) (row : Nat) : SecondaryWidget :=
  { widget with rows := Function.update widget.rows index row }

def gotoRegister (value : List Char) : SecondaryWidget × List Action :=
  match registerRow value with
  | some row => (widget.setRow SecondarySubview.registers.index row, [])
  | none => (widget, [.showMessage (.error "unknown register")])

def handleKey (key : KeyEvent) (mode : InputMode) : List Action :=
  if mode ≠ .normal then []
  else match key.code with
    | .tab => [.setSecondary widget.subview.next]
    | .char '>' => if widget.subview = .registers then [.setMode .goto] else []
    | _ => []

def navigate (motion : Motion) : SecondaryWidget :=
  let index := widget.subview.index
  let row := widget.rows index
  let last := widget.maxRows index
  widget.setRow index (match motion with
    | .up count | .left count => min (row - count) last
    | .down count | .right count | .nextItem count | .endItem count =>
      min (saturatingAdd 64 row count) last
    | .top => 0
    | .bottom => last)

def update : AppEvent → SecondaryWidget × List Action
  | .inspection (.execution execution) => ({ widget with execution := some execution }, [])
  | .inspection (.machine (.peripherals bus)) => ({ widget with peripherals := some bus }, [])
  | .inspection (.machine (.mmu mmu)) => ({ widget with mmu := some mmu }, [])
  | .viewChanged view =>
    ({ widget with active := view = .inspect }, if view = .inspect then [.refresh .secondary] else [])
  | .refresh => (widget, if widget.active then widget.refresh else [])
  | .secondarySelected subview =>
    let after := { widget with subview }
    (after, if after.active then after.refresh else [])
  | .navigate motion => (widget.navigate motion, [])
  | .goto value => if widget.subview = .registers then widget.gotoRegister value else (widget, [])
  | _ => (widget, [])

/-- The lines of the text of the view. -/
def contentLength : Nat :=
  let interrupts := if widget.peripherals.isSome then 9 else 2
  let fault := if (widget.mmu.bind fun mmu => mmu.lastFault).isSome then 6 else 2
  match widget.subview with
  | .registers => 18
  | .system => if widget.mmu.isSome then 4 else 2
  | .peripherals => widget.peripherals.elim 2 fun bus => if bus.trace.events = [] then 36 else 37
  | .pending => interrupts + fault

/-- Rendering keeps the last page full; the header of the registers stays in sight. -/
def render (area : Rect) : SecondaryWidget :=
  let index := widget.subview.index
  let sticky := if widget.subview = .registers then 1 else 0
  let viewport := max (area.height.toNat - 2 - sticky) 1
  let last := widget.contentLength - viewport
  { widget with
    rows := Function.update widget.rows index (min (widget.rows index) last)
    maxRows := Function.update widget.maxRows index last }

end SecondaryWidget

/-! ### The registry -/

theorem initialRange_nonempty : 256#32 ≠ 0#32 := by decide

theorem initialRange_fits : ramBase.toNat + (256#32).toNat ≤ 2 ^ 32 := by decide

/-- The range that the memory pane starts with. -/
def initialRange : PhysicalRange :=
  ⟨⟨ramBase⟩, 256, initialRange_nonempty, initialRange_fits⟩

/-- The widgets that hold state; the input bar, the hints and the help hold none. -/
structure Widgets where
  header : HeaderWidget := {}
  console : ConsoleWidget := {}
  events : EventsWidget := {}
  primary : PrimaryWidget := { memoryRange := initialRange }
  secondary : SecondaryWidget := {}
  dialog : DialogWidget := {}

namespace Widgets

variable (widgets : Widgets)

def handleKey (target : WidgetId) (key : KeyEvent) (mode : InputMode) : Widgets × List Action :=
  match target with
  | .console =>
    let (console, actions) := widgets.console.handleKey key mode
    ({ widgets with console }, actions)
  | .primary => (widgets, primaryKey widgets.primary key mode)
  | .secondary => (widgets, widgets.secondary.handleKey key mode)
  | .header | .events | .dialog | .inputBar | .hints | .help => (widgets, [])

/-- An event for one widget. -/
def target (target : WidgetId) (event : AppEvent) : Except Panic (Widgets × List Action) :=
  match target with
  | .header => return ({ widgets with header := widgets.header.update event }, [])
  | .console =>
    let (console, actions) := widgets.console.update event
    return ({ widgets with console }, actions)
  | .events =>
    let (events, actions) := widgets.events.update event
    return ({ widgets with events }, actions)
  | .primary => do
    let (primary, actions) ← updatePrimary widgets.primary event
    return ({ widgets with primary }, actions)
  | .secondary =>
    let (secondary, actions) := widgets.secondary.update event
    return ({ widgets with secondary }, actions)
  | .dialog => return ({ widgets with dialog := widgets.dialog.update event }, [])
  | .inputBar | .hints | .help => return (widgets, [])

/-- An event for all widgets, in the order of the registry. -/
def broadcast (event : AppEvent) : Except Panic (Widgets × List Action) := do
  let (console, ofConsole) := widgets.console.update event
  let (events, ofEvents) := widgets.events.update event
  let (primary, ofPrimary) ← updatePrimary widgets.primary event
  let (secondary, ofSecondary) := widgets.secondary.update event
  return (⟨widgets.header.update event, console, events, primary, secondary,
    widgets.dialog.update event⟩, ofConsole ++ ofEvents ++ ofPrimary ++ ofSecondary)

end Widgets

end Minemu.Terminal
