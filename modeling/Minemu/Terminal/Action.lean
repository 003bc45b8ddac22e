import Minemu.Tui.ConsoleReset
import Minemu.Tui.HexInput
import Minemu.Tui.MotionDecoder

/-! The actions of the terminal UI in full: what the input router, the command language and the
widgets ask of the app. -/

namespace Minemu.Terminal

open Library Platform Minemu.Core Minemu.Runtime Minemu.Tui

inductive SecondarySubview where
  | registers
  | system
  | peripherals
  | pending
deriving DecidableEq

namespace SecondarySubview

def next : SecondarySubview → SecondarySubview
  | registers => system
  | system => peripherals
  | peripherals => pending
  | pending => registers

def index : SecondarySubview → Fin 4
  | registers => 0
  | system => 1
  | peripherals => 2
  | pending => 3

end SecondarySubview

/-- `PrimarySubview::next`. -/
def nextPrimary : PrimarySubview → PrimarySubview
  | .physicalMemory => .virtualMemory
  | .virtualMemory => .disassembly
  | .disassembly => .physicalMemory

inductive DialogLevel where
  | info
  | error
deriving DecidableEq

structure DialogMessage where
  level : DialogLevel
  text : String
deriving DecidableEq

namespace DialogMessage

def info (text : String) : DialogMessage := ⟨.info, text⟩

def error (text : String) : DialogMessage := ⟨.error, text⟩

end DialogMessage

inductive SplitId where
  | runtimeMain
  | inspectMain
deriving DecidableEq

/-- The key codes that the router and the widgets tell apart. -/
inductive KeyCode where
  | char (character : Char)
  | enter
  | esc
  | backspace
  | tab
  | left
  | down
  | up
  | right
  | other
deriving DecidableEq

/-- The key code as the motion decoder sees it. -/
def KeyCode.motion : KeyCode → Tui.KeyCode
  | char character => .char character
  | left => .left
  | down => .down
  | up => .up
  | right => .right
  | enter | esc | backspace | tab | other => .other

/-- The kinds of key events other than a press are ignored; of the modifiers only Control
matters. -/
structure KeyEvent where
  code : KeyCode
  control : Bool
  press : Bool
deriving DecidableEq

inductive Action where
  | quit
  | selectView (view : View)
  | toggleView
  | focus (target : WidgetId)
  | setMode (mode : InputMode)
  | toggleRun
  | start (instructionLimit : Option ℕ+)
  | stop
  | reset
  | sendUart (port : UartPort) (bytes : List U8)
  | requestInspection (target : WidgetId) (request : RuntimeInspectionRequest)
  | widgetKey (target : WidgetId) (key : KeyEvent)
  | insertText (target : WidgetId) (text : List Char)
  | navigate (target : WidgetId) (motion : Motion)
  | goto (target : WidgetId) (value : List Char)
  | setUart (port : UartPort)
  | setPrimary (subview : PrimarySubview)
  | setSecondary (subview : SecondarySubview)
  | refresh (target : WidgetId)
  | showMessage (message : DialogMessage)
  | showHelp
  | resize (split : SplitId) (percent : Nat)

end Minemu.Terminal
