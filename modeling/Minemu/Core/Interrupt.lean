import Minemu.Core.Memory
import Minemu.Platform.Mmio

/-! The interrupt controller. Peripherals send it level transitions through a
queue; it drains the queue into its own PENDING bitmap. -/

namespace Minemu.Core

open Platform

/-- A level transition sent from a peripheral to the interrupt controller. -/
structure InterruptSignal where
  source : Source
  pending : Bool
deriving DecidableEq

/-- One state-changing interrupt-controller input. -/
inductive InterruptUpdate where
  | write (register : InterruptRegister) (value : U32)
deriving DecidableEq

/-- Deterministic interrupt-controller state independent of CPU delivery. The
`receiver` holds the signals sent and not yet drained, oldest first. -/
structure InterruptController where
  receiver : List InterruptSignal
  pending : U32
  enabled : U32
  priorities : Source → U8
  claim : Option Source

namespace InterruptController

def new : InterruptController where
  receiver := []
  pending := 0
  enabled := 0
  priorities
    | .sysTick => defaultPrioritySysTick
    | .uart0 => defaultPriorityUart0
    | .uart1 => defaultPriorityUart1
    | .block => defaultPriorityBlock
  claim := none

/-- `Sender::send` on a channel whose receiver is this controller. -/
def send (controller : InterruptController) (signals : List InterruptSignal) :
    InterruptController :=
  { controller with receiver := controller.receiver ++ signals }

def applySignal (pending : U32) (signal : InterruptSignal) : U32 :=
  if signal.pending then pending ||| signal.source.bit else pending &&& ~~~signal.source.bit

/-- Drains queued peripheral level transitions into the controller-owned bitmap. -/
def processSignals (controller : InterruptController) : InterruptController :=
  { controller with
    receiver := []
    pending := controller.receiver.foldl applySignal controller.pending }

def setEnabled (controller : InterruptController) (enabled : U32) : InterruptController :=
  { controller with enabled := enabled &&& 0x0f#32 }

def priority (controller : InterruptController) (source : Source) : U8 :=
  controller.priorities source

def setPriority (controller : InterruptController) (source : Source) (priority : U8) :
    InterruptController :=
  { controller with priorities := Function.update controller.priorities source priority }

/-- The sources that are pending and enabled, in identifier order. -/
def candidates (controller : InterruptController) : List Source :=
  Source.all.filter fun source =>
    controller.pending &&& controller.enabled &&& source.bit != 0#32

/-- The first of the lowest-priority-value sources; ties keep the smaller identifier. -/
def select (controller : InterruptController) : List Source → Option Source
  | [] => none
  | source :: rest =>
    match controller.select rest with
    | none => some source
    | some best =>
      if (controller.priority best).toNat < (controller.priority source).toNat then some best
      else some source

/-- Returns and retains the active source until matching EOI. -/
def claimSource (controller : InterruptController) : Option Source × InterruptController :=
  let controller := controller.processSignals
  match controller.claim with
  | some source => (some source, controller)
  | none =>
    let claim := controller.select controller.candidates
    (claim, { controller with claim })

def eoi (controller : InterruptController) (source : U32) :
    Except CoreError InterruptController :=
  match controller.claim with
  | none => .error (.invalidEoi (BitVec.allOnes 32) source)
  | some claim =>
    if source ≠ claim.id then .error (.invalidEoi claim.id source)
    else .ok { controller with claim := none }

def read (controller : InterruptController) (register : InterruptRegister) :
    U32 × InterruptController :=
  match register with
  | .pending => (controller.processSignals.pending, controller.processSignals)
  | .enable => (controller.enabled, controller)
  | .claim =>
    let (claim, controller) := controller.claimSource
    (claim.elim (BitVec.allOnes 32) Source.id, controller)
  | .prioritySysTick => ((controller.priority .sysTick).setWidth 32, controller)
  | .priorityUart0 => ((controller.priority .uart0).setWidth 32, controller)
  | .priorityUart1 => ((controller.priority .uart1).setWidth 32, controller)
  | .priorityBlock => ((controller.priority .block).setWidth 32, controller)
  | .eoi => (0, controller)

def update (controller : InterruptController) :
    InterruptUpdate → Except CoreError InterruptController
  | .write .enable value => .ok (controller.setEnabled value)
  | .write .eoi value => controller.eoi value
  | .write .prioritySysTick value => .ok (controller.setPriority .sysTick (value.setWidth 8))
  | .write .priorityUart0 value => .ok (controller.setPriority .uart0 (value.setWidth 8))
  | .write .priorityUart1 value => .ok (controller.setPriority .uart1 (value.setWidth 8))
  | .write .priorityBlock value => .ok (controller.setPriority .block (value.setWidth 8))
  | .write _ _ => .ok controller

end InterruptController

end Minemu.Core
