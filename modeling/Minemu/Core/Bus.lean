import Minemu.Core.Block
import Minemu.Core.Peripherals

/-! The typed MMIO bus. -/

namespace Minemu.Core

open Platform

/-- Typed MMIO bus and all backend-independent peripheral state. -/
structure MmioBus where
  interrupts : InterruptController
  systick : SysTick
  block : BlockDevice
  rng : Rng
  uart0 : Uart
  uart1 : Uart
  trace : TraceDevice

namespace MmioBus

def new : MmioBus where
  interrupts := .new
  systick := .new
  block := .new
  rng := .new
  uart0 := .new 4096 8192 .uart0
  uart1 := .new 4096 8192 .uart1
  trace := .new 4096

def send (bus : MmioBus) (signals : List InterruptSignal) : MmioBus :=
  { bus with interrupts := bus.interrupts.send signals }

def processSignals (bus : MmioBus) : MmioBus :=
  { bus with interrupts := bus.interrupts.processSignals }

/-- `self.systick.update`: the device method, with its signals sent. -/
def updateSysTick (bus : MmioBus) (update : SysTickUpdate) : MmioBus :=
  let (systick, signals) := bus.systick.update update
  { bus with systick }.send signals

/-- `self.block.update`, also called directly by the host. -/
def updateBlock (bus : MmioBus) (update : BlockUpdate) : Except CoreError MmioBus :=
  (bus.block.update update).map fun (block, signals) => { bus with block }.send signals

def updateUart0 (bus : MmioBus) (update : UartUpdate) : MmioBus :=
  let (uart0, signals) := bus.uart0.update update
  { bus with uart0 }.send signals

def updateUart1 (bus : MmioBus) (update : UartUpdate) : MmioBus :=
  let (uart1, signals) := bus.uart1.update update
  { bus with uart1 }.send signals

def updateInterrupts (bus : MmioBus) (update : InterruptUpdate) : Except CoreError MmioBus :=
  (bus.interrupts.update update).map fun interrupts => { bus with interrupts }

def readRegister (bus : MmioBus) : MmioRegister → U32 × MmioBus
  | .interrupt register =>
    let (value, interrupts) := bus.interrupts.read register
    (value, { bus with interrupts })
  | .sysTick register => (bus.systick.read register, bus)
  | .dma register => (bus.block.read register, bus)
  | .rng register =>
    let (value, rng) := bus.rng.read register
    (value, { bus with rng })
  | .uart0 register =>
    let (value, uart0, signals) := bus.uart0.read register
    (value, { bus with uart0 }.send signals)
  | .uart1 register =>
    let (value, uart1, signals) := bus.uart1.read register
    (value, { bus with uart1 }.send signals)
  -- The decoder rejects trace reads, so this arm is unreachable from `access`.
  | .trace _ => (0, bus)

def writeRegister (bus : MmioBus) (register : MmioRegister) (value : U32) (now : Nat) :
    Except CoreError MmioBus :=
  match register with
  | .interrupt register => bus.updateInterrupts (.write register value)
  | .sysTick register => .ok (bus.updateSysTick (.write register value now))
  | .dma register => bus.updateBlock (.write register value now)
  | .rng register => .ok { bus with rng := bus.rng.update register value }
  | .uart0 register => .ok (bus.updateUart0 (.write register value))
  | .uart1 register => .ok (bus.updateUart1 (.write register value))
  | .trace register => .ok { bus with trace := bus.trace.update register value }

/-- Validates and executes one typed MMIO transaction. -/
def access (bus : MmioBus) (transaction : MmioTransaction) (now : Nat) :
    Except CoreError (Option U32 × MmioBus) :=
  match decodeMmio transaction with
  | .error error => .error (.platform error)
  | .ok register =>
    match transaction.access with
    | .write =>
      (bus.writeRegister register transaction.value now).map fun bus => (none, bus.processSignals)
    | _ =>
      let (value, bus) := bus.readRegister register
      .ok (some value, bus.processSignals)

/-- Completes all deadlines at `now` before the next instruction begins. -/
def advanceTo (bus : MmioBus) (now : Nat) (memory : PhysicalMemory) : MmioBus × PhysicalMemory :=
  let bus := bus.updateSysTick (.advanceTo now)
  let (block, memory, signals) := bus.block.advanceTo now memory
  (({ bus with block }.send signals).processSignals, memory)

def receiveUart (bus : MmioBus) (index : U8) (byte : U8) : MmioBus :=
  let bus := match index.toNat with
    | 0 => bus.updateUart0 (.receive byte)
    | 1 => bus.updateUart1 (.receive byte)
    | _ => bus
  bus.processSignals

/-- `bus.block.flush`, called directly by the host. -/
def flushBlock (bus : MmioBus) (unit : U32) (host : Host)
    (writeMedia : Host → List U8 → Except IoError Unit × Host) :
    Except CoreError Unit × MmioBus × Host :=
  let (result, block, host, signals) := bus.block.flush unit host writeMedia
  (result, { bus with block }.send signals, host)

def retireTraceEvents (bus : MmioBus) (tick : Nat) : List TraceEvent × MmioBus :=
  let (committed, trace) := bus.trace.retire tick
  (committed, { bus with trace })

/-- The level each peripheral drives its interrupt line with. -/
def level (bus : MmioBus) : Source → Bool
  | .sysTick => bus.systick.irqPending
  | .uart0 => bus.uart0.irqPending
  | .uart1 => bus.uart1.irqPending
  | .block => bus.block.irqPending

/-- No register read touches the block device. -/
theorem block_readRegister (bus : MmioBus) (register : MmioRegister) :
    (bus.readRegister register).2.block = bus.block := by
  cases register <;> rfl

end MmioBus

end Minemu.Core
