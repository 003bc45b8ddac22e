import Minemu.Core.Interrupt

/-! SysTick, the two UARTs, the RNG and the trace device. A method that sends to
the interrupt controller returns the signals it sent. -/

namespace Minemu.Core

open Platform

/-- One state-changing SysTick input. -/
inductive SysTickUpdate where
  | write (register : SysTickRegister) (value : U32) (now : Nat)
  | advanceTo (now : Nat)
deriving DecidableEq

/-- SysTick state and exact virtual deadline scheduling. -/
structure SysTick where
  period : U32
  enabled : Bool
  periodic : Bool
  irqEnabled : Bool
  pending : Bool
  nextDeadline : Option Nat
deriving DecidableEq

namespace SysTick

def new : SysTick := ⟨0, false, false, false, false, none⟩

def control (timer : SysTick) : U32 :=
  (if timer.enabled then 1#32 else 0) ||| ((if timer.periodic then 1#32 else 0) <<< 1) |||
    ((if timer.irqEnabled then 1#32 else 0) <<< 2)

def status (timer : SysTick) : U32 := if timer.pending then 1 else 0

def irqPending (timer : SysTick) : Bool := timer.pending && timer.irqEnabled

def setPeriod (timer : SysTick) (period : U32) (now : Nat) : SysTick :=
  { timer with
    period
    nextDeadline := if timer.enabled then some (now + period.toNat) else timer.nextDeadline }

def setControl (timer : SysTick) (control : U32) (now : Nat) : SysTick :=
  let wasEnabled := timer.enabled
  let enabled := control &&& 1#32 != 0#32
  let nextDeadline :=
    if enabled ∧ (!wasEnabled ∨ timer.nextDeadline.isNone) ∧ timer.period ≠ 0#32 then
      some (now + timer.period.toNat)
    else timer.nextDeadline
  { timer with
    enabled
    periodic := control &&& 2#32 != 0#32
    irqEnabled := control &&& 4#32 != 0#32
    nextDeadline := if enabled then nextDeadline else none }

def ack (timer : SysTick) : SysTick := { timer with pending := false }

/-- The loop that moves a periodic deadline past `now`. It runs at most once for
each tick between them, which bounds it. -/
def catchUp (period now : Nat) : Nat → Nat → Nat
  | 0, deadline => deadline
  | fuel + 1, deadline =>
    if deadline ≤ now then catchUp period now fuel (deadline + period) else deadline

/-- Processes all deadlines no later than `now`. -/
def advanceTo (timer : SysTick) (now : Nat) : SysTick :=
  match timer.nextDeadline with
  | none => timer
  | some deadline =>
    if now < deadline then timer
    else if timer.periodic ∧ timer.period ≠ 0#32 then
      { timer with
        pending := true
        nextDeadline := some (catchUp timer.period.toNat now (now + 1 - deadline) deadline) }
    else { timer with pending := true, enabled := false, nextDeadline := none }

def signal (timer : SysTick) : InterruptSignal := ⟨.sysTick, timer.irqPending⟩

def read (timer : SysTick) : SysTickRegister → U32
  | .period => timer.period
  | .control => timer.control
  | .status => timer.status
  | .ack => 0

def update (timer : SysTick) (update : SysTickUpdate) : SysTick × List InterruptSignal :=
  let timer := match update with
    | .write .period value now => timer.setPeriod value now
    | .write .control value now => timer.setControl value now
    | .write .ack _ _ => timer.ack
    | .write .status _ _ => timer
    | .advanceTo now => timer.advanceTo now
  (timer, [timer.signal])

/-- The catch-up loop leaves the deadline in the future, at most one period ahead. -/
theorem catchUp_spec {period now fuel deadline : Nat} (positive : 0 < period)
    (enough : now + 1 - deadline ≤ fuel) :
    now < catchUp period now fuel deadline ∧
      (deadline ≤ now → catchUp period now fuel deadline ≤ now + period) ∧
      ∃ turns, catchUp period now fuel deadline = deadline + turns * period := by
  induction fuel generalizing deadline with
  | zero =>
    simp only [catchUp]
    exact ⟨by omega, by omega, 0, by simp⟩
  | succ fuel ih =>
    simp only [catchUp]
    by_cases due : deadline ≤ now
    · obtain ⟨future, near, turns, landed⟩ := ih (by omega :
        now + 1 - (deadline + period) ≤ fuel)
      rw [if_pos due]
      refine ⟨future, fun _ => ?_, turns + 1, ?_⟩
      · by_cases again : deadline + period ≤ now
        · exact near again
        · cases fuel with
          | zero => simp only [catchUp]; omega
          | succ fuel => simp only [catchUp, if_neg again]; omega
      · rw [landed, Nat.succ_mul]
        omega
    · rw [if_neg due]
      exact ⟨by omega, by omega, 0, by simp⟩

end SysTick

/-- One state-changing UART input. -/
inductive UartUpdate where
  | receive (byte : U8)
  | write (register : UartRegister) (value : U32)
deriving DecidableEq

/-- Independent UART state with bounded receive and transmit histories. -/
structure Uart where
  rx : List U8
  tx : List U8
  rxCapacity : Nat
  txCapacity : Nat
  rxIrqEnabled : Bool
  interruptSource : Source
deriving DecidableEq

/-- Appends to a bounded queue, dropping its oldest element when it is full. -/
def pushBounded (queue : List α) (capacity : Nat) (value : α) : List α :=
  (if queue.length = capacity then queue.drop 1 else queue) ++ [value]

namespace Uart

def new (rxCapacity txCapacity : Nat) (interruptSource : Source) : Uart :=
  ⟨[], [], rxCapacity, txCapacity, false, interruptSource⟩

def irqPending (uart : Uart) : Bool := uart.rxIrqEnabled && !uart.rx.isEmpty

def signal (uart : Uart) : InterruptSignal := ⟨uart.interruptSource, uart.irqPending⟩

def receive (uart : Uart) (byte : U8) : Uart × List InterruptSignal :=
  if uart.rxCapacity = 0 then (uart, [])
  else
    let uart := { uart with rx := pushBounded uart.rx uart.rxCapacity byte }
    (uart, [uart.signal])

def readRx (uart : Uart) : U8 × Uart × List InterruptSignal :=
  let byte := uart.rx.headD 0
  let uart := { uart with rx := uart.rx.drop 1 }
  (byte, uart, [uart.signal])

def writeTx (uart : Uart) (byte : U8) : Uart :=
  if uart.txCapacity = 0 then uart
  else { uart with tx := pushBounded uart.tx uart.txCapacity byte }

def status (uart : Uart) : U32 := (if uart.rx.isEmpty then 0#32 else 1) ||| 2

def control (uart : Uart) : U32 := if uart.rxIrqEnabled then 1 else 0

def setControl (uart : Uart) (value : U32) : Uart × List InterruptSignal :=
  let uart := { uart with rxIrqEnabled := value &&& 1#32 != 0#32 }
  (uart, [uart.signal])

def read (uart : Uart) : UartRegister → U32 × Uart × List InterruptSignal
  | .receiveData =>
    let (byte, uart, signals) := uart.readRx
    (byte.setWidth 32, uart, signals)
  | .status => (uart.status, uart, [])
  | .control => (uart.control, uart, [])
  | .transmitData => (0, uart, [])

def update (uart : Uart) : UartUpdate → Uart × List InterruptSignal
  | .receive byte => uart.receive byte
  | .write .transmitData value => (uart.writeTx (value.setWidth 8), [])
  | .write .control value => uart.setControl value
  | .write _ _ => (uart, [])

end Uart

/-- Deterministic xorshift32 RNG state. -/
structure Rng where
  seed : U32
  state : U32
deriving DecidableEq

namespace Rng

def new : Rng := ⟨defaultSeed, defaultSeed⟩

def setSeed (_rng : Rng) (seed : U32) : Rng :=
  let seed := if seed = 0#32 then defaultSeed else seed
  ⟨seed, seed⟩

def nextU32 (rng : Rng) : U32 × Rng :=
  let state := rng.state ^^^ (rng.state <<< 13)
  let state := state ^^^ (state >>> 17)
  let state := state ^^^ (state <<< 5)
  (state, { rng with state })

def read (rng : Rng) : RngRegister → U32 × Rng
  | .seed => (rng.seed, rng)
  | .data => rng.nextU32
  | .state => (rng.state, rng)

def update (rng : Rng) (register : RngRegister) (value : U32) : Rng :=
  if register = .seed then rng.setSeed value else rng

example : (Rng.new.setSeed 0).nextU32.1 = 0x791c_7b62 := by decide

end Rng

/-- One committed guest trace event. -/
structure TraceEvent where
  tick : Nat
  value : U32
deriving DecidableEq

/-- Bounded trace state. Writes are staged until the issuing instruction retires. -/
structure TraceDevice where
  staged : List U32
  events : List TraceEvent
  capacity : Nat
deriving DecidableEq

namespace TraceDevice

def new (capacity : Nat) : TraceDevice := ⟨[], [], capacity⟩

def stage (trace : TraceDevice) (value : U32) : TraceDevice :=
  { trace with staged := trace.staged ++ [value] }

/-- Commits every staged write at one tick and returns the committed events. -/
def retire (trace : TraceDevice) (tick : Nat) : List TraceEvent × TraceDevice :=
  if trace.capacity = 0 then ([], { trace with staged := [] })
  else
    let committed := trace.staged.map (TraceEvent.mk tick)
    (committed, { trace with
      staged := []
      events := committed.foldl (fun events event => pushBounded events trace.capacity event)
        trace.events })

def update (trace : TraceDevice) (register : TraceRegister) (value : U32) : TraceDevice :=
  match register with
  | .event => trace.stage value

end TraceDevice

end Minemu.Core
