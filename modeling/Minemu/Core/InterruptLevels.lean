import Minemu.Library.Levels
import Minemu.Library.Runs
import Minemu.Core.Bus

/-! Interrupt levels are never lost or stale: in every state of every run of the
bus, draining the queue over PENDING gives the levels the peripherals drive. -/

namespace Minemu.Core.InterruptLevels

open Library Platform

/-- One operation on the bus, by the guest, the clock or the host. -/
inductive BusStep where
  | access (transaction : MmioTransaction) (now : Nat)
  | advanceTo (now : Nat) (memory : PhysicalMemory)
  | receiveUart (index : U8) (byte : U8)
  | updateUart0 (update : UartUpdate)
  | updateUart1 (update : UartUpdate)
  | updateBlock (update : BlockUpdate)
  | flushBlock (unit : U32) (outcome : Except IoError Unit)
  | claim
  | processSignals
  | retireTraceEvents (tick : Nat)

/-- A rejected operation leaves the bus as it was. -/
def step (bus : MmioBus) : BusStep → MmioBus
  | .access transaction now =>
    match bus.access transaction now with
    | .error _ => bus
    | .ok (_, bus) => bus
  | .advanceTo now memory => (bus.advanceTo now memory).1
  | .receiveUart index byte => bus.receiveUart index byte
  | .updateUart0 update => bus.updateUart0 update
  | .updateUart1 update => bus.updateUart1 update
  | .updateBlock update => (bus.updateBlock update).toOption.getD bus
  | .flushBlock unit outcome => (bus.flushBlock unit () fun _ _ => (outcome, ())).2.1
  | .claim => { bus with interrupts := bus.interrupts.claimSource.2 }
  | .processSignals => bus.processSignals
  | .retireTraceEvents tick => (bus.retireTraceEvents tick).2

/-- The PENDING bit of a source. -/
def pendingBit (pending : U32) (source : Source) : Bool := pending.getLsbD source.id.toNat

def message (signal : InterruptSignal) : Source × Bool := (signal.source, signal.pending)

/-- The queue brings PENDING up to date with the peripherals. -/
structure Coherent (bus : MmioBus) : Prop where
  uart0 : bus.uart0.interruptSource = .uart0
  uart1 : bus.uart1.interruptSource = .uart1
  synced : Synced (pendingBit bus.interrupts.pending) (bus.interrupts.receiver.map message) bus.level

/-- A peripheral either kept its level and sent nothing, or sent the level it has now. -/
def Announced (source : Source) (before after : Bool) (signals : List InterruptSignal) : Prop :=
  (signals = [] ∧ after = before) ∨ signals = [⟨source, after⟩]

/-! ### The controller's bitmap as a board -/

theorem pendingBit_applySignal (pending : U32) (signal : InterruptSignal) :
    pendingBit (InterruptController.applySignal pending signal) =
      Function.update (pendingBit pending) signal.source signal.pending := by
  obtain ⟨source, level⟩ := signal
  funext other
  cases source <;> cases other <;> cases level <;>
    simp [pendingBit, InterruptController.applySignal, Source.bit, Source.id]

theorem pendingBit_foldl (signals : List InterruptSignal) (pending : U32) :
    pendingBit (signals.foldl InterruptController.applySignal pending) =
      drain (pendingBit pending) (signals.map message) := by
  induction signals generalizing pending with
  | nil => rfl
  | cons signal signals ih =>
    rw [List.foldl_cons, ih, pendingBit_applySignal]
    rfl

/-- Draining the queue shows every level. -/
theorem Coherent.drained (coherent : Coherent bus) :
    pendingBit bus.interrupts.processSignals.pending = bus.level := by
  rw [InterruptController.processSignals, pendingBit_foldl]
  exact coherent.synced

theorem Coherent.processSignals (coherent : Coherent bus) : Coherent bus.processSignals :=
  ⟨coherent.uart0, coherent.uart1, coherent.drained⟩

/-- A change that touches neither PENDING, the queue nor a level. -/
theorem Coherent.congr (coherent : Coherent bus) {after : MmioBus}
    (pending : after.interrupts.pending = bus.interrupts.pending)
    (receiver : after.interrupts.receiver = bus.interrupts.receiver)
    (uart0 : after.uart0 = bus.uart0) (uart1 : after.uart1 = bus.uart1)
    (level : after.level = bus.level) : Coherent after := by
  refine ⟨uart0 ▸ coherent.uart0, uart1 ▸ coherent.uart1, ?_⟩
  rw [pending, receiver, level]
  exact coherent.synced

/-- A peripheral update whose signals were sent keeps the queue in step. -/
theorem Coherent.announced (coherent : Coherent bus) {after : MmioBus} (source : Source)
    {signals : List InterruptSignal}
    (told : Announced source (bus.level source) (after.level source) signals)
    (others : ∀ other, other ≠ source → after.level other = bus.level other)
    (pending : after.interrupts.pending = bus.interrupts.pending)
    (receiver : after.interrupts.receiver = bus.interrupts.receiver ++ signals)
    (uart0 : after.uart0.interruptSource = .uart0) (uart1 : after.uart1.interruptSource = .uart1) :
    Coherent after := by
  refine ⟨uart0, uart1, ?_⟩
  rw [pending, receiver]
  rcases told with ⟨silent, same⟩ | sent
  · have unchanged : after.level = bus.level := by
      funext other
      by_cases equal : other = source
      · exact equal ▸ same
      · exact others other equal
    rw [silent, List.append_nil, unchanged]
    exact coherent.synced
  · rw [sent, List.map_append]
    exact coherent.synced.announce others

/-! ### What each peripheral announces -/

theorem uart_update (uart : Uart) (update : UartUpdate) :
    Announced uart.interruptSource uart.irqPending (uart.update update).1.irqPending
      (uart.update update).2 ∧
    (uart.update update).1.interruptSource = uart.interruptSource := by
  cases update with
  | receive byte =>
    simp only [Uart.update, Uart.receive]
    split
    · exact ⟨.inl ⟨rfl, rfl⟩, rfl⟩
    · exact ⟨.inr rfl, rfl⟩
  | write register value =>
    cases register with
    | receiveData | status => exact ⟨.inl ⟨rfl, rfl⟩, rfl⟩
    | transmitData =>
      simp only [Uart.update, Uart.writeTx]
      split <;> exact ⟨.inl ⟨rfl, rfl⟩, rfl⟩
    | control => exact ⟨.inr rfl, rfl⟩

theorem uart_read (uart : Uart) (register : UartRegister) :
    Announced uart.interruptSource uart.irqPending (uart.read register).2.1.irqPending
      (uart.read register).2.2 ∧
    (uart.read register).2.1.interruptSource = uart.interruptSource := by
  cases register with
  | receiveData => exact ⟨.inr rfl, rfl⟩
  | transmitData | status | control => exact ⟨.inl ⟨rfl, rfl⟩, rfl⟩

theorem block_update {device after : BlockDevice} {update : BlockUpdate}
    {signals : List InterruptSignal} (updated : device.update update = .ok (after, signals)) :
    signals = [after.signal] := by
  cases applied : device.applyUpdate update with
  | error error => simp [BlockDevice.update, applied, Except.map] at updated
  | ok device' =>
    rw [BlockDevice.update, applied] at updated
    cases updated
    rfl

theorem block_advanceTo (device : BlockDevice) (now : Nat) (memory : PhysicalMemory) :
    Announced .block device.irqPending (device.advanceTo now memory).1.irqPending
      (device.advanceTo now memory).2.2 := by
  unfold BlockDevice.advanceTo
  split
  · exact .inl ⟨rfl, rfl⟩
  · split
    · exact .inl ⟨rfl, rfl⟩
    · exact .inr rfl

theorem block_flush (device : BlockDevice) (unit : U32) (host : Host)
    (writeMedia : Host → List U8 → Except IoError Unit × Host) :
    Announced .block device.irqPending (device.flush unit host writeMedia).2.1.irqPending
      (device.flush unit host writeMedia).2.2.2 := by
  unfold BlockDevice.flush
  split
  · exact .inl ⟨rfl, rfl⟩
  · simp only
    split
    · exact .inl ⟨rfl, rfl⟩
    · split
      · exact .inl ⟨rfl, rfl⟩
      · split
        · exact .inr rfl
        · exact .inl ⟨rfl, rfl⟩

/-! ### Bus operations -/

theorem Coherent.updateSysTick (coherent : Coherent bus) (update : SysTickUpdate) :
    Coherent (bus.updateSysTick update) := by
  refine coherent.announced .sysTick (.inr rfl) (fun other different => ?_) rfl rfl
    coherent.uart0 coherent.uart1
  cases other <;> first | contradiction | rfl

theorem Coherent.updateBlock (coherent : Coherent bus) {after : MmioBus} {update : BlockUpdate}
    (updated : bus.updateBlock update = .ok after) : Coherent after := by
  unfold MmioBus.updateBlock at updated
  cases result : bus.block.update update with
  | error error => simp [result, Except.map] at updated
  | ok result' =>
    obtain ⟨block, signals⟩ := result'
    rw [result] at updated
    cases updated
    refine coherent.announced .block (.inr (block_update result))
      (fun other different => ?_) rfl rfl coherent.uart0 coherent.uart1
    cases other <;> first | contradiction | rfl

theorem Coherent.updateUart0 (coherent : Coherent bus) (update : UartUpdate) :
    Coherent (bus.updateUart0 update) := by
  obtain ⟨told, source⟩ := uart_update bus.uart0 update
  rw [coherent.uart0] at told source
  refine coherent.announced .uart0 told (fun other different => ?_) rfl rfl source
    coherent.uart1
  cases other <;> first | contradiction | rfl

theorem Coherent.updateUart1 (coherent : Coherent bus) (update : UartUpdate) :
    Coherent (bus.updateUart1 update) := by
  obtain ⟨told, source⟩ := uart_update bus.uart1 update
  rw [coherent.uart1] at told source
  refine coherent.announced .uart1 told (fun other different => ?_) rfl rfl
    coherent.uart0 source
  cases other <;> first | contradiction | rfl

theorem claimSource_fields (controller : InterruptController) :
    controller.claimSource.2.pending = controller.processSignals.pending ∧
      controller.claimSource.2.receiver = [] := by
  unfold InterruptController.claimSource
  simp only
  split <;> exact ⟨rfl, rfl⟩

theorem Coherent.claim (coherent : Coherent bus) :
    Coherent { bus with interrupts := bus.interrupts.claimSource.2 } := by
  obtain ⟨pending, receiver⟩ := claimSource_fields bus.interrupts
  exact coherent.processSignals.congr pending receiver rfl rfl rfl

theorem Coherent.updateInterrupts (coherent : Coherent bus) {after : MmioBus}
    {update : InterruptUpdate} (updated : bus.updateInterrupts update = .ok after) :
    Coherent after := by
  have kept {interrupts : InterruptController}
      (accepted : bus.interrupts.update update = .ok interrupts) :
      interrupts.pending = bus.interrupts.pending ∧
        interrupts.receiver = bus.interrupts.receiver := by
    obtain ⟨register, value⟩ := update
    cases register with
    | eoi =>
      simp only [InterruptController.update, InterruptController.eoi] at accepted
      split at accepted
      · cases accepted
      · split at accepted
        · cases accepted
        · cases accepted
          exact ⟨rfl, rfl⟩
    | _ => cases accepted; exact ⟨rfl, rfl⟩
  unfold MmioBus.updateInterrupts at updated
  cases accepted : bus.interrupts.update update with
  | error error => simp [accepted, Except.map] at updated
  | ok interrupts =>
    rw [accepted] at updated
    cases updated
    obtain ⟨pending, receiver⟩ := kept accepted
    exact coherent.congr pending receiver rfl rfl rfl

theorem Coherent.readRegister (coherent : Coherent bus) (register : MmioRegister) :
    Coherent (bus.readRegister register).2 := by
  cases register with
  | interrupt register =>
    cases register with
    | pending => exact coherent.processSignals
    | claim => exact coherent.claim
    | _ => exact coherent
  | sysTick | dma | trace => exact coherent
  | rng register => exact coherent.congr rfl rfl rfl rfl rfl
  | uart0 register =>
    obtain ⟨told, source⟩ := uart_read bus.uart0 register
    rw [coherent.uart0] at told source
    refine coherent.announced .uart0 told (fun other different => ?_) rfl rfl source
      coherent.uart1
    cases other <;> first | contradiction | rfl
  | uart1 register =>
    obtain ⟨told, source⟩ := uart_read bus.uart1 register
    rw [coherent.uart1] at told source
    refine coherent.announced .uart1 told (fun other different => ?_) rfl rfl
      coherent.uart0 source
    cases other <;> first | contradiction | rfl

theorem Coherent.writeRegister (coherent : Coherent bus) {after : MmioBus}
    {register : MmioRegister} {value : U32} {now : Nat}
    (written : bus.writeRegister register value now = .ok after) : Coherent after := by
  cases register with
  | interrupt register => exact coherent.updateInterrupts written
  | dma register => exact coherent.updateBlock written
  | sysTick register => cases written; exact coherent.updateSysTick _
  | rng register => cases written; exact coherent.congr rfl rfl rfl rfl rfl
  | uart0 register => cases written; exact coherent.updateUart0 _
  | uart1 register => cases written; exact coherent.updateUart1 _
  | trace register => cases written; exact coherent.congr rfl rfl rfl rfl rfl

theorem Coherent.access (coherent : Coherent bus) {after : MmioBus} {value : Option U32}
    {transaction : MmioTransaction} {now : Nat}
    (accepted : bus.access transaction now = .ok (value, after)) : Coherent after := by
  unfold MmioBus.access at accepted
  split at accepted
  · cases accepted
  · rename_i register decoded
    split at accepted
    · cases written : bus.writeRegister register transaction.value now with
      | error error => simp [written, Except.map] at accepted
      | ok written' =>
        rw [written] at accepted
        cases accepted
        exact (coherent.writeRegister written).processSignals
    · cases accepted
      exact (coherent.readRegister register).processSignals

/-- A bus on which time has passed, before its controller drains the queue. -/
theorem Coherent.advancing (coherent : Coherent bus) (now : Nat) (memory : PhysicalMemory) :
    Coherent (({ bus.updateSysTick (.advanceTo now) with
      block := (bus.block.advanceTo now memory).1 }).send (bus.block.advanceTo now memory).2.2) := by
  have timed := coherent.updateSysTick (.advanceTo now)
  refine timed.announced .block (block_advanceTo bus.block now memory)
    (fun other different => ?_) rfl rfl timed.uart0 timed.uart1
  cases other <;> first | contradiction | rfl

theorem Coherent.advanceTo (coherent : Coherent bus) (now : Nat) (memory : PhysicalMemory) :
    Coherent (bus.advanceTo now memory).1 :=
  (coherent.advancing now memory).processSignals

theorem Coherent.flushBlock (coherent : Coherent bus) (unit : U32) (host : Host)
    (writeMedia : Host → List U8 → Except IoError Unit × Host) :
    Coherent (bus.flushBlock unit host writeMedia).2.1 := by
  refine coherent.announced .block (block_flush bus.block unit host writeMedia)
    (fun other different => ?_) rfl rfl coherent.uart0 coherent.uart1
  cases other <;> first | contradiction | rfl

/-- Every bus operation keeps the queue in step. -/
theorem coherent_step (coherent : Coherent bus) (operation : BusStep) :
    Coherent (step bus operation) := by
  cases operation with
  | access transaction now =>
    simp only [step]
    cases accepted : bus.access transaction now with
    | error error => exact coherent
    | ok result => exact coherent.access accepted
  | advanceTo now memory => exact coherent.advanceTo now memory
  | receiveUart index byte =>
    refine Coherent.processSignals ?_
    split
    · exact coherent.updateUart0 _
    · exact coherent.updateUart1 _
    · exact coherent
  | updateUart0 update => exact coherent.updateUart0 update
  | updateUart1 update => exact coherent.updateUart1 update
  | updateBlock update =>
    simp only [step]
    cases updated : bus.updateBlock update with
    | error error => exact coherent
    | ok after => exact coherent.updateBlock updated
  | flushBlock unit outcome => exact coherent.flushBlock unit () _
  | claim => exact coherent.claim
  | processSignals => exact coherent.processSignals
  | retireTraceEvents tick => exact coherent.congr rfl rfl rfl rfl rfl

theorem coherent_new : Coherent .new := by
  refine ⟨rfl, rfl, ?_⟩
  funext source
  cases source <;> rfl

/-- Interrupt levels are never lost or stale. -/
theorem pending_is_level (steps : List BusStep) :
    ∀ bus ∈ visited step .new steps, ∀ source : Source,
      bus.interrupts.processSignals.pending.getLsbD source.id.toNat = bus.level source ∧
      (bus.interrupts.receiver = [] →
        bus.interrupts.pending.getLsbD source.id.toNat = bus.level source) := by
  intro bus member source
  have preserved (bus : MmioBus) (operation : BusStep) (_ : True) (coherent : Coherent bus) :
      Coherent (step bus operation) := coherent_step coherent operation
  have coherent := visited_invariant preserved .new steps coherent_new (fun _ _ => trivial) bus
    member
  have shown := congrFun coherent.drained source
  refine ⟨shown, fun empty => ?_⟩
  rw [InterruptController.processSignals, empty] at shown
  exact shown

/-- A byte received with the receive interrupt on raises its PENDING bit. -/
theorem pending_is_level_uart :
    (run step .new [.updateUart0 (.write .control 1), .receiveUart 0 0x61]
      ).interrupts.pending.getLsbD (Source.id .uart0).toNat = true :=
  (pending_is_level [.updateUart0 (.write .control 1), .receiveUart 0 0x61] _
    (run_mem_visited _ _ _) .uart0).2 rfl

end Minemu.Core.InterruptLevels
