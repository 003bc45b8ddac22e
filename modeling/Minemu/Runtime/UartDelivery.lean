import Minemu.Runtime.ServicePersistence
import Minemu.Runtime.UartIngress

/-! What the service does to the receive queues of the machine: a delivery appends its bytes to the
queue of its port, and nothing else that happens between two batches adds to a queue. -/

namespace Minemu.Core.Uart

open Platform

variable {uart after : Uart}

/-- The receive queue after some bytes, the oldest dropped where it is full. -/
def received (uart : Uart) (bytes : List U8) : List U8 :=
  if uart.rxCapacity = 0 then uart.rx
  else bytes.foldl (fun queue byte => pushBounded queue uart.rxCapacity byte) uart.rx

@[simp] theorem received_nil (uart : Uart) : uart.received [] = uart.rx := by
  rw [received, List.foldl_nil, ite_self]

/-- More bytes come behind those there are. -/
theorem received_append {first second : List U8} (rx : after.rx = uart.received first)
    (capacity : after.rxCapacity = uart.rxCapacity) :
    after.received second = uart.received (first ++ second) := by
  unfold received at *
  rw [capacity, rx, List.foldl_append]
  split
  · rfl
  · rfl

end Minemu.Core.Uart

namespace Minemu.Runtime

open Library Platform Minemu.Core Minemu.Unicorn

/-- A delivery to a port appends to its queue and to no other. -/
theorem uartOf_deliverBytes (bus : MmioBus) (port other : UartPort) (bytes : List U8) :
    (uartOf (deliverBytes bus port bytes) other).rx =
        (uartOf bus other).received (if port = other then bytes else []) ∧
      (uartOf (deliverBytes bus port bytes) other).rxCapacity = (uartOf bus other).rxCapacity := by
  by_cases same : port = other
  · subst same
    rw [if_pos rfl]
    by_cases full : (uartOf bus port).rxCapacity = 0
    · have idle : uartOf (deliverBytes bus port bytes) port = uartOf bus port := by
        induction bytes generalizing bus with
        | nil => rfl
        | cons byte bytes ih =>
          have first : uartOf (deliverByte bus port byte) port = uartOf bus port := by
            have refused : ((uartOf bus port).receive byte).1 = uartOf bus port := by
              rw [Uart.receive, if_pos full]
            cases port <;> exact refused
          exact (ih (deliverByte bus port byte) (by rw [first]; exact full)).trans first
      rw [idle, Uart.received, if_pos full]
      exact ⟨rfl, rfl⟩
    · obtain ⟨capacity, queue⟩ := uartOf_deliver bus port bytes full
      rw [Uart.received, if_neg full]
      exact ⟨queue, capacity⟩
  · rw [if_neg same, Uart.received_nil, uartOf_deliver_other bus same]
    exact ⟨rfl, rfl⟩

/-- An access takes bytes out of a queue or leaves it. -/
theorem access_takes {bus after : MmioBus} {transaction : MmioTransaction} {now : Nat}
    {value : Option U32} (accessed : bus.access transaction now = .ok (value, after))
    (port : UartPort) : (uartOf after port).rx <:+ (uartOf bus port).rx := by
  by_cases reads : readsPort transaction = some port
  · obtain ⟨after', accessed', uart, _⟩ := access_reads bus now reads
    rw [accessed] at accessed'
    cases accessed'
    rw [uart]
    exact List.drop_suffix 1 _
  · rw [(access_keeps accessed reads).1]

/-- The queues of a backend have received some bytes, and the guest has not run. -/
structure Receives (before after : UnicornBackend) (bytes : UartPort → List U8) : Prop where
  rx : ∀ port, (uartOf after.machine.bus port).rx =
    (uartOf before.machine.bus port).received (bytes port)
  capacity : ∀ port,
    (uartOf after.machine.bus port).rxCapacity = (uartOf before.machine.bus port).rxCapacity
  cpu : after.cpu = before.cpu
  memory : after.machine.memory = before.machine.memory
  ticks : after.machine.ticks = before.machine.ticks

/-- The queues are as they were, and the guest has not run. -/
abbrev Idles (before after : UnicornBackend) : Prop := Receives before after fun _ => []

namespace Receives

variable {first second third : UnicornBackend} {bytes more : UartPort → List U8}

theorem idle {before after : UnicornBackend} (cpu : after.cpu = before.cpu)
    (memory : after.machine.memory = before.machine.memory)
    (ticks : after.machine.ticks = before.machine.ticks)
    (uarts : ∀ port, uartOf after.machine.bus port = uartOf before.machine.bus port) :
    Idles before after where
  rx port := by rw [uarts, Uart.received_nil]
  capacity port := by rw [uarts]
  cpu := cpu
  memory := memory
  ticks := ticks

theorem refl (backend : UnicornBackend) : Idles backend backend := idle rfl rfl rfl fun _ => rfl

theorem trans (before : Receives first second bytes) (after : Receives second third more) :
    Receives first third fun port => bytes port ++ more port where
  rx port := (after.rx port).trans (Uart.received_append (before.rx port) (before.capacity port))
  capacity port := (after.capacity port).trans (before.capacity port)
  cpu := after.cpu.trans before.cpu
  memory := after.memory.trans before.memory
  ticks := after.ticks.trans before.ticks

/-- What is idle afterwards changes no reception. -/
theorem thenIdle (before : Receives first second bytes) (after : Idles second third) :
    Receives first third bytes := by
  have both := before.trans after
  simpa only [List.append_nil] using both

theorem idle_suffix (idles : Idles first second) (port : UartPort) :
    (uartOf second.machine.bus port).rx <:+ (uartOf first.machine.bus port).rx := by
  rw [idles.rx port, Uart.received_nil]

end Receives

/-! ### The emulator -/

namespace Emulator

theorem receives_deliverUart (emulator : Emulator) (port : UartPort) (bytes : List U8) :
    Receives emulator.backend (emulator.deliverUart port bytes).backend fun other =>
      if port = other then bytes else [] := by
  rw [deliverUart_eq]
  exact ⟨fun other => (uartOf_deliverBytes _ port other bytes).1,
    fun other => (uartOf_deliverBytes _ port other bytes).2, rfl, rfl, rfl⟩

theorem receives_drainUart (emulator : Emulator) (inbox : UartPort → List U8) :
    Receives emulator.backend (emulator.drainUart inbox).backend inbox := by
  have both := (emulator.receives_deliverUart .uart0 (inbox .uart0)).trans
    ((emulator.deliverUart .uart0 (inbox .uart0)).receives_deliverUart .uart1 (inbox .uart1))
  have merged : (fun other => (if UartPort.uart0 = other then inbox .uart0 else []) ++
      if UartPort.uart1 = other then inbox .uart1 else []) = inbox := by
    funext other
    cases other with
    | uart0 => simp
    | uart1 => simp
  rwa [merged] at both

theorem stop_drainUart (emulator : Emulator) (inbox : UartPort → List U8) :
    (emulator.drainUart inbox).stop = emulator.stop := by
  rw [drainUart, deliverUart_eq, deliverUart_eq]
  rfl

theorem idles_flushUnit (emulator : Emulator) (unit : Fin 2) (outcome : Except IoError Unit) :
    Idles emulator.backend (emulator.flushUnit unit outcome).2.backend :=
  .idle rfl rfl rfl fun port => by cases port <;> rfl

theorem idles_status (emulator : Emulator) : Idles emulator.backend emulator.status.2.backend :=
  .idle rfl rfl rfl fun port => by cases port <;> rfl

/-- An inspection may take bytes out of a queue and puts none in. -/
theorem suffix_inspect (emulator : Emulator) (request : RuntimeInspectionRequest)
    (inspector : Inspector) (port : UartPort) :
    (uartOf (emulator.inspect request inspector).2.backend.machine.bus port).rx <:+
      (uartOf emulator.backend.machine.bus port).rx := by
  let Takes (before after : UnicornBackend) : Prop :=
    (uartOf after.machine.bus port).rx <:+ (uartOf before.machine.bus port).rx
  have refl (backend : UnicornBackend) : Takes backend backend := List.suffix_rfl
  have trans (first second third : UnicornBackend) (before : Takes first second)
      (after : Takes second third) : Takes first third := after.trans before
  have tlb (backend : UnicornBackend) (address : U32) (memoryType : MemType) :
      Takes backend (backend.virtualTlbCallback address memoryType).2 := by
    have same : (backend.virtualTlbCallback address memoryType).2.machine.bus =
        backend.machine.bus := by
      cases kind : mmuAccess memoryType with
      | none => simp only [UnicornBackend.virtualTlbCallback, kind]
      | some access => rw [(backend.virtualTlbCallback_eq address kind).2]
    simp only [Takes, same]
    exact List.suffix_rfl
  have read (backend : UnicornBackend) (offset : U32) (size : Nat) :
      Takes backend (backend.mmioReadCallback offset size).2 := by
    unfold UnicornBackend.mmioReadCallback
    simp only
    split
    · exact refl backend
    · split
      · rename_i accessed
        exact access_takes accessed port
      · exact refl backend
  change Takes emulator.backend (inspectBackend emulator.backend inspector request).2
  cases request with
  | machine request =>
    cases request with
    | memory range | mmu | events => exact refl _
    | peripherals => cases port <;> exact List.suffix_rfl
  | liveMemory range =>
    exact UnicornBackend.related_readPhysicalMemory inspector refl trans read emulator.backend
      range.start range.length.toNat
  | virtualMemory address length =>
    exact UnicornBackend.related_readTranslatedFrom inspector refl trans tlb read address.get length
      .read true emulator.backend 0
  | translate address =>
    exact UnicornBackend.related_vmemTranslate inspector tlb emulator.backend address.get .read
  | execution address before after =>
    exact UnicornBackend.related_inspectExecution inspector refl trans tlb read emulator.backend
      address before after
  | searchMemory pattern =>
    exact UnicornBackend.related_searchMemory inspector refl trans read emulator.backend pattern

end Emulator

/-! ### The service -/

/-- The bytes that scheduled inputs have for a port, in their order. -/
def bytesFor (port : UartPort) (inputs : List ScheduledUartInput) : List U8 :=
  inputs.flatMap fun input => if input.port = port then input.bytes else []

namespace Service

variable {service : Service} {host : HostOutcomes}

/-- The backend of the service. -/
abbrev backend (service : Service) : UnicornBackend := service.emulator.backend

/-- A turn delivers the bytes of what is due. -/
theorem receives_deliverScheduled (service : Service) (currentTick : Nat) :
    Receives service.backend (service.deliverScheduled currentTick).backend fun port =>
      bytesFor port (service.scheduledUart.takeWhile fun input => input.atTick ≤ currentTick) := by
  change Receives service.emulator.backend ((service.scheduledUart.takeWhile fun input =>
    input.atTick ≤ currentTick).foldl (fun emulator input =>
      emulator.deliverUart input.port input.bytes) service.emulator).backend _
  generalize (service.scheduledUart.takeWhile fun input => input.atTick ≤ currentTick) = inputs
  generalize service.emulator = emulator
  induction inputs generalizing emulator with
  | nil => exact .refl _
  | cons input inputs ih =>
    exact (emulator.receives_deliverUart input.port input.bytes).trans
      (ih (emulator.deliverUart input.port input.bytes))

theorem stop_deliverScheduled (service : Service) (currentTick : Nat) :
    (service.deliverScheduled currentTick).emulator.stop = service.emulator.stop := by
  change ((service.scheduledUart.takeWhile fun input => input.atTick ≤ currentTick).foldl
    (fun emulator input => emulator.deliverUart input.port input.bytes) service.emulator).stop = _
  generalize (service.scheduledUart.takeWhile fun input => input.atTick ≤ currentTick) = inputs
  generalize service.emulator = emulator
  induction inputs generalizing emulator with
  | nil => rfl
  | cons input inputs ih =>
    rw [List.foldl_cons, ih, Emulator.deliverUart_eq]
    rfl

theorem idles_publish (service : Service) (lifecycle : LifecycleState)
    (lastStop : Option StopText) (lastError : Option ErrorText) :
    Idles service.backend (service.publish lifecycle lastStop lastError).backend :=
  service.emulator.idles_status

theorem idles_flushUnit (service : Service) (unit : Fin 2) (host : HostOutcomes) :
    Idles service.backend (service.flushUnit unit host).2.backend := by
  have flushed := service.emulator.idles_flushUnit unit (host.write unit)
  unfold flushUnit
  cases service.emulator.blockMediaPaths unit with
  | none => exact .refl _
  | some path =>
    simp only
    split
    · exact flushed
    · exact flushed

theorem idles_flush (service : Service) (host : HostOutcomes) :
    Idles service.backend (service.flush host).2.backend :=
  (service.idles_flushUnit 0 host).thenIdle ((service.flushUnit 0 host).2.idles_flushUnit 1 host)

theorem idles_pauseWith (service : Service) (lastStop : Option StopText) (host : HostOutcomes) :
    Idles service.backend (service.pauseWith lastStop host).backend :=
  (idles_flush { service with lifecycle := .paused } host).thenIdle (Emulator.idles_status _)

theorem idles_stop (service : Service) (host : HostOutcomes) :
    Idles service.backend (service.stop host).backend := by
  have flushed := (service.idles_publish .stopping none none).thenIdle
    ((service.publish .stopping none none).idles_flush host)
  unfold stop
  simp only
  split
  · exact flushed.thenIdle (Emulator.idles_status _)
  · exact flushed.thenIdle (Emulator.idles_status _)

/-- What follows a batch. -/
theorem idles_afterBatch (service : Service) (result : Except RuntimeError BackendStop)
    (limitReached publishDue : Bool) (host : HostOutcomes) :
    Idles service.backend (service.afterBatch result limitReached publishDue host).backend := by
  have failing (lastStop : Option StopText) (error : ErrorText) :
      Idles service.backend ((service.flush host).2.fail lastStop error).backend :=
    (service.idles_flush host).thenIdle (Emulator.idles_status _)
  have going (stop : BackendStop) :
      Idles service.backend (if limitReached then
          { service with remainingInstructions := none }.pauseWith
            (some (.instructionLimitReached stop)) host
        else if publishDue then service.publish service.lifecycle (some (.stop stop)) none
        else service).backend := by
    split
    · exact idles_pauseWith { service with remainingInstructions := none } _ host
    · split
      · exact service.idles_publish _ _ _
      · exact .refl _
  unfold afterBatch
  match result with
  | .ok (.unicorn error) => exact failing _ _
  | .ok (.breakpoint address immediate) =>
    exact idles_pauseWith { service with
      remainingInstructions := none
      pendingBreakpoint := some address } _ host
  | .ok .instructionBudget | .ok (.mmioFault ..) | .ok (.mmuFault _) | .ok .cp15Boundary
  | .ok (.exception _) => exact going _
  | .error error => exact failing _ _

/-- No command but a reset adds to a queue. -/
theorem suffix_processCommand (service : Service) {command : Command} (kept : command ≠ .reset)
    (host : HostOutcomes) (port : UartPort) :
    (uartOf (service.processCommand command host).backend.machine.bus port).rx <:+
      (uartOf service.backend.machine.bus port).rx := by
  cases command with
  | pause =>
    unfold processCommand
    cases service.lifecycle with
    | running =>
      exact (idles_pauseWith { service with remainingInstructions := none } none host).idle_suffix
        port
    | starting | paused | stopping | stopped | failed => exact List.suffix_rfl
  | resume limit =>
    unfold processCommand
    cases service.lifecycle with
    | paused =>
      have resumed (emulator : Emulator) (same : emulator.backend.machine = service.backend.machine)
          (after : Service) (idles : Idles emulator.backend after.backend) :
          (uartOf after.backend.machine.bus port).rx <:+
            (uartOf service.backend.machine.bus port).rx := same ▸ idles.idle_suffix port
      cases pending : service.pendingBreakpoint with
      | none => exact resumed service.emulator rfl _ service.emulator.idles_status
      | some address =>
        cases done : service.emulator.resumeFromBreakpoint address host with
        | error error =>
          simp only [done]
          exact resumed service.emulator rfl _ service.emulator.idles_status
        | ok emulator =>
          simp only [done]
          exact resumed emulator (resumed_emulator done).1 _ emulator.idles_status
    | starting | running | stopping | stopped | failed => exact List.suffix_rfl
  | reset => exact absurd rfl kept
  | shutdown => exact (service.idles_stop host).idle_suffix port
  | inspect request => exact service.emulator.suffix_inspect request host.inspector port

end Service

end Minemu.Runtime
