import Minemu.Unicorn.Inspection

/-! The emulator service: one loop that takes commands and runs batches, and the host
files behind the block media. What the host does (the outcome of each file access, of
building a backend, of each batch) comes with the step that meets it. -/

namespace Minemu.Runtime

open Platform Minemu.Core Minemu.Unicorn

/-- Lifecycle state published by the emulator service. -/
inductive LifecycleState where
  | starting
  | running
  | paused
  | stopping
  | stopped
  | failed
deriving DecidableEq

inductive UartPort where
  | uart0
  | uart1
deriving DecidableEq

/-- UART bytes delivered by the emulator thread at an exact virtual-time boundary. -/
structure ScheduledUartInput where
  atTick : Nat
  port : UartPort
  bytes : List U8

/-- The runtime failures the service itself can meet. -/
inductive RuntimeError where
  | core (error : CoreError)
  | backend (error : BackendError)
  | io (error : IoError)
deriving DecidableEq

/-- What the text of `last_stop` is rendered from. -/
inductive StopText where
  | executionDeadlineReached
  | breakpoint (immediate : U16) (address : U32)
  | instructionLimitReached (stop : BackendStop)
  | stop (stop : BackendStop)
  | backend (error : UcError)
deriving DecidableEq

/-- What the text of `last_error` is rendered from. -/
inductive ErrorText where
  | error (error : RuntimeError)
  | backend (error : UcError) (flush : Option RuntimeError)
  | run (error : RuntimeError) (flush : Option RuntimeError)
deriving DecidableEq

/-- A compact snapshot of the machine. -/
structure MachineStatus where
  ticks : Nat
  mmuEnabled : Bool
  pendingInterrupts : U32
  systickStatus : U32
  blockStatus : U32
  uart0Status : U32
  uart1Status : U32

/-- Lightweight immutable state continuously available to observers. -/
structure RuntimeStatus where
  lifecycle : LifecycleState
  machine : MachineStatus
  lastStop : Option StopText
  lastError : Option ErrorText

structure RuntimeConfig where
  machine : Machine
  entry : U32
  stop : U32
  instructionBatch : Nat
  blockMediaPaths : Fin 2 → Option String
  initialRamWrites : List (PhysicalAddress × List U8)
  startPaused : Bool
  executionDeadline : Option Nat
  scheduledUart : List ScheduledUartInput

inductive RuntimeInspectionRequest where
  | machine (request : InspectionRequest)
  | liveMemory (range : PhysicalRange)
  | virtualMemory (address : VirtualAddress) (length : Nat)
  | translate (address : VirtualAddress)
  | execution (address : Option VirtualAddress) (before after : Nat)
  | searchMemory (pattern : List U8)
deriving DecidableEq

inductive RuntimeInspection where
  | machine (response : InspectionResponse)
  | liveMemory (range : PhysicalRange) (bytes : List U8)
  | virtualMemory (address : VirtualAddress) (bytes : List U8)
  | translation (address : VirtualAddress) (physical : PhysicalAddress)
  | execution (inspection : ExecutionInspection)
  | searchMemory (found : Option PhysicalAddress)

inductive Command where
  | pause
  | resume (instructions : Option ℕ+)
  | reset
  | shutdown
  | inspect (request : RuntimeInspectionRequest)
deriving DecidableEq

/-- How the file accesses and the engine calls of one step end. -/
structure HostOutcomes where
  write : Fin 2 → Except IoError Unit
  read : Fin 2 → Except IoError (List U8)
  newBackend : Except BackendError Unit
  programCounter : Except BackendError Unit
  inspector : Inspector := .ofMemory

end Minemu.Runtime

namespace Minemu.Core.Machine

open Platform

/-- Recreates reset machine state while preserving immutable ROM and attached media. -/
def resetClone (machine : Machine) : Except CoreError Machine :=
  [unitFilesystem, unitSwap].foldlM (fun clone unit => do
    match ← machine.bus.block.mediaClone unit with
    | none => return clone
    | some media =>
      let bus ← clone.bus.updateBlock (.attach unit media)
      return { clone with bus })
    (.new { machine.memory with ram := fun _ => 0 } machine.eventCapacity)

/-- Reading PENDING drains the signal queue first. -/
def status (machine : Machine) : Runtime.MachineStatus × Machine :=
  let machine := { machine with bus := machine.bus.processSignals }
  (⟨machine.ticks, machine.mmu.enabled, machine.bus.interrupts.pending, machine.bus.systick.status,
    machine.bus.block.status, machine.bus.uart0.status, machine.bus.uart1.status⟩, machine)

end Minemu.Core.Machine

namespace Minemu.Runtime

open Platform Minemu.Core Minemu.Unicorn

def unitOf : Fin 2 → U32
  | 0 => unitFilesystem
  | 1 => unitSwap

/-- A reset clone with the media files attached and the initial RAM writes applied. -/
def configuredMachine (blockMediaPaths : Fin 2 → Option String)
    (initialRamWrites : List (PhysicalAddress × List U8)) (source : Machine)
    (read : Fin 2 → Except IoError (List U8)) : Except RuntimeError Machine := do
  let machine ← source.resetClone.mapError .core
  let machine ← [0, 1].foldlM (fun machine unit => do
    match blockMediaPaths unit with
    | none => return machine
    | some _ =>
      let media ← (read unit).mapError .io
      let bus ← (machine.bus.updateBlock (.attach (unitOf unit) media)).mapError .core
      return { machine with bus }) machine
  initialRamWrites.foldlM (fun machine write => do
    let memory ← (machine.memory.writeRange write.1 write.2).mapError .core
    return { machine with memory }) machine

structure Emulator where
  backend : UnicornBackend
  entry : U32
  stop : U32
  instructionBatch : Nat
  blockMediaPaths : Fin 2 → Option String
  initialRamWrites : List (PhysicalAddress × List U8)

namespace Emulator

def setBus (emulator : Emulator) (bus : MmioBus) : Emulator :=
  { emulator with backend := emulator.backend.setBus bus }

/-- `UnicornBackend::new`, as far as it can fail, around a machine. -/
def newBackend (machine : Machine) (host : HostOutcomes) : Except RuntimeError UnicornBackend :=
  (host.newBackend.map fun () => .new machine).mapError .backend

def setProgramCounter (backend : UnicornBackend) (value : U32) (host : HostOutcomes) :
    Except RuntimeError UnicornBackend :=
  (host.programCounter.map fun () => backend.setRegister .pc value).mapError .backend

def new (config : RuntimeConfig) (host : HostOutcomes) : Except RuntimeError Emulator := do
  let machine ← configuredMachine config.blockMediaPaths config.initialRamWrites config.machine
    host.read
  let backend ← newBackend machine host
  let backend ← setProgramCounter backend config.entry host
  return ⟨backend, config.entry, config.stop, config.instructionBatch, config.blockMediaPaths,
    config.initialRamWrites⟩

def resumeFromBreakpoint (emulator : Emulator) (address : U32) (host : HostOutcomes) :
    Except RuntimeError Emulator :=
  if emulator.backend.cpu.read .pc = address then
    (setProgramCounter emulator.backend (address + 4#32) host).map fun backend =>
      { emulator with backend }
  else host.programCounter.map (fun () => emulator) |>.mapError .backend

/-- Writes one unit's dirty media to its file. -/
def flushUnit (emulator : Emulator) (unit : Fin 2) (outcome : Except IoError Unit) :
    Except CoreError Unit × Emulator :=
  let (result, bus, _) :=
    emulator.backend.machine.bus.flushBlock (unitOf unit) () fun _ _ => (outcome, ())
  (result, emulator.setBus bus)

def deliverUart (emulator : Emulator) (port : UartPort) (bytes : List U8) : Emulator :=
  bytes.foldl (fun emulator byte =>
    let bus := emulator.backend.machine.bus
    emulator.setBus (match port with
      | .uart0 => bus.updateUart0 (.receive byte)
      | .uart1 => bus.updateUart1 (.receive byte))) emulator

def drainUart (emulator : Emulator) (inbox : UartPort → List U8) : Emulator :=
  (emulator.deliverUart .uart0 (inbox .uart0)).deliverUart .uart1 (inbox .uart1)

def status (emulator : Emulator) : MachineStatus × Emulator :=
  let (status, machine) := emulator.backend.machine.status
  (status, { emulator with backend := { emulator.backend with machine } })

/-- The response to a request and the backend it leaves. -/
def inspectBackend (backend : UnicornBackend) (inspector : Inspector) :
    RuntimeInspectionRequest → Except RuntimeError RuntimeInspection × UnicornBackend
  | .machine request =>
    let (response, machine) := backend.machine.inspect request
    ((response.map .machine).mapError .core, { backend with machine })
  | .liveMemory range =>
    let (bytes, backend) := backend.inspectLiveMemory inspector range
    ((bytes.map (.liveMemory range)).mapError .backend, backend)
  | .virtualMemory address length =>
    let (bytes, backend) := backend.inspectVirtualMemory inspector address length
    ((bytes.map (.virtualMemory address)).mapError .backend, backend)
  | .translate address =>
    let (physical, backend) := backend.translateVirtualAddress inspector address
    ((physical.map (.translation address)).mapError .backend, backend)
  | .execution address before after =>
    let (inspection, backend) := backend.inspectExecution inspector address before after
    ((inspection.map .execution).mapError .backend, backend)
  | .searchMemory pattern =>
    let (found, backend) := backend.searchMemory inspector pattern
    ((found.map .searchMemory).mapError .backend, backend)

def inspect (emulator : Emulator) (request : RuntimeInspectionRequest) (inspector : Inspector) :
    Except RuntimeError RuntimeInspection × Emulator :=
  let (response, backend) := inspectBackend emulator.backend inspector request
  (response, { emulator with backend })

/-- The dirty sectors of a unit. -/
def dirty (emulator : Emulator) (unit : Fin 2) : Finset Nat :=
  (emulator.backend.machine.bus.block.units unit).dirtySectors

end Emulator

/-- What happens at an instant of the service. -/
inductive Happening where
  | published
  | flushed (unit : Fin 2) (failed : Bool)
  | batch
  | replaced
deriving DecidableEq

/-- What an observer can see after something happened, and what is still dirty. -/
structure Instant where
  happening : Happening
  lifecycle : LifecycleState
  lastError : Option ErrorText
  dirty : Fin 2 → Finset Nat

/-- The service, the status it shares, and the instants it went through, newest first. -/
structure Service where
  emulator : Emulator
  lifecycle : LifecycleState
  remainingInstructions : Option Nat
  pendingBreakpoint : Option U32
  executionDeadline : Option Nat
  scheduledUart : List ScheduledUartInput
  status : RuntimeStatus
  live : Bool
  history : List Instant

namespace Service

def note (service : Service) (happening : Happening) : Service :=
  { service with history := ⟨happening, service.status.lifecycle, service.status.lastError,
    service.emulator.dirty⟩ :: service.history }

def publish (service : Service) (lifecycle : LifecycleState) (lastStop : Option StopText)
    (lastError : Option ErrorText) : Service :=
  let (machine, emulator) := service.emulator.status
  { service with
    emulator
    status :=
      { lifecycle
        machine
        lastStop := lastStop.or service.status.lastStop
        lastError := lastError.or service.status.lastError } }.note .published

def publishClearingStop (service : Service) (lifecycle : LifecycleState) : Service :=
  let (machine, emulator) := service.emulator.status
  { service with
    emulator
    status := { service.status with lifecycle, machine, lastStop := none } }.note .published

/-- Flushes one unit if it has a file. -/
def flushUnit (service : Service) (unit : Fin 2) (host : HostOutcomes) :
    Option CoreError × Service :=
  match service.emulator.blockMediaPaths unit with
  | none => (none, service)
  | some _ =>
    let (result, emulator) := service.emulator.flushUnit unit (host.write unit)
    let service := { service with emulator }
    match result with
    | .ok () => (none, service.note (.flushed unit false))
    | .error error => (some error, service.note (.flushed unit true))

/-- Flushes every unit and keeps the first error. -/
def flush (service : Service) (host : HostOutcomes) : Option RuntimeError × Service :=
  let (first, service) := service.flushUnit 0 host
  let (second, service) := service.flushUnit 1 host
  ((first.or second).map .core, service)

/-- `lifecycle = Paused` and its publication, the flush before it. -/
def pauseWith (service : Service) (lastStop : Option StopText) (host : HostOutcomes) : Service :=
  let (error, service) := { service with lifecycle := .paused }.flush host
  service.publish .paused lastStop (error.map .error)

/-- Replaces the emulator by a freshly reset one, after a flush. -/
def resetEmulator (service : Service) (host : HostOutcomes) : Option RuntimeError × Service :=
  let (error, service) := service.flush host
  match error with
  | some error => (some error, service)
  | none =>
    let emulator := service.emulator
    let built := do
      let machine ← emulator.backend.machine.resetClone.mapError RuntimeError.core
      let machine ← configuredMachine emulator.blockMediaPaths emulator.initialRamWrites machine
        host.read
      Emulator.newBackend machine host
    match built with
    | .error error => (some error, service)
    | .ok backend =>
      let service := { service with emulator := { emulator with backend } }.note .replaced
      match Emulator.setProgramCounter backend emulator.entry host with
      | .error error => (some error, service)
      | .ok backend => (none, { service with emulator := { emulator with backend } })

/-- The last flush, and the end of the loop. -/
def stop (service : Service) (host : HostOutcomes) : Service :=
  let (error, service) := (service.publish .stopping none none).flush host
  let service := match error with
    | none => service.publish .stopped none none
    | some error => service.publish .failed none (some (.error error))
  { service with live := false }

def fail (service : Service) (lastStop : Option StopText) (error : ErrorText) : Service :=
  { service.publish .failed lastStop (some error) with live := false }

def processCommand (service : Service) (command : Command) (host : HostOutcomes) : Service :=
  match command, service.lifecycle with
  | .pause, .running => { service with remainingInstructions := none }.pauseWith none host
  | .resume limit, .paused =>
    let resumed : Except RuntimeError Emulator := match service.pendingBreakpoint with
      | none => .ok service.emulator
      | some address => service.emulator.resumeFromBreakpoint address host
    let service := { service with pendingBreakpoint := none }
    match resumed with
    | .error error => service.fail none (.error error)
    | .ok emulator =>
      { service with
        emulator
        remainingInstructions := limit.map PNat.val
        lifecycle := .running }.publishClearingStop .running
  | .reset, .running | .reset, .paused =>
    match service.resetEmulator host with
    | (none, service) =>
      { service with pendingBreakpoint := none }.publishClearingStop service.lifecycle
    | (some error, service) => service.publish service.lifecycle none (some (.error error))
  | .shutdown, _ => service.stop host
  | .inspect request, _ =>
    { service with emulator := (service.emulator.inspect request host.inspector).2 }
  | _, _ => service

/-- How a batch runs: the registers and the machine it leaves, and why it stopped. -/
abbrev Runner := UnicornBackend → (start stop : U32) → (instructionBudget : Nat) →
  (tickDeadline : Option Nat) → Except RuntimeError BackendStop × UnicornBackend

/-- `Emulator::run_batch` over the execution adapter. -/
def adapterRunner (engine : Engine) : Runner := fun backend start stop budget tickDeadline =>
  let (stop, backend) := backend.runWithTickDeadline engine start stop budget tickDeadline
  (.ok stop, backend)

/-- Delivers the scheduled input that is due. -/
def deliverScheduled (service : Service) (currentTick : Nat) : Service :=
  let due := service.scheduledUart.takeWhile fun input => input.atTick ≤ currentTick
  { service with
    scheduledUart := service.scheduledUart.dropWhile fun input => input.atTick ≤ currentTick
    emulator := due.foldl (fun emulator input => emulator.deliverUart input.port input.bytes)
      service.emulator }

/-- The next deadline or scheduled input ahead. -/
def tickBoundary (service : Service) (currentTick : Nat) : Option Nat :=
  ((service.executionDeadline.toList ++
    (service.scheduledUart.head?.map ScheduledUartInput.atTick).toList).filter fun boundary =>
      currentTick < boundary).min?

/-- The instruction budget of the next batch. -/
def instructionBudget (service : Service) (currentTick : Nat) : Nat :=
  let budget := service.remainingInstructions.elim service.emulator.instructionBatch fun remaining =>
    min remaining service.emulator.instructionBatch
  (service.tickBoundary currentTick).elim budget fun boundary =>
    min budget (boundary - currentTick)

/-- What follows a batch, by the reason it stopped for. -/
def afterBatch (service : Service) (result : Except RuntimeError BackendStop)
    (limitReached publishDue : Bool) (host : HostOutcomes) : Service :=
  match result with
  | .ok (.unicorn error) =>
    let (flushError, service) := service.flush host
    service.fail (some (.backend error)) (.backend error flushError)
  | .ok (.breakpoint address immediate) =>
    { service with
      remainingInstructions := none
      pendingBreakpoint := some address }.pauseWith (some (.breakpoint immediate address)) host
  | .ok stop =>
    if limitReached then
      { service with remainingInstructions := none }.pauseWith
        (some (.instructionLimitReached stop)) host
    else if publishDue then service.publish service.lifecycle (some (.stop stop)) none
    else service
  | .error error =>
    let (flushError, service) := service.flush host
    service.fail none (.run error flushError)

/-- Runs a batch and counts what it executed. -/
def runBatch (service : Service) (runner : Runner) (currentTick : Nat) :
    Except RuntimeError BackendStop × Bool × Service :=
  let emulator := service.emulator
  let (result, backend) := runner emulator.backend (emulator.backend.cpu.read .pc) emulator.stop
    (service.instructionBudget currentTick) (service.tickBoundary currentTick)
  let executed := backend.machine.ticks - emulator.backend.machine.ticks
  let remainingInstructions := service.remainingInstructions.map fun remaining => remaining - executed
  (result, remainingInstructions = some 0,
    { service with emulator := { emulator with backend }, remainingInstructions }.note .batch)

/-- One turn of the loop while the lifecycle is Running. -/
def turn (service : Service) (inbox : UartPort → List U8) (runner : Runner) (publishDue : Bool)
    (host : HostOutcomes) : Service :=
  let currentTick := service.emulator.backend.machine.ticks
  let service := service.deliverScheduled currentTick
  if service.executionDeadline.any fun deadline => deadline ≤ currentTick then
    service.pauseWith (some .executionDeadlineReached) host
  else
    let service := { service with emulator := service.emulator.drainUart inbox }
    let (result, limitReached, service) := service.runBatch runner currentTick
    service.afterBatch result limitReached publishDue host

/-- What the loop takes from its environment, one at a time. -/
inductive Step where
  | command (command : Command) (host : HostOutcomes)
  | disconnected (host : HostOutcomes)
  | turn (inbox : UartPort → List U8) (runner : Runner) (publishDue : Bool) (host : HostOutcomes)

def step (service : Service) (next : Step) : Service :=
  if !service.live then service
  else match next with
    | .command command host => service.processCommand command host
    | .disconnected host => service.stop host
    | .turn inbox runner publishDue host =>
      if service.lifecycle = .running then service.turn inbox runner publishDue host else service

/-- What the handle's `spawn` prepares, and `run` up to its loop. -/
def start (config : RuntimeConfig) (host : HostOutcomes) : Except RuntimeError Service := do
  let emulator ← Emulator.new { config with instructionBatch := max config.instructionBatch 1 } host
  let lifecycle : LifecycleState := if config.startPaused then .paused else .running
  return ({
    emulator
    lifecycle
    remainingInstructions := none
    pendingBreakpoint := none
    executionDeadline := config.executionDeadline
    scheduledUart := config.scheduledUart.mergeSort fun first second => first.atTick ≤ second.atTick
    status := ⟨.starting, config.machine.status.1, none, none⟩
    live := true
    history := [] } : Service).publish lifecycle none none

end Service

end Minemu.Runtime
