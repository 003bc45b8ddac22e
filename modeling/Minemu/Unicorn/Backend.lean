import Minemu.Core.Machine
import Minemu.Unicorn.Arm

/-! The execution adapter. The engine itself is a parameter: it decides which
events a batch consists of, and every callback runs at its place among them. -/

namespace Minemu.Unicorn

open Platform Minemu.Core

/-- `uc_error`; only the value the adapter itself reports is named. -/
inductive UcError where
  | arg
  | other (code : Nat)
deriving DecidableEq

/-- What the detail text of an MMIO fault is rendered from. -/
inductive MmioDetail where
  | unsupportedWidth (size : Nat)
  | core (error : CoreError)
deriving DecidableEq

/-- An explicit reason why a bounded backend run stopped. -/
inductive BackendStop where
  | instructionBudget
  | breakpoint (address : U32) (immediate : U16)
  | mmioFault (address : U32) (access : Access) (detail : MmioDetail)
  | mmuFault (fault : MmuFault)
  | cp15Boundary
  | exception (kind : ExceptionKind)
  | unicorn (error : UcError)
deriving DecidableEq

inductive PendingException where
  | synchronous (kind : ExceptionKind) (pc : U32)
  | fault (fault : MmuFault)
deriving DecidableEq

/-- `BackendData` with the registers of the engine that owns it, and the deferred
exception of `UnicornBackend`. -/
structure UnicornBackend where
  machine : Machine
  cpu : Cpu
  executedInstructions : Nat
  callbackStop : Option BackendStop
  pendingCp15 : Option PendingCp15
  pendingException : Option PendingException
  deferredException : Option (ExceptionKind × VirtualAddress)

/-- The kind of access a virtual-TLB lookup is for. -/
inductive MemType where
  | fetch
  | read
  | write
  | other
deriving DecidableEq

def mmuAccess : MemType → Option Access
  | .fetch => some .fetch
  | .read => some .read
  | .write => some .write
  | .other => none

/-- What happens during `emu_start`, in order. `native` is the engine's own effect:
the registers it leaves and the bytes it stores to the shared RAM. -/
inductive EngineEvent where
  | native (cpu : Cpu) (stores : List (PhysicalAddress × List U8))
  | code (address : U32) (size : Nat) (word : Option U32)
  | tlb (address : U32) (memoryType : MemType)
  | invalidInstruction
  | mmioRead (offset : U32) (size : Nat)
  | mmioWrite (offset : U32) (size : Nat) (value : U32)

namespace UnicornBackend

def new (machine : Machine) : UnicornBackend := ⟨machine, .reset, 0, none, none, none, none⟩

def setBus (backend : UnicornBackend) (bus : MmioBus) : UnicornBackend :=
  { backend with machine := { backend.machine with bus } }

def setRegister (backend : UnicornBackend) (register : Register) (value : U32) : UnicornBackend :=
  { backend with cpu := backend.cpu.write register value }

def userMode (backend : UnicornBackend) : Bool := backend.cpu.read .cpsr &&& 0x1f#32 == 0x10#32

/-- The entry handed back to the engine: the physical address and the one access it is for. -/
def virtualTlbCallback (backend : UnicornBackend) (address : U32) (memoryType : MemType) :
    Option (PhysicalAddress × Access) × UnicornBackend :=
  match mmuAccess memoryType with
  | none => (none, backend)
  | some access =>
    let userMode := backend.userMode
    let (translated, mmu, memory) :=
      backend.machine.mmu.translate backend.machine.memory ⟨address⟩ access userMode
    let machine := { backend.machine with mmu, memory }
    match translated with
    | .ok physical =>
      if access = .fetch ∧ (MemRegion.ofAddress physical).any MemRegion.isDevice then
        let (fault, mmu) := machine.mmu.recordInvalidMmioFault ⟨address⟩ access userMode
        (none, { backend with
          machine := { machine with mmu }, callbackStop := some (.mmuFault fault) })
      else (some (physical, access), { backend with machine })
    | .error fault => (none, { backend with machine, callbackStop := some (.mmuFault fault) })

def instructionCounterCallback (backend : UnicornBackend) : UnicornBackend :=
  { backend with executedInstructions := backend.executedInstructions + 1 }

/-- The part of the trap callback that takes CP15 accesses. -/
def cp15Trap (backend : UnicornBackend) (address instruction : U32) : UnicornBackend :=
  match decodeCp15 instruction with
  | none => backend
  | some cp15 =>
    let cpsr := backend.cpu.read .cpsr
    let pending :=
      if !conditionHolds cp15.condition cpsr then none
      else if !cp15IsPrivileged cpsr then some (.undefined address)
      else some (cp15Pending backend.cpu cp15 address)
    let pendingCp15 := match pending with
      | some pending => some pending
      | none => backend.pendingCp15
    { backend with pendingCp15 }.setRegister .pc (address + 4#32)

/-- `word` is what `vmem_read` returned, `none` when it failed. -/
def a32SynchronousTrapCallback (backend : UnicornBackend) (address : U32) (size : Nat)
    (word : Option U32) : UnicornBackend :=
  if size ≠ 4 then backend
  else match word with
    | none => backend
    | some instruction =>
      let cpsr := backend.cpu.read .cpsr
      match (decodeBreakpoint instruction).filter fun found => conditionHolds found.condition cpsr with
      | some found =>
        { backend with callbackStop := some (.breakpoint address found.immediate) }
      | none =>
        if instruction &&& 0x0f00_0000#32 = 0x0f00_0000#32 ∧
            conditionHolds (instruction >>> 28) cpsr then
          { backend with
            pendingException := some (.synchronous .supervisorCall address)
            }.setRegister .pc (address + 4#32)
        else backend.cp15Trap address instruction

def invalidInstructionCallback (backend : UnicornBackend) : UnicornBackend :=
  let pc := backend.cpu.read .pc
  { backend with pendingException := some (.synchronous .undefined pc) }.setRegister .pc (pc + 4#32)

def recordMmioFault (backend : UnicornBackend) (address : U32) (access : Access)
    (detail : MmioDetail) : UnicornBackend :=
  { backend with callbackStop := some (.mmioFault address access detail) }

def mmioBase : U32 := 0x1000_0000

/-- The value handed to the guest, and the backend. -/
def mmioReadCallback (backend : UnicornBackend) (offset : U32) (size : Nat) :
    U32 × UnicornBackend :=
  let address := mmioBase + offset
  match MmioWidth.ofBytes size with
  | none => (0, backend.recordMmioFault address .read (.unsupportedWidth size))
  | some width =>
    match backend.machine.bus.access (.read ⟨address⟩ width) backend.machine.ticks with
    | .ok (value, bus) => (value.getD 0, backend.setBus bus)
    | .error error => (0, backend.recordMmioFault address .read (.core error))

def mmioWriteCallback (backend : UnicornBackend) (offset : U32) (size : Nat) (value : U32) :
    UnicornBackend :=
  let address := mmioBase + offset
  match MmioWidth.ofBytes size with
  | none => backend.recordMmioFault address .write (.unsupportedWidth size)
  | some width =>
    match backend.machine.bus.access (.write ⟨address⟩ width value) backend.machine.ticks with
    | .ok (_, bus) => backend.setBus bus
    | .error error => backend.recordMmioFault address .write (.core error)

/-- Bytes the engine stores to the RAM it shares with the machine. -/
def storeBytes (memory : PhysicalMemory) (stores : List (PhysicalAddress × List U8)) :
    PhysicalMemory :=
  stores.foldl (fun memory store => (memory.writeRange store.1 store.2).toOption.getD memory) memory

def event (backend : UnicornBackend) : EngineEvent → UnicornBackend
  | .native cpu stores =>
    { backend with
      cpu
      machine := { backend.machine with memory := storeBytes backend.machine.memory stores } }
  | .code address size word =>
    backend.instructionCounterCallback.a32SynchronousTrapCallback address size word
  | .tlb address memoryType => (backend.virtualTlbCallback address memoryType).2
  | .invalidInstruction => backend.invalidInstructionCallback
  | .mmioRead offset size => (backend.mmioReadCallback offset size).2
  | .mmioWrite offset size value => backend.mmioWriteCallback offset size value

def emulate (backend : UnicornBackend) (events : List EngineEvent) : UnicornBackend :=
  events.foldl event backend

/-- Applies the documented A32 state transition for an exception plan. -/
def enterException (backend : UnicornBackend) (plan : ExceptionPlan) : UnicornBackend :=
  let previousCpsr := backend.cpu.read .cpsr
  let mode : U32 := match plan.request.kind.destinationMode with
    | .supervisor => 0x13
    | .interrupt => 0x12
    | .abort => 0x17
    | .undefined => 0x1b
    | .user => 0x10 -- no exception kind has this destination
  let linkOffset : U32 := match plan.request.kind with
    | .dataAbort => 8
    | _ => 4
  let destinationCpsr := (previousCpsr &&& ~~~0x3f#32) ||| mode ||| (1#32 <<< 7)
  let backend := backend.setRegister .cpsr destinationCpsr
  let backend := backend.setRegister .spsr previousCpsr
  let backend := backend.setRegister .lr (plan.request.pc.get + linkOffset)
  let vector := backend.machine.mmu.vectorBase.get + plan.request.kind.vectorOffset
  backend.setRegister .pc vector

def finishInstruction (backend : UnicornBackend) (outcome : InstructionOutcome) :
    Option ExceptionPlan × UnicornBackend :=
  let (plan, machine) := backend.machine.finishInstruction outcome
  (plan, { backend with machine })

def finishSynchronousException (backend : UnicornBackend) (kind : ExceptionKind)
    (pc : VirtualAddress) (tickDeadline : Option Nat) : BackendStop × UnicornBackend :=
  if tickDeadline = some (backend.machine.ticks + 1) then
    let (_, backend) := backend.finishInstruction .completed
    (.instructionBudget, { backend with deferredException := some (kind, pc) })
  else
    let (plan, backend) := backend.finishInstruction (.synchronousException kind pc)
    let backend := match plan with
      | some plan => backend.enterException plan
      | none => backend
    (.exception kind, backend)

def finishPendingException (backend : UnicornBackend) (exception : PendingException)
    (tickDeadline : Option Nat) : BackendStop × UnicornBackend :=
  match exception with
  | .synchronous kind pc => backend.finishSynchronousException kind ⟨pc⟩ tickDeadline
  | .fault fault =>
    let pc := backend.cpu.read .pc
    match backend.finishInstruction (.fault fault ⟨pc⟩) with
    | (none, backend) => (.unicorn .arg, backend)
    | (some plan, backend) => (.exception plan.request.kind, backend.enterException plan)

def finishCallbackStop (backend : UnicornBackend) (stop : BackendStop)
    (tickDeadline : Option Nat) : BackendStop × UnicornBackend :=
  match stop with
  | .mmuFault fault => backend.finishPendingException (.fault fault) tickDeadline
  | .mmioFault address access _ =>
    let (fault, mmu) :=
      backend.machine.mmu.recordInvalidMmioFault ⟨address⟩ access backend.userMode
    let backend := { backend with machine := { backend.machine with mmu } }
    backend.finishPendingException (.fault fault) tickDeadline
  | stop => (stop, backend)

/-- Enters the IRQ vector when IRQs are unmasked and a source can be claimed. -/
def deliverIrq (backend : UnicornBackend) : Option BackendStop × UnicornBackend :=
  if backend.cpu.read .cpsr &&& (1#32 <<< 7) ≠ 0#32 then (none, backend)
  else
    let (source, interrupts) := backend.machine.bus.interrupts.claimSource
    let backend := backend.setBus { backend.machine.bus with interrupts }
    match source with
    | none => (none, backend)
    | some _ =>
      let (plan, machine) := backend.machine.enterException .interrupt ⟨backend.cpu.read .pc⟩
      (some (.exception .interrupt), { backend with machine }.enterException plan)

def deadlineReached (backend : UnicornBackend) (tickDeadline : Option Nat) : Bool :=
  tickDeadline.any fun deadline => deadline ≤ backend.machine.ticks

def resumeDeferredException (backend : UnicornBackend) (tickDeadline : Option Nat) :
    Option BackendStop × UnicornBackend :=
  match backend.deferredException with
  | none => (none, backend)
  | some (kind, pc) =>
    if backend.deadlineReached tickDeadline then (some .instructionBudget, backend)
    else
      let (plan, machine) := backend.machine.enterException kind pc
      (some (.exception kind),
        { backend with deferredException := none, machine }.enterException plan)

/-- Retires the instructions a batch completed, one at a time. -/
def retire (backend : UnicornBackend) (count : Nat) : UnicornBackend :=
  let machine :=
    (fun machine : Machine => (machine.finishInstruction .completed).2)^[count] backend.machine
  { backend with machine }

def isFaultStop : BackendStop → Bool
  | .mmuFault _ | .mmioFault _ _ _ => true
  | _ => false

def isUndefinedCp15 : PendingCp15 → Bool
  | .undefined _ => true
  | _ => false

/-- Whether the flags of a batch name an instruction that did not complete. -/
def faultingInstruction (backend : UnicornBackend) : Bool :=
  backend.pendingCp15.any isUndefinedCp15 || backend.pendingException.isSome ||
    backend.callbackStop.any isFaultStop

end UnicornBackend

/-- What the adapter asks of Unicorn. -/
structure Engine where
  setExits : UnicornBackend → List U32 → Except UcError Unit
  flushTlb : UnicornBackend → Except UcError Unit
  emuStart : UnicornBackend → (start stop : U32) → (count : Nat) →
    List EngineEvent × Except UcError Unit

namespace UnicornBackend

def finishCp15 (engine : Engine) (backend : UnicornBackend) (pending : PendingCp15)
    (tickDeadline : Option Nat) : BackendStop × UnicornBackend :=
  match pending with
  | .operation operation =>
    let mmu := backend.machine.mmu.applyCp15 operation
    let backend := { backend with machine := { backend.machine with mmu } }
    if operation = .invalidateAll ∧ !(engine.flushTlb backend).isOk then (.unicorn .arg, backend)
    else (.cp15Boundary, backend)
  | .readFaultStatus register =>
    let value := backend.machine.mmu.lastFault.elim 0 fun fault => fault.status.raw
    (.cp15Boundary, backend.setRegister register value)
  | .readFaultAddress register =>
    let value := backend.machine.mmu.lastFault.elim 0 fun fault => fault.address.get
    (.cp15Boundary, backend.setRegister register value)
  | .undefined pc => backend.finishSynchronousException .undefined ⟨pc⟩ tickDeadline

/-- The exits `end` stands for; `u32::MAX` means none. -/
def exitsOf (stop : U32) : List U32 := if stop = BitVec.allOnes 32 then [] else [stop]

def clearFlags (backend : UnicornBackend) : UnicornBackend :=
  { backend with
    executedInstructions := 0
    callbackStop := none
    pendingCp15 := none
    pendingException := none }

def completedInstructions (backend : UnicornBackend) : Nat :=
  backend.executedInstructions - backend.faultingInstruction.toNat

/-- Takes the flags of a batch and retires the instructions it completed. -/
def account (backend : UnicornBackend) : UnicornBackend :=
  { backend with callbackStop := none, pendingCp15 := none, pendingException := none }.retire
    backend.completedInstructions

/-- The exit of a batch that no flag stopped: an IRQ at its end, or the engine's result. -/
def finishRun (backend : UnicornBackend) (result : Except UcError Unit)
    (tickDeadline : Option Nat) : BackendStop × UnicornBackend :=
  let (delivered, backend) :=
    if backend.deadlineReached tickDeadline then (none, backend) else backend.deliverIrq
  match delivered with
  | some stop => (stop, backend)
  | none => (match result with | .ok () => .instructionBudget | .error error => .unicorn error, backend)

/-- The accounting and the exits after `emu_start` returned. -/
def finishBatch (engine : Engine) (backend : UnicornBackend) (result : Except UcError Unit)
    (tickDeadline : Option Nat) : BackendStop × UnicornBackend :=
  match backend.callbackStop, backend.pendingException, backend.pendingCp15 with
  | some stop, _, _ => backend.account.finishCallbackStop stop tickDeadline
  | none, some exception, _ => backend.account.finishPendingException exception tickDeadline
  | none, none, some pending => backend.account.finishCp15 engine pending tickDeadline
  | none, none, none => backend.account.finishRun result tickDeadline

/-- One batch: `instruction_budget` clipped to the deadline, then `emu_start`. -/
def runBatch (engine : Engine) (backend : UnicornBackend) (start stop : U32)
    (instructionBudget : Nat) (tickDeadline : Option Nat) : BackendStop × UnicornBackend :=
  let instructionBudget := tickDeadline.elim instructionBudget fun deadline =>
    min instructionBudget (deadline - backend.machine.ticks)
  match engine.setExits backend (exitsOf stop) with
  | .error error => (.unicorn error, backend)
  | .ok () =>
    let backend := backend.clearFlags
    let (events, result) := engine.emuStart backend start stop instructionBudget
    (backend.emulate events).finishBatch engine result tickDeadline

def runWithTickDeadline (engine : Engine) (backend : UnicornBackend) (start stop : U32)
    (instructionBudget : Nat) (tickDeadline : Option Nat) : BackendStop × UnicornBackend :=
  match backend.resumeDeferredException tickDeadline with
  | (some stop, backend) => (stop, backend)
  | (none, backend) =>
    if backend.deadlineReached tickDeadline then (.instructionBudget, backend)
    else
      let (delivered, backend) := if tickDeadline.isSome then backend.deliverIrq else (none, backend)
      match delivered with
      | some stop => (stop, backend)
      | none => backend.runBatch engine start stop instructionBudget tickDeadline

/-- Runs no more than `instruction_budget` instructions from `start` toward `end`. -/
def run (engine : Engine) (backend : UnicornBackend) (start stop : U32)
    (instructionBudget : Nat) : BackendStop × UnicornBackend :=
  backend.runWithTickDeadline engine start stop instructionBudget none

/-- Runs without crossing the supplied virtual-time boundary. -/
def runUntilTick (engine : Engine) (backend : UnicornBackend) (start stop : U32)
    (instructionBudget tickDeadline : Nat) : BackendStop × UnicornBackend :=
  backend.runWithTickDeadline engine start stop instructionBudget (some tickDeadline)

end UnicornBackend

end Minemu.Unicorn
