import Minemu.Core.BlockPersistence
import Minemu.Core.DeviceReads
import Minemu.Core.TickOrder
import Minemu.Runtime.ServicePersistence
import Minemu.Unicorn.MachineSteps

/-! Resetting the emulator: a reset either changes nothing but what its flush changed, or leaves
the machine a fresh start builds, over the media of the moment. -/

namespace Minemu.Runtime

open Library Platform Minemu.Core Minemu.Unicorn

/-- The files of the host. -/
abbrev HostFiles := String → List U8

/-- How an `fs::write` ends; a failed one leaves whatever it got to. -/
inductive WriteOutcome where
  | written
  | failed (error : IoError) (left : List U8)

def WriteOutcome.result : WriteOutcome → Except IoError Unit
  | .written => .ok ()
  | .failed error _ => .error error

def writeFile (path : String) (outcome : WriteOutcome) (files : HostFiles) (media : List U8) :
    Except IoError Unit × HostFiles :=
  match outcome with
  | .written => (.ok (), Function.update files path media)
  | .failed error left => (.error error, Function.update files path left)

/-- How the file accesses and the engine calls of one emulator method end. -/
structure HostCalls where
  write : Fin 2 → WriteOutcome
  readFailure : Fin 2 → Option IoError
  newBackend : Except BackendError Unit
  programCounter : Except BackendError Unit

/-- The same, over given files. -/
def HostCalls.outcomes (host : HostCalls) (blockMediaPaths : Fin 2 → Option String)
    (files : HostFiles) : HostOutcomes where
  write unit := (host.write unit).result
  read unit := match host.readFailure unit with
    | some error => .error error
    | none => .ok ((blockMediaPaths unit).elim [] files)
  newBackend := host.newBackend
  programCounter := host.programCounter

namespace Emulator

/-- Flushes one unit to its file, if it has one. -/
def flushFile (emulator : Emulator) (files : HostFiles) (unit : Fin 2) (outcome : WriteOutcome) :
    Option CoreError × Emulator × HostFiles :=
  match emulator.blockMediaPaths unit with
  | none => (none, emulator, files)
  | some path =>
    let (result, bus, files) :=
      emulator.backend.machine.bus.flushBlock (unitOf unit) files (writeFile path outcome)
    (match result with
      | .ok () => none
      | .error error => some error, emulator.setBus bus, files)

def filesystem : Fin 2 := ⟨0, Nat.two_pos⟩

def swap : Fin 2 := ⟨1, Nat.one_lt_two⟩

/-- Flushes every unit and keeps the first error. -/
def flush (emulator : Emulator) (files : HostFiles) (write : Fin 2 → WriteOutcome) :
    Option CoreError × Emulator × HostFiles :=
  let (first, emulator, files) := emulator.flushFile files filesystem (write filesystem)
  let (second, emulator, files) := emulator.flushFile files swap (write swap)
  (first.or second, emulator, files)

/-- The backend a reset builds before it replaces its own. -/
def rebuild (emulator : Emulator) (host : HostOutcomes) : Except RuntimeError UnicornBackend := do
  let machine ← emulator.backend.machine.resetClone.mapError RuntimeError.core
  let machine ← configuredMachine emulator.blockMediaPaths emulator.initialRamWrites machine host.read
  newBackend machine host

def reset (emulator : Emulator) (files : HostFiles) (host : HostCalls) :
    Option RuntimeError × Emulator × HostFiles :=
  let (error, emulator, files) := emulator.flush files host.write
  match error with
  | some error => (some (.core error), emulator, files)
  | none =>
    let outcomes := host.outcomes emulator.blockMediaPaths files
    match emulator.rebuild outcomes with
    | .error error => (some error, emulator, files)
    | .ok backend =>
      match setProgramCounter backend emulator.entry outcomes with
      | .error error => (some error, { emulator with backend }, files)
      | .ok backend => (none, { emulator with backend }, files)

end Emulator

/-- The emulator and the host's files. -/
structure Hosted where
  emulator : Emulator
  files : HostFiles

/-- What the service does with its emulator. -/
inductive EmulatorStep where
  | runBatch (engine : Engine) (instructionBudget : Nat) (tickDeadline : Option Nat)
  | resumeFromBreakpoint (address : U32) (host : HostCalls)
  | reset (host : HostCalls)
  | flush (write : Fin 2 → WriteOutcome)
  | drainUart (inbox : UartPort → List U8)
  | deliverUart (port : UartPort) (bytes : List U8)
  | status
  | inspect (request : RuntimeInspectionRequest) (inspector : Inspector)

namespace Hosted

def reset (hosted : Hosted) (host : HostCalls) : Option RuntimeError × Hosted :=
  let (error, emulator, files) := hosted.emulator.reset hosted.files host
  (error, ⟨emulator, files⟩)

def step (hosted : Hosted) : EmulatorStep → Hosted
  | .runBatch engine instructionBudget tickDeadline =>
    let emulator := hosted.emulator
    let backend := (emulator.backend.runWithTickDeadline engine (emulator.backend.cpu.read .pc)
      emulator.stop instructionBudget tickDeadline).2
    { hosted with emulator := { emulator with backend } }
  | .resumeFromBreakpoint address host =>
    let outcomes := host.outcomes hosted.emulator.blockMediaPaths hosted.files
    { hosted with
      emulator := (hosted.emulator.resumeFromBreakpoint address outcomes).toOption.getD
        hosted.emulator }
  | .reset host => (hosted.reset host).2
  | .flush write =>
    let (_, emulator, files) := hosted.emulator.flush hosted.files write
    ⟨emulator, files⟩
  | .drainUart inbox => { hosted with emulator := hosted.emulator.drainUart inbox }
  | .deliverUart port bytes => { hosted with emulator := hosted.emulator.deliverUart port bytes }
  | .status => { hosted with emulator := hosted.emulator.status.2 }
  | .inspect request inspector =>
    { hosted with emulator := (hosted.emulator.inspect request inspector).2 }

end Hosted

/-! ### What a fresh start builds -/

/-- The machine once the interrupt controller has drained its queue, as it is when anything
observes it. -/
def drained (machine : Machine) : Machine := { machine with bus := machine.bus.processSignals }

/-- A machine at reset over some memory, with clean media. -/
def blank (memory : PhysicalMemory) (eventCapacity : Nat) (media : Fin 2 → Option (List U8)) :
    Machine :=
  { Machine.new memory eventCapacity with
    bus := { MmioBus.new with
      block := { BlockDevice.new with units := fun unit => ⟨media unit, ∅⟩ } } }

/-- The media of a machine. -/
def mediaOf (machine : Machine) (unit : Fin 2) : Option (List U8) :=
  (machine.bus.block.units unit).media

/-- The RAM writes of a configuration, in order. -/
def loadRam (memory : PhysicalMemory) (initialRamWrites : List (PhysicalAddress × List U8)) :
    Except CoreError PhysicalMemory :=
  initialRamWrites.foldlM (fun memory write => memory.writeRange write.1 write.2) memory

section Blank

variable {memory : PhysicalMemory} {eventCapacity : Nat} {media : Fin 2 → Option (List U8)}
  {machine source after : Machine} {unit : Fin 2} {blockMediaPaths : Fin 2 → Option String}
  {initialRamWrites : List (PhysicalAddress × List U8)} {read : Fin 2 → Except IoError (List U8)}

theorem blank_fields (fresh : drained machine = blank memory eventCapacity media) :
    machine.memory = memory ∧ machine.eventCapacity = eventCapacity ∧
      machine.bus.block.units = fun unit => ⟨media unit, ∅⟩ := by
  have held := congrArg Machine.memory fresh
  have capacity := congrArg Machine.eventCapacity fresh
  have units := congrArg (fun machine : Machine => machine.bus.block.units) fresh
  exact ⟨held, capacity, units⟩

/-- Attaching media to a blank machine leaves a blank machine. -/
theorem blank_attach (fresh : drained machine = blank memory eventCapacity media)
    {bytes : List U8} {bus : MmioBus}
    (attached : machine.bus.updateBlock (.attach (unitOf unit) bytes) = .ok bus) :
    drained { machine with bus } =
      blank memory eventCapacity (Function.update media unit (some bytes)) := by
  simp only [MmioBus.updateBlock, BlockDevice.update, BlockDevice.applyUpdate] at attached
  cases result : machine.bus.block.attach (unitOf unit) bytes with
  | error error => simp [result, Except.map] at attached
  | ok block =>
    simp only [result, Except.map, Except.ok.injEq] at attached
    obtain ⟨index, found, _, _, rfl⟩ := BlockPersistence.attach_ok result
    rw [Emulator.unitIndex_unitOf] at found
    cases found
    subst attached
    have block : (drained machine).bus.block = (blank memory eventCapacity media).bus.block :=
      congrArg (fun machine : Machine => machine.bus.block) fresh
    have units : (fun other => (⟨Function.update media unit (some bytes) other, ∅⟩ : MediaUnit)) =
        Function.update (fun other => ⟨media other, ∅⟩) unit ⟨some bytes, ∅⟩ := by
      funext other
      by_cases same : other = unit
      · subst same
        simp
      · simp [same]
    have quiet : (machine.bus.block.setUnitState unit ⟨some bytes, ∅⟩).signal = ⟨.block, false⟩ := by
      change ((drained machine).bus.block.setUnitState unit ⟨some bytes, ∅⟩).signal = ⟨.block, false⟩
      rw [block]
      rfl
    rw [quiet, drained, MmioBus.processSignals_send_one]
    change { drained machine with
      bus := { (drained machine).bus with
        block := (drained machine).bus.block.setUnitState unit ⟨some bytes, ∅⟩
        interrupts := { (drained machine).bus.interrupts with
          pending := InterruptController.applySignal (drained machine).bus.interrupts.pending
            ⟨.block, false⟩ } } } = _
    have low : InterruptController.applySignal 0 ⟨.block, false⟩ = 0 := by decide
    rw [fresh]
    simp only [blank, BlockDevice.setUnitState, MmioBus.new, InterruptController.new, Machine.new,
      low, units]

/-- Giving media to both units, where there is some to give. -/
theorem update_both (media given : Fin 2 → Option (List U8)) :
    Function.update (Function.update media 0 ((given 0).or (media 0))) 1
      ((given 1).or (Function.update media 0 ((given 0).or (media 0)) 1)) =
        fun unit => (given unit).or (media unit) := by
  funext unit
  match unit with
  | 0 => rfl
  | 1 => rfl

/-- One turn of the loop in `reset_clone`. -/
def cloneUnit (source clone : Machine) (unit : U32) : Except CoreError Machine := do
  match ← source.bus.block.mediaClone unit with
  | none => return clone
  | some media =>
    let bus ← clone.bus.updateBlock (.attach unit media)
    return { clone with bus }

theorem resetClone_eq (source : Machine) : source.resetClone =
    [unitFilesystem, unitSwap].foldlM (cloneUnit source)
      (.new { source.memory with ram := fun _ => 0 } source.eventCapacity) := rfl

theorem blank_cloneUnit (unit : Fin 2)
    (fresh : drained machine = blank memory eventCapacity media)
    (turned : cloneUnit source machine (unitOf unit) = .ok after) :
    drained after = blank memory eventCapacity
      (Function.update media unit ((mediaOf source unit).or (media unit))) := by
  obtain ⟨given, asked, turned⟩ := bind_ok turned
  have same : mediaOf source unit = given := by
    rw [BlockDevice.mediaClone, Emulator.unitIndex_unitOf] at asked
    exact Except.ok.inj asked
  rw [same]
  cases given with
  | none =>
    cases turned
    simpa using fresh
  | some bytes =>
    obtain ⟨bus, attached, turned⟩ := bind_ok turned
    cases turned
    exact blank_attach fresh attached

/-- A reset clone is a blank machine with the media of its source. -/
theorem blank_resetClone (cloned : source.resetClone = .ok machine) :
    drained machine = blank { source.memory with ram := fun _ => 0 } source.eventCapacity
      (mediaOf source) := by
  rw [resetClone_eq, List.foldlM_cons] at cloned
  obtain ⟨first, filesystem, cloned⟩ := bind_ok cloned
  rw [List.foldlM_cons] at cloned
  obtain ⟨second, swap, done⟩ := bind_ok cloned
  cases done
  have whole := blank_cloneUnit 1 (blank_cloneUnit 0 rfl filesystem) swap
  rw [update_both] at whole
  simpa using whole

/-- The media read from the files, of the units that have one. -/
def readMedia (blockMediaPaths : Fin 2 → Option String) (read : Fin 2 → Except IoError (List U8))
    (unit : Fin 2) : Option (List U8) :=
  (blockMediaPaths unit).bind fun _ => (read unit).toOption

/-- Loading RAM goes through memories only. -/
theorem blank_loadRam (fresh : drained machine = blank memory eventCapacity media)
    (loaded : initialRamWrites.foldlM (fun machine write => do
      let memory ← (machine.memory.writeRange write.1 write.2).mapError RuntimeError.core
      return { machine with memory }) machine = .ok after) :
    ∃ stored, loadRam memory initialRamWrites = .ok stored ∧
      drained after = blank stored eventCapacity media := by
  induction initialRamWrites generalizing machine memory with
  | nil =>
    cases loaded
    exact ⟨memory, rfl, fresh⟩
  | cons write writes ih =>
    rw [List.foldlM_cons] at loaded
    obtain ⟨middle, turned, loaded⟩ := bind_ok loaded
    obtain ⟨stored, wrote, turned⟩ := bind_ok turned
    cases turned
    have same := (blank_fields fresh).1
    have next : drained { machine with memory := stored } = blank stored eventCapacity media :=
      congrArg (fun machine : Machine => { machine with memory := stored }) fresh
    obtain ⟨last, rest, done⟩ := ih next loaded
    refine ⟨last, ?_, done⟩
    have written : memory.writeRange write.1 write.2 = .ok stored := same ▸ mapError_ok wrote
    rw [loadRam, List.foldlM_cons, written]
    exact rest

/-- A configured machine is a blank one over the loaded memory, with the media of the files, or of
its source where there is no file. -/
theorem blank_configured
    (configured : configuredMachine blockMediaPaths initialRamWrites source read = .ok machine) :
    (∀ unit, (blockMediaPaths unit).isSome = true → ∃ bytes, read unit = .ok bytes) ∧
      ∃ memory, loadRam { source.memory with ram := fun _ => 0 } initialRamWrites = .ok memory ∧
        drained machine = blank memory source.eventCapacity fun unit =>
          (readMedia blockMediaPaths read unit).or (mediaOf source unit) := by
  have turn {machine after : Machine} {memory : PhysicalMemory} {eventCapacity : Nat}
      {media : Fin 2 → Option (List U8)} (unit : Fin 2)
      (fresh : drained machine = blank memory eventCapacity media)
      (turned : (match blockMediaPaths unit with
        | none => return machine
        | some _ => do
          let media ← (read unit).mapError RuntimeError.io
          let bus ← (machine.bus.updateBlock (.attach (unitOf unit) media)).mapError .core
          return { machine with bus }) = Except.ok after) :
      ((blockMediaPaths unit).isSome = true → ∃ bytes, read unit = .ok bytes) ∧
        drained after = blank memory eventCapacity
          (Function.update media unit ((readMedia blockMediaPaths read unit).or (media unit))) := by
    unfold readMedia
    cases file : blockMediaPaths unit with
    | none =>
      rw [file] at turned
      cases turned
      exact ⟨fun absent => (by cases absent), by simpa using fresh⟩
    | some path =>
      rw [file] at turned
      obtain ⟨bytes, found, turned⟩ := bind_ok turned
      obtain ⟨bus, attached, turned⟩ := bind_ok turned
      cases turned
      have content := mapError_ok found
      refine ⟨fun _ => ⟨bytes, content⟩, ?_⟩
      rw [content]
      exact blank_attach fresh (mapError_ok attached)
  obtain ⟨clone, cloned, configured⟩ := bind_ok configured
  obtain ⟨attached, attaching, configured⟩ := bind_ok configured
  rw [List.foldlM_cons] at attaching
  obtain ⟨first, filesystem, attaching⟩ := bind_ok attaching
  rw [List.foldlM_cons] at attaching
  obtain ⟨second, swap, done⟩ := bind_ok attaching
  cases done
  obtain ⟨readFilesystem, fresh⟩ := turn 0 (blank_resetClone (mapError_ok cloned)) filesystem
  obtain ⟨readSwap, fresh⟩ := turn 1 fresh swap
  rw [update_both] at fresh
  refine ⟨fun unit => ?_, blank_loadRam fresh configured⟩
  match unit with
  | 0 => exact readFilesystem
  | 1 => exact readSwap

end Blank

/-! ### What a flush changes -/

/-- The dirty sets, Complete and Error, and the block level announced after a failure, are all a
flush may change. -/
structure FlushedOnly (before after : Emulator) : Prop where
  frame : after = before.setBus { before.backend.machine.bus with
    block := { before.backend.machine.bus.block with
      complete := after.backend.machine.bus.block.complete
      error := after.backend.machine.bus.block.error
      units := after.backend.machine.bus.block.units }
    interrupts := after.backend.machine.bus.interrupts }
  media : mediaOf after.backend.machine = mediaOf before.backend.machine
  announced : (after.backend.machine.bus.interrupts = before.backend.machine.bus.interrupts ∧
      after.backend.machine.bus.block.complete = before.backend.machine.bus.block.complete ∧
      after.backend.machine.bus.block.error = before.backend.machine.bus.block.error) ∨
    (after.backend.machine.bus.block.complete = true ∧
      after.backend.machine.bus.block.error = .deferredPersistence ∧
      ∃ failures, after.backend.machine.bus.interrupts = before.backend.machine.bus.interrupts.send
        (List.replicate failures
          ⟨.block, before.backend.machine.bus.block.completionIrqEnabled⟩))

namespace FlushedOnly

variable {first second third : Emulator}

theorem refl (emulator : Emulator) : FlushedOnly emulator emulator :=
  ⟨rfl, rfl, .inl ⟨rfl, rfl, rfl⟩⟩

theorem irqEnabled (flushed : FlushedOnly first second) :
    second.backend.machine.bus.block.completionIrqEnabled =
      first.backend.machine.bus.block.completionIrqEnabled := by
  rw [flushed.frame]
  rfl

theorem trans (before : FlushedOnly first second) (after : FlushedOnly second third) :
    FlushedOnly first third := by
  refine ⟨?_, after.media.trans before.media, ?_⟩
  · have frame := after.frame
    rw [before.frame] at frame
    exact frame
  · rcases after.announced with ⟨interrupts, complete, error⟩ | ⟨complete, error, failures, sent⟩
    · rw [interrupts, complete, error]
      exact before.announced
    · refine .inr ⟨complete, error, ?_⟩
      rw [before.irqEnabled] at sent
      rcases before.announced with ⟨interrupts, _, _⟩ | ⟨_, _, earlier, sent'⟩
      · rw [interrupts] at sent
        exact ⟨failures, sent⟩
      · refine ⟨earlier + failures, ?_⟩
        rw [sent, sent', List.replicate_add]
        simp [InterruptController.send]

end FlushedOnly

namespace Emulator

variable {emulator : Emulator} {files : HostFiles} {unit : Fin 2} {outcome : WriteOutcome}

theorem send_nil (bus : MmioBus) : bus.send [] = bus := by
  simp [MmioBus.send, InterruptController.send]

/-- How the flush of one unit ends: nothing attempted, a failed write, a written one. -/
theorem flushFile_cases (emulator : Emulator) (files : HostFiles) (unit : Fin 2)
    (outcome : WriteOutcome) :
    (∃ error, emulator.flushFile files unit outcome = (error, emulator, files) ∧
        (error = none ↔ ((emulator.blockMediaPaths unit).isSome = true →
          emulator.dirty unit = ∅))) ∨
      (∃ path error left, emulator.blockMediaPaths unit = some path ∧ emulator.dirty unit ≠ ∅ ∧
        emulator.flushFile files unit outcome = (some (.blockFlush (unitOf unit) error),
          emulator.setBus ({ emulator.backend.machine.bus with
            block := emulator.backend.machine.bus.block.markFlushFailed }.send
              [⟨.block, emulator.backend.machine.bus.block.completionIrqEnabled⟩]),
          Function.update files path left)) ∨
      ∃ path media, emulator.blockMediaPaths unit = some path ∧ emulator.dirty unit ≠ ∅ ∧
        mediaOf emulator.backend.machine unit = some media ∧
        emulator.flushFile files unit outcome = (none,
          emulator.setBus { emulator.backend.machine.bus with
            block := emulator.backend.machine.bus.block.setUnitState unit ⟨some media, ∅⟩ },
          Function.update files path media) := by
  unfold flushFile
  cases file : emulator.blockMediaPaths unit with
  | none => exact .inl ⟨none, rfl, iff_of_true rfl fun absent => (by cases absent)⟩
  | some path =>
    simp only [MmioBus.flushBlock, BlockDevice.flush, unitIndex_unitOf]
    by_cases clean : (emulator.backend.machine.bus.block.units unit).dirtySectors = ∅
    · rw [if_pos clean]
      refine .inl ⟨none, ?_, iff_of_true rfl fun _ => clean⟩
      rw [send_nil]
      rfl
    · rw [if_neg clean]
      cases present : (emulator.backend.machine.bus.block.units unit).media with
      | none =>
        refine .inl ⟨some (.invalidBlockMedia (unitOf unit)), ?_,
          iff_of_false (by simp) fun tidy => clean (tidy rfl)⟩
        rw [send_nil]
        rfl
      | some media =>
        cases outcome with
        | failed error left =>
          refine .inr (.inl ⟨path, error, left, rfl, clean, ?_⟩)
          simp only [writeFile, BlockDevice.signal, BlockDevice.irqPending,
            BlockDevice.markFlushFailed, Bool.and_true]
        | written =>
          refine .inr (.inr ⟨path, media, rfl, clean, present, ?_⟩)
          simp only [writeFile, send_nil]

theorem flushedOnly_flushFile (emulator : Emulator) (files : HostFiles) (unit : Fin 2)
    (outcome : WriteOutcome) : FlushedOnly emulator (emulator.flushFile files unit outcome).2.1 := by
  rcases emulator.flushFile_cases files unit outcome with ⟨error, same, _⟩ |
    ⟨path, error, left, _, _, failed⟩ | ⟨path, media, _, _, present, written⟩
  · rw [same]
    exact .refl emulator
  · rw [failed]
    exact ⟨rfl, rfl, .inr ⟨rfl, rfl, 1, rfl⟩⟩
  · rw [written]
    refine ⟨rfl, ?_, .inl ⟨rfl, rfl, rfl⟩⟩
    funext other
    by_cases this : other = unit
    · subst this
      simpa [mediaOf, setBus, UnicornBackend.setBus, BlockDevice.setUnitState] using present.symm
    · simp [mediaOf, setBus, UnicornBackend.setBus, BlockDevice.setUnitState, this]

theorem flushedOnly_flush (emulator : Emulator) (files : HostFiles) (write : Fin 2 → WriteOutcome) :
    FlushedOnly emulator (emulator.flush files write).2.1 :=
  (emulator.flushedOnly_flushFile files 0 (write 0)).trans (flushedOnly_flushFile _ _ 1 (write 1))

end Emulator

/-! ### What stays of the start -/

/-- Unless something is dirty, the media of the unit is what its file holds. -/
def Backed (unit : MediaUnit) (file : List U8) : Prop :=
  ∃ media, unit.media = some media ∧ media.length < 2 ^ 32 * sectorSize ∧
    (unit.dirtySectors = ∅ → media = file)

/-- What a machine still has in common with the one it started as, and its media with the files. -/
structure Rooted (source : Machine) (blockMediaPaths : Fin 2 → Option String) (files : HostFiles)
    (machine : Machine) : Prop where
  bootRom : machine.memory.bootRom = source.memory.bootRom
  systemRom : machine.memory.systemRom = source.memory.systemRom
  eventCapacity : machine.eventCapacity = source.eventCapacity
  backed : ∀ unit path, blockMediaPaths unit = some path →
    Backed (machine.bus.block.units unit) (files path)

namespace Rooted

variable {source machine after : Machine} {blockMediaPaths : Fin 2 → Option String}
  {files : HostFiles}

theorem congr (rooted : Rooted source blockMediaPaths files machine)
    (bootRom : after.memory.bootRom = machine.memory.bootRom)
    (systemRom : after.memory.systemRom = machine.memory.systemRom)
    (eventCapacity : after.eventCapacity = machine.eventCapacity)
    (units : after.bus.block.units = machine.bus.block.units) :
    Rooted source blockMediaPaths files after := by
  refine ⟨bootRom.trans rooted.bootRom, systemRom.trans rooted.systemRom,
    eventCapacity.trans rooted.eventCapacity, ?_⟩
  rw [units]
  exact rooted.backed

/-- No accepted access touches media. -/
theorem units_access {bus after : MmioBus} {transaction : MmioTransaction} {now : Nat}
    {value : Option U32} (accessed : bus.access transaction now = .ok (value, after)) :
    after.block.units = bus.block.units := by
  have wrote {register : MmioRegister} {value : U32} {after : MmioBus}
      (written : bus.writeRegister register value now = .ok after) :
      after.block.units = bus.block.units := by
    cases register with
    | interrupt register =>
      simp only [MmioBus.writeRegister, MmioBus.updateInterrupts] at written
      cases updated : bus.interrupts.update (.write register value) with
      | error error =>
        rw [updated] at written
        cases written
      | ok interrupts =>
        rw [updated] at written
        cases written
        rfl
    | dma register =>
      cases written
      exact BlockPersistence.writeRegister_units bus.block register value now
    | sysTick | rng | uart0 | uart1 | trace =>
      cases written
      rfl
  unfold MmioBus.access at accessed
  split at accessed
  · cases accessed
  · rename_i register _
    split at accessed
    · cases written : bus.writeRegister register transaction.value now with
      | error error =>
        rw [written] at accessed
        cases accessed
      | ok middle =>
        rw [written] at accessed
        cases accessed
        have same := wrote written
        exact same
    · cases accessed
      exact congrArg BlockDevice.units (bus.block_readRegister register)

theorem roms_writeRange {memory stored : PhysicalMemory} {address : PhysicalAddress}
    {bytes : List U8} (written : memory.writeRange address bytes = .ok stored) :
    stored.bootRom = memory.bootRom ∧ stored.systemRom = memory.systemRom := by
  obtain ⟨_, _, same⟩ := PhysicalMemory.regionSliceMut_inv written
  exact ⟨same.bootRom, same.systemRom⟩

/-- A transfer stores to RAM only. -/
theorem roms_execute {units units' : Fin 2 → MediaUnit} {request : Request}
    {memory stored : PhysicalMemory}
    (executed : BlockDevice.execute units request memory = .ok (units', stored)) :
    stored.bootRom = memory.bootRom ∧ stored.systemRom = memory.systemRom := by
  unfold BlockDevice.execute at executed
  obtain ⟨index, _, executed⟩ := bind_ok executed
  obtain ⟨range, _, executed⟩ := bind_ok executed
  simp only at executed
  split at executed
  · cases executed
  · split at executed
    · cases executed
    · split at executed
      · split at executed
        · cases executed
        · rename_i written
          cases executed
          exact roms_writeRange written
      · split at executed
        · cases executed
        · cases executed
          exact ⟨rfl, rfl⟩

theorem roms_advanceTo (device : BlockDevice) (now : Nat) (memory : PhysicalMemory) :
    (device.advanceTo now memory).2.1.bootRom = memory.bootRom ∧
      (device.advanceTo now memory).2.1.systemRom = memory.systemRom := by
  unfold BlockDevice.advanceTo
  split
  · exact ⟨rfl, rfl⟩
  · split
    · exact ⟨rfl, rfl⟩
    · rename_i request _ _
      cases executed : BlockDevice.execute device.units request memory with
      | error error => exact ⟨rfl, rfl⟩
      | ok result => exact roms_execute executed

/-- A transfer leaves the media what the file holds, or something dirty. -/
theorem backed_advanceTo {device : BlockDevice} {unit : Fin 2} {file : List U8}
    (backed : Backed (device.units unit) file) (now : Nat) (memory : PhysicalMemory) :
    Backed ((device.advanceTo now memory).1.units unit) file := by
  rcases BlockPersistence.advanceTo_units device now memory with
    same | ⟨request, _, _, units, stored, executed, replaced⟩
  · rwa [same]
  · rw [replaced]
    obtain ⟨index, _, media, present, fits, same | ⟨bytes, written, overwritten, length, rfl⟩⟩ :=
      BlockPersistence.execute_ok executed
    · rwa [same]
    · by_cases other : unit = index
      · subst other
        obtain ⟨held, attached, small, clean⟩ := backed
        cases attached.symm.trans present
        rw [Function.update_self]
        refine ⟨written, rfl, (length_overwrite overwritten).trans_lt small, fun empty => ?_⟩
        obtain ⟨before, none⟩ := Finset.union_eq_empty.mp empty
        have stop : (request.lba + request.sectorCount).toNat =
            request.lba.toNat + request.sectorCount.toNat := by
          rw [BitVec.toNat_add]
          unfold sectorSize at fits small
          omega
        rw [stop, Finset.Ico_eq_empty_iff] at none
        have nothing : bytes = [] := by
          rw [← List.length_eq_zero_iff, length]
          have zero : request.sectorCount.toNat = 0 := by omega
          rw [zero, Nat.zero_mul]
        rw [nothing, overwrite?, if_pos (by simpa using (by omega : _ ≤ media.length))] at overwritten
        have same : media = written := by simpa using overwritten
        exact same.symm.trans (clean before)
      · rwa [Function.update_of_ne other]

/-- Nothing the adapter does to the machine uproots it. -/
theorem step (rooted : Rooted source blockMediaPaths files machine) (next : MachineStep) :
    Rooted source blockMediaPaths files (machine.step next) := by
  cases next with
  | store address bytes =>
    cases written : machine.memory.writeRange address bytes with
    | error error =>
      simp only [Machine.step, written, Except.toOption, Option.getD_none]
      exact rooted
    | ok stored =>
      simp only [Machine.step, written, Except.toOption, Option.getD_some]
      obtain ⟨bootRom, systemRom⟩ := roms_writeRange written
      exact rooted.congr bootRom systemRom rfl rfl
  | translate address access userMode =>
    have roms : (machine.step (.translate address access userMode)).memory.bootRom =
        machine.memory.bootRom ∧ (machine.step (.translate address access userMode)).memory.systemRom =
          machine.memory.systemRom := by
      simp only [Machine.step, Mmu.translate]
      split
      · exact ⟨rfl, rfl⟩
      · split
        · rename_i walked
          exact UnicornBackend.roms_walk walked
        · exact ⟨rfl, rfl⟩
    exact rooted.congr roms.1 roms.2 rfl rfl
  | control mmu => exact rooted.congr rfl rfl rfl rfl
  | access transaction =>
    refine rooted.congr rfl rfl rfl ?_
    cases accessed : machine.bus.access transaction machine.ticks with
    | error error =>
      simp only [Machine.step, accessed, Except.toOption, Option.map_none, Option.getD_none]
    | ok result =>
      simp only [Machine.step, accessed, Except.toOption, Option.map_some, Option.getD_some]
      exact units_access accessed
  | claim => exact rooted.congr rfl rfl rfl rfl
  | tick =>
    have roms := roms_advanceTo machine.bus.block (machine.ticks + 1) machine.memory
    refine ⟨roms.1.trans rooted.bootRom, roms.2.trans rooted.systemRom, rooted.eventCapacity,
      fun unit path file => ?_⟩
    exact backed_advanceTo (rooted.backed unit path file) (machine.ticks + 1) machine.memory
  | retireTraces =>
    rw [Machine.step, Machine.retireTraces_eq]
    exact rooted.congr rfl rfl rfl rfl
  | record event =>
    simp only [Machine.step, Machine.recordEvent]
    split
    · exact rooted
    · exact rooted.congr rfl rfl rfl rfl

/-- Nor does any call of the adapter. -/
theorem call (rooted : Rooted source blockMediaPaths files machine)
    (leads : Leads Machine.step machine after) : Rooted source blockMediaPaths files after :=
  leads.invariant (fun _ next rooted => rooted.step next) rooted

end Rooted

/-! ### Flushes and rebuilds -/

/-- `canonicalize_block_media_paths` refuses two units with one file. -/
def DistinctFiles (blockMediaPaths : Fin 2 → Option String) : Prop :=
  ∀ first second path, blockMediaPaths first = some path → blockMediaPaths second = some path →
    first = second

section Methods

variable {source : Machine} {emulator : Emulator} {files : HostFiles} {unit : Fin 2}
  {backend : UnicornBackend} {host : HostCalls}

theorem rooted_flushFile (distinct : DistinctFiles emulator.blockMediaPaths)
    (rooted : Rooted source emulator.blockMediaPaths files emulator.backend.machine)
    (outcome : WriteOutcome) :
    Rooted source emulator.blockMediaPaths (emulator.flushFile files unit outcome).2.2
      (emulator.flushFile files unit outcome).2.1.backend.machine := by
  have elsewhere {path other : String} {unit' : Fin 2} (content : List U8)
      (file : emulator.blockMediaPaths unit = some path)
      (file' : emulator.blockMediaPaths unit' = some other) (different : unit' ≠ unit) :
      Function.update files path content other = files other := by
    refine Function.update_of_ne ?_ _ _
    rintro rfl
    exact different (distinct unit' unit other file' file)
  rcases emulator.flushFile_cases files unit outcome with ⟨error, same, _⟩ |
    ⟨path, error, left, file, dirty, failed⟩ | ⟨path, media, file, _, present, written⟩
  · rwa [same]
  · rw [failed]
    refine ⟨rooted.bootRom, rooted.systemRom, rooted.eventCapacity, fun unit' other file' => ?_⟩
    by_cases this : unit' = unit
    · subst this
      obtain ⟨media, present, small, _⟩ := rooted.backed unit' other file'
      exact ⟨media, present, small, fun clean => absurd clean dirty⟩
    · have kept := rooted.backed unit' other file'
      rw [← elsewhere left file file' this] at kept
      exact kept
  · rw [written]
    refine ⟨rooted.bootRom, rooted.systemRom, rooted.eventCapacity, fun unit' other file' => ?_⟩
    by_cases this : unit' = unit
    · subst this
      cases file.symm.trans file'
      obtain ⟨media', present', small, _⟩ := rooted.backed unit' path file'
      cases present.symm.trans present'
      refine ⟨media, ?_, small, fun _ => by simp⟩
      simp [Emulator.setBus, UnicornBackend.setBus, BlockDevice.setUnitState]
    · have kept := rooted.backed unit' other file'
      rw [← elsewhere media file file' this] at kept
      simpa [Emulator.setBus, UnicornBackend.setBus, BlockDevice.setUnitState, this] using kept

theorem paths_flushFile (emulator : Emulator) (files : HostFiles) (unit : Fin 2)
    (outcome : WriteOutcome) :
    (emulator.flushFile files unit outcome).2.1.blockMediaPaths = emulator.blockMediaPaths := by
  rw [(emulator.flushedOnly_flushFile files unit outcome).frame]
  rfl

theorem rooted_flush (distinct : DistinctFiles emulator.blockMediaPaths)
    (rooted : Rooted source emulator.blockMediaPaths files emulator.backend.machine)
    (write : Fin 2 → WriteOutcome) :
    Rooted source emulator.blockMediaPaths (emulator.flush files write).2.2
      (emulator.flush files write).2.1.backend.machine := by
  have first : Rooted source emulator.blockMediaPaths (emulator.flushFile files 0 (write 0)).2.2
      (emulator.flushFile files 0 (write 0)).2.1.backend.machine :=
    rooted_flushFile distinct rooted (write 0)
  have paths := paths_flushFile emulator files 0 (write 0)
  rw [← paths] at first distinct ⊢
  exact rooted_flushFile distinct first (write 1)

theorem flush_eq (emulator : Emulator) (files : HostFiles) (write : Fin 2 → WriteOutcome) :
    emulator.flush files write =
      ((emulator.flushFile files 0 (write 0)).1.or
        ((emulator.flushFile files 0 (write 0)).2.1.flushFile
          (emulator.flushFile files 0 (write 0)).2.2 1 (write 1)).1,
        ((emulator.flushFile files 0 (write 0)).2.1.flushFile
          (emulator.flushFile files 0 (write 0)).2.2 1 (write 1)).2) := rfl

/-- A flush without an error leaves every unit that has a file clean. -/
theorem clean_flush {write : Fin 2 → WriteOutcome} (flushed : (emulator.flush files write).1 = none)
    (file : (emulator.blockMediaPaths unit).isSome = true) :
    (emulator.flush files write).2.1.dirty unit = ∅ := by
  have one {emulator : Emulator} {files : HostFiles} {unit : Fin 2} {outcome : WriteOutcome}
      (flushed : (emulator.flushFile files unit outcome).1 = none) (other : Fin 2)
      (tidy : if other = unit then (emulator.blockMediaPaths unit).isSome = true
        else emulator.dirty other = ∅) :
      (emulator.flushFile files unit outcome).2.1.dirty other = ∅ := by
    rcases emulator.flushFile_cases files unit outcome with ⟨error, same, idle⟩ |
      ⟨path, error, left, _, _, failed⟩ | ⟨path, media, _, _, _, written⟩
    · rw [same] at flushed ⊢
      split at tidy
      · rename_i this
        exact this ▸ idle.mp flushed tidy
      · exact tidy
    · rw [failed] at flushed
      cases flushed
    · rw [written]
      split at tidy
      · rename_i this
        simp [Emulator.dirty, Emulator.setBus, UnicornBackend.setBus, BlockDevice.setUnitState, this]
      · rename_i this
        simpa [Emulator.dirty, Emulator.setBus, UnicornBackend.setBus, BlockDevice.setUnitState,
          this] using tidy
  have paths := paths_flushFile emulator files 0 (write 0)
  rw [flush_eq] at flushed ⊢
  obtain ⟨first, second⟩ := Option.or_eq_none_iff.mp flushed
  have either : unit = 0 ∨ unit = 1 := by omega
  rcases either with rfl | rfl
  · exact one second 0 (by simpa using one first 0 (by simpa using file))
  · exact one second 1 (by simpa [paths] using file)

/-- A flush with nothing dirty does nothing. -/
theorem flush_idle (clean : ∀ unit, (emulator.blockMediaPaths unit).isSome = true →
      emulator.dirty unit = ∅) (write : Fin 2 → WriteOutcome) :
    emulator.flush files write = (none, emulator, files) := by
  have one (unit : Fin 2) : emulator.flushFile files unit (write unit) = (none, emulator, files) := by
    rcases emulator.flushFile_cases files unit (write unit) with ⟨error, same, idle⟩ |
      ⟨path, _, _, file, dirty, _⟩ | ⟨path, _, file, dirty, _, _⟩
    · rw [same, idle.mpr (clean unit)]
    · exact absurd (clean unit (by rw [file]; rfl)) dirty
    · exact absurd (clean unit (by rw [file]; rfl)) dirty
  rw [flush_eq, one 0]
  simp only [one 1, Option.or_none]

theorem roms_loadRam {memory stored : PhysicalMemory}
    {initialRamWrites : List (PhysicalAddress × List U8)}
    (loaded : loadRam memory initialRamWrites = .ok stored) :
    stored.bootRom = memory.bootRom ∧ stored.systemRom = memory.systemRom := by
  have kept (held : PhysicalMemory) (write : PhysicalAddress × List U8) (after : PhysicalMemory)
      (same : held.bootRom = memory.bootRom ∧ held.systemRom = memory.systemRom)
      (wrote : held.writeRange write.1 write.2 = .ok after) :
      after.bootRom = memory.bootRom ∧ after.systemRom = memory.systemRom := by
    obtain ⟨bootRom, systemRom⟩ := Rooted.roms_writeRange wrote
    exact ⟨bootRom.trans same.1, systemRom.trans same.2⟩
  exact foldlM_invariant kept initialRamWrites ⟨rfl, rfl⟩ loaded

theorem newBackend_ok {machine : Machine} {outcomes : HostOutcomes}
    (built : Emulator.newBackend machine outcomes = .ok backend) : backend = .new machine := by
  unfold Emulator.newBackend at built
  cases created : outcomes.newBackend with
  | error error => simp [created, Except.map, Except.mapError] at built
  | ok _ =>
    simp only [created, Except.map, Except.mapError] at built
    cases built
    rfl

/-- Rebuilding over clean media that the files hold builds a blank machine around that media. -/
theorem blank_rebuild (rooted : Rooted source emulator.blockMediaPaths files emulator.backend.machine)
    (clean : ∀ unit, (emulator.blockMediaPaths unit).isSome = true → emulator.dirty unit = ∅)
    (rebuilt : emulator.rebuild (host.outcomes emulator.blockMediaPaths files) = .ok backend) :
    backend = .new backend.machine ∧
      ∃ memory, loadRam { source.memory with ram := fun _ => 0 } emulator.initialRamWrites =
          .ok memory ∧
        drained backend.machine =
          blank memory source.eventCapacity (mediaOf emulator.backend.machine) := by
  obtain ⟨clone, cloned, rebuilt⟩ := bind_ok rebuilt
  obtain ⟨machine, configured, rebuilt⟩ := bind_ok rebuilt
  have fresh := blank_resetClone (mapError_ok cloned)
  obtain ⟨reads, memory, loaded, whole⟩ := blank_configured configured
  cases newBackend_ok rebuilt
  obtain ⟨kept, capacity, units⟩ := blank_fields fresh
  have erased : ({ clone.memory with ram := fun _ => 0 } : PhysicalMemory) =
      { source.memory with ram := fun _ => 0 } := by
    rw [kept]
    simp only [rooted.bootRom, rooted.systemRom]
  have cloneMedia (unit : Fin 2) : mediaOf clone unit = mediaOf emulator.backend.machine unit := by
    rw [mediaOf, units]
  rw [erased] at loaded
  rw [capacity, rooted.eventCapacity] at whole
  refine ⟨rfl, memory, loaded, whole.trans (congrArg (blank memory source.eventCapacity) ?_)⟩
  funext unit
  rw [readMedia, cloneMedia]
  cases file : emulator.blockMediaPaths unit with
  | none => rfl
  | some path =>
    obtain ⟨bytes, content⟩ := reads unit (by rw [file]; rfl)
    obtain ⟨media, present, _, same⟩ := rooted.backed unit path file
    have held : media = files path := same (clean unit (by rw [file]; rfl))
    have given : bytes = files path := by
      simp only [HostCalls.outcomes, file] at content
      split at content
      · cases content
      · cases content
        rfl
    rw [content, given, ← held]
    exact present.symm

/-- A machine drained to a blank one around backed media is rooted. -/
theorem rooted_blank {machine : Machine} {memory : PhysicalMemory}
    {blockMediaPaths : Fin 2 → Option String} {media : Fin 2 → Option (List U8)}
    {initialRamWrites : List (PhysicalAddress × List U8)}
    (loaded : loadRam { source.memory with ram := fun _ => 0 } initialRamWrites = .ok memory)
    (fresh : drained machine = blank memory source.eventCapacity media)
    (backed : ∀ unit path, blockMediaPaths unit = some path → Backed ⟨media unit, ∅⟩ (files path)) :
    Rooted source blockMediaPaths files machine := by
  obtain ⟨same, capacity, units⟩ := blank_fields fresh
  obtain ⟨bootRom, systemRom⟩ := roms_loadRam loaded
  refine ⟨by rw [same, bootRom], by rw [same, systemRom], capacity, fun unit path file => ?_⟩
  rw [units]
  exact backed unit path file

/-- How a reset ends: refused over a flushed emulator, or with the rebuilt backend. -/
theorem reset_cases (emulator : Emulator) (files : HostFiles) (host : HostCalls) :
    (∃ error, emulator.reset files host = (some error, (emulator.flush files host.write).2)) ∨
      (emulator.flush files host.write).1 = none ∧
        ∃ backend, (emulator.flush files host.write).2.1.rebuild
          (host.outcomes (emulator.flush files host.write).2.1.blockMediaPaths
            (emulator.flush files host.write).2.2) = .ok backend ∧
          ((host.programCounter ≠ .ok () ∧ ∃ error, emulator.reset files host = (some error,
              { (emulator.flush files host.write).2.1 with backend },
              (emulator.flush files host.write).2.2)) ∨
            emulator.reset files host = (none,
              { (emulator.flush files host.write).2.1 with
                backend := backend.setRegister .pc (emulator.flush files host.write).2.1.entry },
              (emulator.flush files host.write).2.2)) := by
  unfold Emulator.reset
  generalize emulator.flush files host.write = flushed
  obtain ⟨error, emulator, files⟩ := flushed
  cases error with
  | some error => exact .inl ⟨.core error, rfl⟩
  | none =>
    simp only
    cases rebuilt : emulator.rebuild (host.outcomes emulator.blockMediaPaths files) with
    | error error => exact .inl ⟨error, rfl⟩
    | ok backend =>
      refine .inr ⟨trivial, backend, rfl, ?_⟩
      cases positioned : host.programCounter with
      | error error =>
        simp [Emulator.setProgramCounter, HostCalls.outcomes, positioned, Except.map, Except.mapError]
      | ok done =>
        simp [Emulator.setProgramCounter, HostCalls.outcomes, positioned, Except.map, Except.mapError]

end Methods

/-- An emulator that still is what it was created as, but for its backend, over the files it keeps. -/
structure Grounded (fresh : Emulator) (hosted : Hosted) : Prop where
  same : { hosted.emulator with backend := fresh.backend } = fresh
  rooted : Rooted fresh.backend.machine fresh.blockMediaPaths hosted.files
    hosted.emulator.backend.machine

namespace Grounded

variable {fresh : Emulator} {hosted : Hosted}

theorem paths (grounded : Grounded fresh hosted) :
    hosted.emulator.blockMediaPaths = fresh.blockMediaPaths := by
  have same := congrArg Emulator.blockMediaPaths grounded.same
  exact same

theorem writes (grounded : Grounded fresh hosted) :
    hosted.emulator.initialRamWrites = fresh.initialRamWrites := by
  have same := congrArg Emulator.initialRamWrites grounded.same
  exact same

theorem flush (grounded : Grounded fresh hosted) (distinct : DistinctFiles fresh.blockMediaPaths)
    (write : Fin 2 → WriteOutcome) :
    Grounded fresh ⟨(hosted.emulator.flush hosted.files write).2.1,
      (hosted.emulator.flush hosted.files write).2.2⟩ := by
  have frame := (hosted.emulator.flushedOnly_flush hosted.files write).frame
  have rooted := grounded.rooted
  rw [← grounded.paths] at rooted distinct
  refine ⟨?_, grounded.paths ▸ rooted_flush distinct rooted write⟩
  rw [frame]
  exact grounded.same

/-- After a flush without an error every unit that has a file is clean. -/
theorem flushed (grounded : Grounded fresh hosted) (distinct : DistinctFiles fresh.blockMediaPaths)
    {write : Fin 2 → WriteOutcome} {after : Emulator × HostFiles}
    (flush : hosted.emulator.flush hosted.files write = (none, after)) :
    Grounded fresh ⟨after.1, after.2⟩ ∧
      ∀ unit, (after.1.blockMediaPaths unit).isSome = true → after.1.dirty unit = ∅ := by
  have kept := grounded.flush distinct write
  rw [flush] at kept
  refine ⟨kept, fun unit file => ?_⟩
  have done : (hosted.emulator.flush hosted.files write).1 = none := by rw [flush]
  have file' : (hosted.emulator.blockMediaPaths unit).isSome = true := by
    rwa [grounded.paths, ← kept.paths]
  have clean := clean_flush done file'
  rwa [flush] at clean

/-- The rebuilt backend of a reset holds a blank machine around the media of the moment. -/
theorem rebuild (grounded : Grounded fresh hosted)
    (clean : ∀ unit, (hosted.emulator.blockMediaPaths unit).isSome = true →
      hosted.emulator.dirty unit = ∅) {host : HostCalls} {backend : UnicornBackend}
    (rebuilt : hosted.emulator.rebuild (host.outcomes hosted.emulator.blockMediaPaths hosted.files) =
      .ok backend) :
    backend = .new backend.machine ∧
      (∃ memory, loadRam { fresh.backend.machine.memory with ram := fun _ => 0 }
          fresh.initialRamWrites = .ok memory ∧
        drained backend.machine = blank memory fresh.backend.machine.eventCapacity
          (mediaOf hosted.emulator.backend.machine)) ∧
      Grounded fresh { hosted with emulator := { hosted.emulator with backend } } := by
  have rooted := grounded.rooted
  rw [← grounded.paths] at rooted
  obtain ⟨new, memory, loaded, blank⟩ := blank_rebuild rooted clean rebuilt
  rw [grounded.writes] at loaded
  refine ⟨new, ⟨memory, loaded, blank⟩, grounded.same,
    rooted_blank loaded blank fun unit path file => ?_⟩
  rw [← grounded.paths] at file
  obtain ⟨media, present, small, same⟩ := rooted.backed unit path file
  exact ⟨media, present, small, fun _ => same (clean unit (by rw [file]; rfl))⟩

theorem reset (grounded : Grounded fresh hosted) (distinct : DistinctFiles fresh.blockMediaPaths)
    (host : HostCalls) : Grounded fresh (hosted.reset host).2 := by
  have kept := grounded.flush distinct host.write
  have outcomes := reset_cases hosted.emulator hosted.files host
  generalize flush : hosted.emulator.flush hosted.files host.write = flushed at kept outcomes
  unfold Hosted.reset
  rcases outcomes with ⟨error, refused⟩ | ⟨done, backend, rebuilt, ⟨_, error, failed⟩ | replaced⟩
  · rw [refused]
    exact kept
  · have clean := (grounded.flushed distinct (flush.trans (Prod.ext done rfl))).2
    rw [failed]
    exact (kept.rebuild clean rebuilt).2.2
  · have clean := (grounded.flushed distinct (flush.trans (Prod.ext done rfl))).2
    have placed := (kept.rebuild clean rebuilt).2.2
    rw [replaced]
    exact ⟨placed.same, placed.rooted⟩

/-- What leaves ROMs, event capacity and media alone keeps the emulator grounded. -/
theorem congr (grounded : Grounded fresh hosted) {emulator : Emulator}
    (same : { emulator with backend := fresh.backend } =
      { hosted.emulator with backend := fresh.backend })
    (bootRom : emulator.backend.machine.memory.bootRom =
      hosted.emulator.backend.machine.memory.bootRom)
    (systemRom : emulator.backend.machine.memory.systemRom =
      hosted.emulator.backend.machine.memory.systemRom)
    (eventCapacity : emulator.backend.machine.eventCapacity =
      hosted.emulator.backend.machine.eventCapacity)
    (units : emulator.backend.machine.bus.block.units =
      hosted.emulator.backend.machine.bus.block.units) :
    Grounded fresh { hosted with emulator } := by
  exact ⟨same.trans grounded.same, grounded.rooted.congr bootRom systemRom eventCapacity units⟩

theorem deliverUart (grounded : Grounded fresh hosted) (port : UartPort) (bytes : List U8) :
    Grounded fresh { hosted with emulator := hosted.emulator.deliverUart port bytes } := by
  obtain ⟨emulator, files⟩ := hosted
  induction bytes generalizing emulator with
  | nil => exact grounded
  | cons byte bytes ih =>
    cases port with
    | uart0 | uart1 => exact ih _ (grounded.congr rfl rfl rfl rfl rfl)

/-- Nothing the service does with its emulator uproots it. -/
theorem step (grounded : Grounded fresh hosted) (distinct : DistinctFiles fresh.blockMediaPaths)
    (next : EmulatorStep) : Grounded fresh (hosted.step next) := by
  cases next with
  | runBatch engine instructionBudget tickDeadline =>
    exact ⟨grounded.same, grounded.rooted.call
      (hosted.emulator.backend.onward_runWithTickDeadline engine _ _ instructionBudget tickDeadline)⟩
  | resumeFromBreakpoint address host =>
    rw [Hosted.step, Emulator.resumeFromBreakpoint]
    simp only [HostCalls.outcomes, Emulator.setProgramCounter]
    split
    · cases host.programCounter with
      | error error => exact grounded
      | ok done => exact grounded.congr rfl rfl rfl rfl rfl
    · cases host.programCounter with
      | error error => exact grounded
      | ok done => exact grounded
  | reset host => exact grounded.reset distinct host
  | flush write => exact grounded.flush distinct write
  | drainUart inbox => exact (grounded.deliverUart .uart0 _).deliverUart .uart1 _
  | deliverUart port bytes => exact grounded.deliverUart port bytes
  | status => exact grounded.congr rfl rfl rfl rfl rfl
  | inspect request inspector =>
    have inspected := Emulator.inspected_inspectBackend hosted.emulator.backend inspector request
    exact grounded.congr rfl inspected.bootRom inspected.systemRom inspected.eventCapacity
      (congrArg BlockDevice.units inspected.block)

end Grounded

/-! ### Resetting again -/

/-- A clone depends on the ROMs, the event capacity and the media only. -/
theorem resetClone_congr {first second : Machine}
    (bootRom : first.memory.bootRom = second.memory.bootRom)
    (systemRom : first.memory.systemRom = second.memory.systemRom)
    (eventCapacity : first.eventCapacity = second.eventCapacity)
    (media : mediaOf first = mediaOf second) : first.resetClone = second.resetClone := by
  have asked (unit : U32) : first.bus.block.mediaClone unit = second.bus.block.mediaClone unit :=
    congrArg (fun media => (BlockDevice.unitIndex unit).map media) media
  simp only [Machine.resetClone, asked, bootRom, systemRom, eventCapacity]

/-- The reads of units without a file do not matter. -/
theorem configuredMachine_congr {blockMediaPaths : Fin 2 → Option String}
    {first second : Fin 2 → Except IoError (List U8)}
    (same : ∀ unit, (blockMediaPaths unit).isSome = true → first unit = second unit)
    (initialRamWrites : List (PhysicalAddress × List U8)) (source : Machine) :
    configuredMachine blockMediaPaths initialRamWrites source first =
      configuredMachine blockMediaPaths initialRamWrites source second := by
  unfold configuredMachine
  congr 1
  funext clone
  congr 1
  congr 1
  funext machine unit
  cases file : blockMediaPaths unit with
  | none => rfl
  | some path => rw [same unit (by rw [file]; rfl)]

/-- Two rebuilds from equal clones over the same files build the same backend. -/
theorem rebuild_agree {first second : Emulator} {files : HostFiles} {host again : HostCalls}
    {backend backend' : UnicornBackend}
    (clones : first.backend.machine.resetClone = second.backend.machine.resetClone)
    (paths : first.blockMediaPaths = second.blockMediaPaths)
    (writes : first.initialRamWrites = second.initialRamWrites)
    (rebuilt : first.rebuild (host.outcomes first.blockMediaPaths files) = .ok backend)
    (rebuilt' : second.rebuild (again.outcomes second.blockMediaPaths files) = .ok backend') :
    backend = backend' := by
  obtain ⟨clone, cloned, rebuilt⟩ := bind_ok rebuilt
  obtain ⟨machine, configured, rebuilt⟩ := bind_ok rebuilt
  obtain ⟨clone', cloned', rebuilt'⟩ := bind_ok rebuilt'
  obtain ⟨machine', configured', rebuilt'⟩ := bind_ok rebuilt'
  cases newBackend_ok rebuilt
  cases newBackend_ok rebuilt'
  rw [clones, cloned'] at cloned
  cases cloned
  rw [← paths, ← writes] at configured'
  have content {calls : HostCalls} {unit : Fin 2} {bytes : List U8}
      (read : (calls.outcomes first.blockMediaPaths files).read unit = .ok bytes) :
      bytes = (first.blockMediaPaths unit).elim [] files := by
    simp only [HostCalls.outcomes] at read
    split at read
    · cases read
    · cases read
      rfl
  have agree (unit : Fin 2) (file : (first.blockMediaPaths unit).isSome = true) :
      (host.outcomes first.blockMediaPaths files).read unit =
        (again.outcomes first.blockMediaPaths files).read unit := by
    obtain ⟨bytes, read⟩ := (blank_configured configured).1 unit file
    obtain ⟨bytes', read'⟩ := (blank_configured configured').1 unit file
    rw [read, read', content read, content read']
  rw [configuredMachine_congr agree, configured'] at configured
  cases configured
  rfl

/-- A reset that succeeds has flushed, rebuilt and placed the program counter. -/
theorem reset_done {hosted : Hosted} {host : HostCalls} (done : (hosted.reset host).1 = none) :
    ∃ flushed, hosted.emulator.flush hosted.files host.write = (none, flushed) ∧
      ∃ backend, flushed.1.rebuild (host.outcomes flushed.1.blockMediaPaths flushed.2) =
          .ok backend ∧
        (hosted.reset host).2 =
          ⟨{ flushed.1 with backend := backend.setRegister .pc flushed.1.entry }, flushed.2⟩ := by
  generalize flush : hosted.emulator.flush hosted.files host.write = flushed
  have cases := reset_cases hosted.emulator hosted.files host
  rw [flush] at cases
  unfold Hosted.reset at done ⊢
  rcases cases with ⟨error, refused⟩ | ⟨clean, backend, rebuilt, ⟨_, error, failed⟩ | replaced⟩
  · rw [refused] at done
    cases done
  · rw [failed] at done
    cases done
  · rw [replaced]
    exact ⟨flushed.2, Prod.ext clean rfl, backend, rebuilt, rfl⟩

/-- Resetting a freshly reset emulator changes nothing. -/
theorem reset_again {fresh : Emulator} {hosted : Hosted} (grounded : Grounded fresh hosted)
    (distinct : DistinctFiles fresh.blockMediaPaths) {host again : HostCalls}
    (done : (hosted.reset host).1 = none) (positioned : again.programCounter = .ok ()) :
    ((hosted.reset host).2.reset again).2 = (hosted.reset host).2 := by
  obtain ⟨flushed, flush, backend, rebuilt, replaced⟩ := reset_done done
  obtain ⟨before, clean⟩ := grounded.flushed distinct flush
  obtain ⟨_, ⟨memory, _, blank⟩, after⟩ := before.rebuild clean rebuilt
  obtain ⟨_, _, units⟩ := blank_fields blank
  have idle : (hosted.reset host).2.emulator.flush (hosted.reset host).2.files again.write =
      (none, (hosted.reset host).2.emulator, (hosted.reset host).2.files) := by
    refine flush_idle (fun unit _ => ?_) again.write
    rw [replaced]
    change (backend.machine.bus.block.units unit).dirtySectors = ∅
    rw [units]
  have outcomes := reset_cases (hosted.reset host).2.emulator (hosted.reset host).2.files again
  rw [idle] at outcomes
  rw [Hosted.reset.eq_def (hosted.reset host).2 again]
  rcases outcomes with ⟨error, refused⟩ | ⟨_, backend', rebuilt', ⟨stuck, _⟩ | replaced'⟩
  · rw [refused]
  · exact absurd positioned stuck
  · have clones : flushed.1.backend.machine.resetClone = backend.machine.resetClone := by
      refine resetClone_congr (before.rooted.bootRom.trans after.rooted.bootRom.symm)
        (before.rooted.systemRom.trans after.rooted.systemRom.symm)
        (before.rooted.eventCapacity.trans after.rooted.eventCapacity.symm) ?_
      funext unit
      rw [mediaOf, mediaOf, units]
      rfl
    rw [replaced] at rebuilt'
    have same : backend = backend' := by
      refine rebuild_agree ?_ ?_ ?_ rebuilt rebuilt'
      · exact clones
      · rfl
      · rfl
    rw [replaced', replaced, same]

/-! ### The reset of the service -/

namespace Service

theorem flushUnit_flushFile (service : Service) (files : HostFiles) (unit : Fin 2)
    {host : HostOutcomes} {outcome : WriteOutcome} (same : host.write unit = outcome.result) :
    (service.flushUnit unit host).1 = (service.emulator.flushFile files unit outcome).1 ∧
      (service.flushUnit unit host).2.emulator =
        (service.emulator.flushFile files unit outcome).2.1 := by
  unfold Service.flushUnit Emulator.flushFile
  cases file : service.emulator.blockMediaPaths unit with
  | none => exact ⟨rfl, rfl⟩
  | some path =>
    simp only [Emulator.flushUnit, same, MmioBus.flushBlock, BlockDevice.flush,
      Emulator.unitIndex_unitOf]
    by_cases clean : (service.emulator.backend.machine.bus.block.units unit).dirtySectors = ∅
    · rw [if_pos clean, if_pos clean]
      exact ⟨rfl, rfl⟩
    · rw [if_neg clean, if_neg clean]
      cases (service.emulator.backend.machine.bus.block.units unit).media with
      | none => exact ⟨rfl, rfl⟩
      | some media =>
        cases outcome with
        | written => exact ⟨rfl, rfl⟩
        | failed error left => exact ⟨rfl, rfl⟩

theorem flush_flush (service : Service) (files : HostFiles) {host : HostOutcomes}
    {write : Fin 2 → WriteOutcome} (same : ∀ unit, host.write unit = (write unit).result) :
    (service.flush host).1 = (service.emulator.flush files write).1.map .core ∧
      (service.flush host).2.emulator = (service.emulator.flush files write).2.1 := by
  obtain ⟨first, after⟩ := service.flushUnit_flushFile files 0 (same 0)
  obtain ⟨second, last⟩ := (service.flushUnit 0 host).2.flushUnit_flushFile
    (service.emulator.flushFile files 0 (write 0)).2.2 1 (same 1)
  rw [after] at second last
  rw [flush_eq]
  refine ⟨?_, last⟩
  change ((service.flushUnit 0 host).1.or ((service.flushUnit 0 host).2.flushUnit 1 host).1).map
    RuntimeError.core = _
  rw [first, second]

/-- The service resets its emulator as the emulator resets itself. -/
theorem resetEmulator_reset (service : Service) (files : HostFiles) (host : HostCalls) :
    (service.resetEmulator (host.outcomes service.emulator.blockMediaPaths
        (service.emulator.flush files host.write).2.2)).1 =
        (service.emulator.reset files host).1 ∧
      (service.resetEmulator (host.outcomes service.emulator.blockMediaPaths
        (service.emulator.flush files host.write).2.2)).2.emulator =
        (service.emulator.reset files host).2.1 := by
  have paths : (service.emulator.flush files host.write).2.1.blockMediaPaths =
      service.emulator.blockMediaPaths := by
    rw [(service.emulator.flushedOnly_flush files host.write).frame]
    rfl
  generalize given : host.outcomes service.emulator.blockMediaPaths
    (service.emulator.flush files host.write).2.2 = outcomes
  have same (unit : Fin 2) : outcomes.write unit = (host.write unit).result := by
    rw [← given]
    rfl
  obtain ⟨error, emulator⟩ := service.flush_flush files same
  unfold Service.resetEmulator Emulator.reset
  generalize service.flush outcomes = flushed at error emulator
  generalize service.emulator.flush files host.write = flushed' at *
  obtain ⟨error', emulator', files'⟩ := flushed'
  obtain ⟨error'', service'⟩ := flushed
  simp only at error emulator paths given
  subst error emulator
  subst given
  rw [← paths]
  cases error' with
  | some error => exact ⟨rfl, rfl⟩
  | none =>
    cases rebuilt : service'.emulator.rebuild
        (host.outcomes service'.emulator.blockMediaPaths files') with
    | error error =>
      have built := rebuilt
      unfold Emulator.rebuild at built
      simp only [Option.map_none, rebuilt, built]
      exact ⟨trivial, trivial⟩
    | ok backend =>
      have built := rebuilt
      unfold Emulator.rebuild at built
      simp only [Option.map_none, rebuilt, built]
      cases Emulator.setProgramCounter backend service'.emulator.entry
          (host.outcomes service'.emulator.blockMediaPaths files') with
      | error error => exact ⟨rfl, rfl⟩
      | ok backend => exact ⟨rfl, rfl⟩

end Service

/-! ### A fresh start, and every reset after it -/

variable {config : RuntimeConfig} {files : HostFiles} {start : HostCalls} {fresh : Emulator}

theorem setProgramCounter_ok {backend placed : UnicornBackend} {value : U32}
    {outcomes : HostOutcomes}
    (positioned : Emulator.setProgramCounter backend value outcomes = .ok placed) :
    placed = backend.setRegister .pc value := by
  unfold Emulator.setProgramCounter at positioned
  cases outcome : outcomes.programCounter with
  | error error => simp [outcome, Except.map, Except.mapError] at positioned
  | ok _ =>
    simp only [outcome, Except.map, Except.mapError] at positioned
    cases positioned
    rfl

/-- What `Emulator::new` builds. -/
structure Built (config : RuntimeConfig) (files : HostFiles) (fresh : Emulator) : Prop where
  paths : fresh.blockMediaPaths = config.blockMediaPaths
  writes : fresh.initialRamWrites = config.initialRamWrites
  backend : fresh.backend =
    (UnicornBackend.new fresh.backend.machine).setRegister .pc config.entry
  entry : fresh.entry = config.entry
  blank : ∃ memory, loadRam { config.machine.memory with ram := fun _ => 0 }
      config.initialRamWrites = .ok memory ∧
    drained fresh.backend.machine =
      blank memory config.machine.eventCapacity (mediaOf fresh.backend.machine)
  media : ∀ unit path, config.blockMediaPaths unit = some path →
    mediaOf fresh.backend.machine unit = some (files path)

theorem built_new
    (created : Emulator.new config (start.outcomes config.blockMediaPaths files) = .ok fresh) :
    Built config files fresh := by
  obtain ⟨machine, configured, created⟩ := bind_ok created
  obtain ⟨backend, built, created⟩ := bind_ok created
  obtain ⟨placed, positioned, created⟩ := bind_ok created
  cases created
  cases newBackend_ok built
  cases setProgramCounter_ok positioned
  obtain ⟨reads, memory, loaded, bare⟩ := blank_configured configured
  have media : mediaOf machine = fun unit =>
      (readMedia config.blockMediaPaths
        (start.outcomes config.blockMediaPaths files).read unit).or (mediaOf config.machine unit) := by
    funext unit
    rw [mediaOf, (blank_fields bare).2.2]
  refine ⟨rfl, rfl, rfl, rfl, ⟨memory, loaded, ?_⟩, fun unit path file => ?_⟩
  · change drained machine = blank memory config.machine.eventCapacity (mediaOf machine)
    rw [media]
    exact bare
  · change mediaOf machine unit = some (files path)
    obtain ⟨bytes, read⟩ := reads unit (by rw [file]; rfl)
    have content : bytes = files path := by
      simp only [HostCalls.outcomes, file] at read
      split at read
      · cases read
      · cases read
        rfl
    simp only [media, readMedia, file, Option.bind_some, read, content]
    rfl

/-- A new emulator is grounded in itself. -/
theorem grounded_new (built : Built config files fresh)
    (small : ∀ unit path, config.blockMediaPaths unit = some path →
      (files path).length < 2 ^ 32 * sectorSize) : Grounded fresh ⟨fresh, files⟩ := by
  refine ⟨rfl, rfl, rfl, rfl, fun unit path file => ?_⟩
  rw [built.paths] at file
  exact ⟨files path, built.media unit path file, small unit path file, fun _ => rfl⟩

theorem grounded_run (grounded : Grounded fresh ⟨fresh, files⟩)
    (distinct : DistinctFiles fresh.blockMediaPaths) {reached : Hosted}
    (reachable : Leads Hosted.step ⟨fresh, files⟩ reached) : Grounded fresh reached :=
  reachable.invariant (fun _ next held => held.step distinct next) grounded

/-- A reset of an emulator that any run has led to. Refused, it leaves everything but what its
flush changed. Done, it leaves the machine of the fresh start around the media of the moment, and
doing it again changes nothing. -/
theorem reset_equals_fresh_start (config : RuntimeConfig) (files : HostFiles) (start : HostCalls)
    (fresh : Emulator)
    (created : Emulator.new config (start.outcomes config.blockMediaPaths files) = .ok fresh)
    (distinct : DistinctFiles config.blockMediaPaths)
    (small : ∀ unit path, config.blockMediaPaths unit = some path →
      (files path).length < 2 ^ 32 * sectorSize)
    (reached : Hosted) (reachable : Leads Hosted.step ⟨fresh, files⟩ reached) (host : HostCalls)
    (positioned : host.programCounter = .ok ()) :
    ((reached.reset host).1 ≠ none →
      FlushedOnly reached.emulator (reached.reset host).2.emulator) ∧
    ((reached.reset host).1 = none →
      (∃ memory, loadRam { config.machine.memory with ram := fun _ => 0 }
          config.initialRamWrites = .ok memory ∧
        drained fresh.backend.machine =
          blank memory config.machine.eventCapacity (mediaOf fresh.backend.machine) ∧
        drained (reached.reset host).2.emulator.backend.machine =
          blank memory config.machine.eventCapacity (mediaOf reached.emulator.backend.machine)) ∧
      fresh.backend = (UnicornBackend.new fresh.backend.machine).setRegister .pc config.entry ∧
      (reached.reset host).2.emulator = { fresh with
        backend := { fresh.backend with
          machine := (reached.reset host).2.emulator.backend.machine } } ∧
      ∀ again : HostCalls, again.programCounter = .ok () →
        ((reached.reset host).2.reset again).2 = (reached.reset host).2) := by
  have built := built_new created
  rw [← built.paths] at distinct
  have grounded := grounded_run (grounded_new built small) distinct reachable
  refine ⟨fun failed => ?_, fun done => ?_⟩
  · have flushed := reached.emulator.flushedOnly_flush reached.files host.write
    unfold Hosted.reset at failed ⊢
    rcases reset_cases reached.emulator reached.files host with ⟨error, refused⟩ |
      ⟨_, backend, _, ⟨stuck, _⟩ | replaced⟩
    · rw [refused]
      exact flushed
    · exact absurd positioned stuck
    · rw [replaced] at failed
      exact absurd rfl failed
  · obtain ⟨memory, loaded, bare⟩ := built.blank
    obtain ⟨flushed, flush, backend, rebuilt, replaced⟩ := reset_done done
    obtain ⟨before, clean⟩ := grounded.flushed distinct flush
    obtain ⟨new, ⟨memory', loaded', bare'⟩, _⟩ := before.rebuild clean rebuilt
    have kept := (reached.emulator.flushedOnly_flush reached.files host.write).media
    rw [flush] at kept
    obtain ⟨freshMemory, capacity, _⟩ := blank_fields bare
    obtain ⟨bootRom, systemRom⟩ := roms_loadRam loaded
    have roms : ({ fresh.backend.machine.memory with ram := fun _ => 0 } : PhysicalMemory) =
        { config.machine.memory with ram := fun _ => 0 } := by
      rw [freshMemory]
      simp only [bootRom, systemRom]
    rw [roms, built.writes, loaded] at loaded'
    cases loaded'
    rw [kept, capacity] at bare'
    refine ⟨⟨memory, loaded, bare, ?_⟩, built.backend, ?_, fun again placed =>
      reset_again grounded distinct done placed⟩
    · rw [replaced]
      exact bare'
    · have entry := congrArg Emulator.entry before.same
      have placed : backend.setRegister .pc flushed.1.entry =
          { fresh.backend with machine := backend.machine } := by
        calc backend.setRegister .pc flushed.1.entry
            = (UnicornBackend.new backend.machine).setRegister .pc config.entry := by
              rw [← new, ← built.entry]
              exact congrArg (backend.setRegister .pc) entry
          _ = { (UnicornBackend.new fresh.backend.machine).setRegister .pc config.entry with
                machine := backend.machine } := rfl
          _ = { fresh.backend with machine := backend.machine } := by rw [← built.backend]
      have setup := congrArg (fun emulator : Emulator =>
        { emulator with backend := { fresh.backend with machine := backend.machine } }) before.same
      rw [replaced, placed]
      exact setup

/-- Everything the host is asked for succeeds. -/
def quietCalls : HostCalls where
  write _ := .written
  readFailure _ := none
  newBackend := .ok ()
  programCounter := .ok ()

/-- One empty sector in every file. -/
def emptyDisk : HostFiles := fun _ => List.replicate 512 0

/-- A guest that writes a sector with the completion interrupt on, and then acknowledges it. -/
def writingEngine : Engine where
  setExits := fun _ _ => .ok ()
  flushTlb := fun _ => .ok ()
  emuStart := fun backend _ _ _ =>
    if backend.machine.ticks = 0 then
      ([.mmioWrite 0x2008 4 1, .mmioWrite 0x200c 4 0x4000_0000, .mmioWrite 0x201c 4 1,
        .mmioWrite 0x2000 4 2] ++ List.replicate 33 (.code 0 4 (some 0)), .ok ())
    else ([.code 0 4 (some 0), .mmioWrite 0x2018 4 1], .ok ())

def writtenRun : List EmulatorStep :=
  [.runBatch writingEngine 33 none, .runBatch writingEngine 1 none]

/-- One file, and RAM that starts with a byte. -/
def stockedConfig : RuntimeConfig :=
  { Service.oneFileConfig with initialRamWrites := [(⟨ramBase⟩, [0x2a])] }

set_option maxRecDepth 20000 in
/-- A reset after the guest has written a sector saves it and starts afresh. -/
theorem reset_equals_fresh_start_written : ∃ fresh reached,
    Emulator.new stockedConfig
      (quietCalls.outcomes stockedConfig.blockMediaPaths emptyDisk) = .ok fresh ∧
    reached = run Hosted.step ⟨fresh, emptyDisk⟩ writtenRun ∧
    (reached.reset quietCalls).1 = none ∧
    ((reached.reset quietCalls).2.files "disk.img").head? = some 0x2a ∧
    (reached.reset quietCalls).2.emulator = { fresh with
      backend := { fresh.backend with
        machine := (reached.reset quietCalls).2.emulator.backend.machine } } ∧
    ((reached.reset quietCalls).2.reset quietCalls).2 = (reached.reset quietCalls).2 := by
  have distinct : DistinctFiles stockedConfig.blockMediaPaths := by
    intro first second path file file'
    match first, second with
    | 0, 0 | 1, 1 => rfl
    | 0, 1 => cases file'
    | 1, 0 => cases file
  have small (unit : Fin 2) (path : String) (_ : stockedConfig.blockMediaPaths unit = some path) :
      (emptyDisk path).length < 2 ^ 32 * sectorSize := by
    rw [emptyDisk, List.length_replicate]
    decide
  have observed : ((Emulator.new stockedConfig
      (quietCalls.outcomes stockedConfig.blockMediaPaths emptyDisk)).toOption.map fun fresh =>
        let outcome := Hosted.reset (run Hosted.step ⟨fresh, emptyDisk⟩ writtenRun) quietCalls
        (outcome.1.isNone, (outcome.2.files "disk.img").head?)) = some (true, some 0x2a) := by
    decide +kernel
  obtain ⟨fresh, found, both⟩ := Option.map_eq_some_iff.mp observed
  obtain ⟨done, saved⟩ : _ ∧ _ := by simpa only [Prod.mk.injEq] using both
  have created := toOption_eq_some.mp found
  rw [Option.isNone_iff_eq_none] at done
  obtain ⟨_, _, same, again⟩ := (reset_equals_fresh_start stockedConfig emptyDisk quietCalls fresh
    created distinct small _ ⟨writtenRun, rfl⟩ quietCalls rfl).2 done
  exact ⟨fresh, _, created, rfl, done, saved, same, again quietCalls rfl⟩

def pendingOf (hosted : Hosted) : U32 :=
  (drained hosted.emulator.backend.machine).bus.interrupts.pending

/-- Every write to the disk fails. -/
def fullDiskCalls : HostCalls :=
  { quietCalls with write := fun _ => .failed ⟨"no space left on device"⟩ [] }

set_option maxRecDepth 20000 in
/-- A reset refused for a failed flush raises the block interrupt. -/
theorem refused_reset_raises_interrupt : ∃ fresh reached,
    Emulator.new Service.oneFileConfig
      (quietCalls.outcomes Service.oneFileConfig.blockMediaPaths emptyDisk) = .ok fresh ∧
    Leads Hosted.step ⟨fresh, emptyDisk⟩ reached ∧ (reached.reset fullDiskCalls).1 ≠ none ∧
    pendingOf (reached.reset fullDiskCalls).2 ≠ pendingOf reached := by
  have observed : ((Emulator.new Service.oneFileConfig
      (quietCalls.outcomes Service.oneFileConfig.blockMediaPaths emptyDisk)).toOption.map
        fun fresh =>
          ((Hosted.reset (run Hosted.step ⟨fresh, emptyDisk⟩ writtenRun) fullDiskCalls).1.isSome,
            pendingOf (run Hosted.step ⟨fresh, emptyDisk⟩ writtenRun),
            pendingOf (Hosted.reset (run Hosted.step ⟨fresh, emptyDisk⟩ writtenRun)
              fullDiskCalls).2)) = some (true, 0, 8) := by decide +kernel
  obtain ⟨fresh, created, both⟩ := Option.map_eq_some_iff.mp observed
  obtain ⟨refused, before, after⟩ : _ ∧ _ ∧ _ := by simpa only [Prod.mk.injEq] using both
  refine ⟨fresh, run Hosted.step ⟨fresh, emptyDisk⟩ writtenRun, toOption_eq_some.mp created,
    ⟨writtenRun, rfl⟩, ?_, ?_⟩
  · exact Option.isSome_iff_ne_none.mp refused
  · rw [before, after]
    decide

end Minemu.Runtime
