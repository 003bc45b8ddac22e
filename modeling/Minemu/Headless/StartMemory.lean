import Minemu.Core.MemoryMap
import Minemu.Headless.Config

/-! The memory a headless run starts from, at first and after every reset: the ROMs of the
configuration, and RAM as the last prefill to cover each address left it. -/

namespace Minemu.Headless

open Library Platform Minemu.Core Minemu.Image Minemu.Runtime Minemu.Unicorn

variable {bootRom : List U8} {image : SystemImage} {blockMediaPaths : Fin 2 → Option String}
  {instructionBatch : Option ℕ+} {ramPrefill : List RamPrefill} {executionDeadline : Option Nat}
  {inputs : List HeadlessInput} {config : RuntimeConfig}

/-- What the runner requires of its input. -/
structure Accepted (bootRom : List U8) (image : SystemImage) (ramPrefill : List RamPrefill)
    (inputs : List HeadlessInput) : Prop where
  bootRom : bootRom.length ≤ 0x1_0000
  image : image.bytes.length ≤ 0x100_0000
  inputs : ∀ input ∈ inputs, input.uart = 0 ∨ input.uart = 1
  ramPrefill : ∀ fill ∈ ramPrefill, fill.Inside

def RamPrefill.covers (fill : RamPrefill) (address : Nat) : Bool :=
  fill.address.toNat ≤ address ∧ address < fill.address.toNat + fill.length.toNat

/-- The byte of the last prefill to cover an address. -/
def lastFill (ramPrefill : List RamPrefill) (address : Nat) : Option U8 :=
  (ramPrefill.reverse.find? fun fill => fill.covers address).map RamPrefill.value

/-- The byte a run starts with at an address of the physical map. -/
def startByte (bootRom : List U8) (image : SystemImage) (ramPrefill : List RamPrefill)
    (address : Nat) : Option U8 :=
  if address < 0x1_0000 then some (bootRom[address]?.getD 0)
  else if 0x800_0000 ≤ address ∧ address < 0x900_0000 then
    some (image.bytes[address - 0x800_0000]?.getD 0)
  else if 0x4000_0000 ≤ address ∧ address < 0x4400_0000 then
    some ((lastFill ramPrefill address).getD 0)
  else none

/-- The machines that a run starts from: the first one, and that of every reset that succeeds. -/
inductive StartsFrom (fresh : Emulator) (files : HostFiles) : Machine → Prop
  | first : StartsFrom fresh files fresh.backend.machine
  | reset (reached : Hosted) (reachable : Leads Hosted.step ⟨fresh, files⟩ reached)
      (host : HostCalls) (done : (reached.reset host).1 = none) :
      StartsFrom fresh files (reached.reset host).2.emulator.backend.machine

/-! ### The configuration -/

theorem withRoms_eq_ok {systemRom : List U8} {memory : PhysicalMemory} :
    PhysicalMemory.withRoms bootRom systemRom = .ok memory ↔
      bootRom.length ≤ 0x1_0000 ∧ systemRom.length ≤ 0x100_0000 ∧
        memory = { PhysicalMemory.empty with
          bootRom := fun index => bootRom[index.val]?.getD 0
          systemRom := fun index => systemRom[index.val]?.getD 0 } := by
  have bootSize : MemRegion.bootRom.size.toNat = 0x1_0000 := by decide
  have systemSize : MemRegion.systemRom.size.toNat = 0x100_0000 := by decide
  unfold PhysicalMemory.withRoms
  rw [bootSize, systemSize]
  split
  · rename_i long
    exact ⟨fun done => (by cases done), fun accepted => absurd accepted.1 (Nat.not_le_of_gt long)⟩
  · split
    · rename_i long
      exact ⟨fun done => (by cases done),
        fun accepted => absurd accepted.2.1 (Nat.not_le_of_gt long)⟩
    · rename_i shortBoot shortSystem
      constructor
      · intro done
        cases done
        exact ⟨Nat.le_of_not_gt shortBoot, Nat.le_of_not_gt shortSystem, rfl⟩
      · intro accepted
        rw [accepted.2.2]

theorem exists_scheduledInput {input : HeadlessInput} :
    (∃ scheduled, scheduledInput input = .ok scheduled) ↔ input.uart = 0 ∨ input.uart = 1 := by
  unfold scheduledInput
  constructor
  · rintro ⟨scheduled, done⟩
    cases taken : port input.uart with
    | error error =>
      rw [taken] at done
      cases done
    | ok port =>
      exact (port_eq_ok.mp taken).imp And.left And.left
  · rintro (zero | one)
    · rw [port_eq_ok.mpr (.inl ⟨zero, rfl⟩)]
      exact ⟨_, rfl⟩
    · rw [port_eq_ok.mpr (.inr ⟨one, rfl⟩)]
      exact ⟨_, rfl⟩

/-- The RAM write that a prefill stands for. -/
def RamPrefill.write (fill : RamPrefill) : PhysicalAddress × List U8 :=
  (⟨fill.address⟩, List.replicate fill.length.toNat fill.value)

theorem mapM_prefillWrite {writes : List (PhysicalAddress × List U8)} :
    ramPrefill.mapM prefillWrite = .ok writes ↔
      (∀ fill ∈ ramPrefill, fill.Inside) ∧ writes = ramPrefill.map RamPrefill.write := by
  rw [mapM_eq_ok]
  constructor
  · intro each
    induction each with
    | nil => exact ⟨fun fill member => (by cases member), rfl⟩
    | cons first _ ih =>
      obtain ⟨inside, written⟩ := prefillWrite_eq_ok.mp first
      refine ⟨List.forall_mem_cons.mpr ⟨inside, ih.1⟩, ?_⟩
      rw [List.map_cons, ← ih.2, written]
      rfl
  · rintro ⟨inside, rfl⟩
    rw [List.forall₂_map_right_iff, List.forall₂_same]
    exact fun fill member => prefillWrite_eq_ok.mpr ⟨inside fill member, rfl⟩

/-- What an accepted configuration consists of. -/
theorem runtimeConfig_ok (configured : runtimeConfig bootRom image blockMediaPaths instructionBatch
    ramPrefill executionDeadline inputs = .ok config) :
    Accepted bootRom image ramPrefill inputs ∧
      config.machine = .new { PhysicalMemory.empty with
        bootRom := fun index => bootRom[index.val]?.getD 0
        systemRom := fun index => image.bytes[index.val]?.getD 0 } 4096 ∧
      config.initialRamWrites = ramPrefill.map RamPrefill.write := by
  obtain ⟨memory, roms, configured⟩ := bind_ok configured
  obtain ⟨scheduled, inputsTaken, configured⟩ := bind_ok configured
  obtain ⟨writes, filled, configured⟩ := bind_ok configured
  cases configured
  obtain ⟨shortBoot, shortSystem, rfl⟩ := withRoms_eq_ok.mp (mapError_ok roms)
  obtain ⟨inside, same⟩ := mapM_prefillWrite.mp filled
  refine ⟨⟨shortBoot, shortSystem, fun input member => ?_, inside⟩, rfl, same⟩
  obtain ⟨scheduled, _, taken⟩ := forall₂_left (mapM_eq_ok.mp inputsTaken) input member
  exact exists_scheduledInput.mp ⟨scheduled, taken⟩

theorem exists_runtimeConfig : (∃ config, runtimeConfig bootRom image blockMediaPaths
    instructionBatch ramPrefill executionDeadline inputs = .ok config) ↔
      Accepted bootRom image ramPrefill inputs := by
  constructor
  · rintro ⟨config, configured⟩
    exact (runtimeConfig_ok configured).1
  · intro accepted
    have roms := withRoms_eq_ok.mpr ⟨accepted.bootRom, accepted.image, rfl⟩
    obtain ⟨scheduled, taken⟩ := exists_forall₂ fun input member =>
      exists_scheduledInput.mpr (accepted.inputs input member)
    exact ⟨_, bind_eq_ok.mpr ⟨_, mapError_eq_ok.mpr roms, bind_eq_ok.mpr ⟨scheduled,
      mapM_eq_ok.mpr taken, bind_eq_ok.mpr ⟨_, mapM_prefillWrite.mpr ⟨accepted.ramPrefill, rfl⟩,
        rfl⟩⟩⟩⟩

/-! ### The memory -/

theorem covers_iff {fill : RamPrefill} {address : Nat} : fill.covers address = true ↔
    fill.address.toNat ≤ address ∧ address < fill.address.toNat + fill.length.toNat :=
  decide_eq_true_iff

/-- What the write of a prefill leaves at an address. -/
theorem leaves_write {fill : RamPrefill} (inside : fill.Inside) (address : Nat) :
    (CellAccess.write fill.address.toNat (List.replicate fill.length.toNat fill.value)).leaves
        PhysicalMemory.inRam address =
      if fill.covers address then some fill.value else none := by
  obtain ⟨_, low, high⟩ := inside
  have passing : CellAccess.passes PhysicalMemory.inRam fill.address.toNat
      (List.replicate fill.length.toNat fill.value) = true := by
    refine FlatMemory.passes_iff.mpr fun index bound => ?_
    rw [List.length_replicate] at bound
    exact decide_eq_true ⟨by omega, by omega⟩
  rw [CellAccess.leaves]
  by_cases covered : fill.covers address = true
  · obtain ⟨above, below⟩ := covers_iff.mp covered
    rw [if_pos ⟨passing, above⟩, if_pos covered, List.getElem?_replicate, if_pos (by omega)]
  · rw [if_neg covered]
    split
    · rename_i placed
      have beyond : ¬ address - fill.address.toNat < fill.length.toNat := fun within =>
        covered (covers_iff.mpr ⟨placed.2, by omega⟩)
      rw [List.getElem?_replicate, if_neg beyond]
    · rfl

/-- The RAM writes as calls on the memory. -/
def fillCalls (ramPrefill : List RamPrefill) : List PhysicalMemory.Call :=
  ramPrefill.map fun fill => .writeRange fill.write.1 fill.write.2

theorem latest_fillCalls (inside : ∀ fill ∈ ramPrefill, fill.Inside) (address : Nat) :
    CellAccess.latest PhysicalMemory.inRam address
        ((fillCalls ramPrefill).map PhysicalMemory.Call.access) = lastFill ramPrefill address := by
  unfold fillCalls
  induction ramPrefill with
  | nil => rfl
  | cons fill fills ih =>
    obtain ⟨first, others⟩ := List.forall_mem_cons.mp inside
    have left := leaves_write first address
    rw [List.map_cons, List.map_cons, CellAccess.latest, ih others]
    refine (congrArg (Option.or _) left).trans ?_
    unfold lastFill
    rw [List.reverse_cons, List.find?_append, List.find?_singleton]
    cases fills.reverse.find? fun fill => fill.covers address with
    | some found => rfl
    | none =>
      by_cases covered : fill.covers address = true
      · rw [if_pos covered, if_pos covered]
        rfl
      · rw [if_neg covered, if_neg covered]
        rfl

/-- Loading RAM runs its writes. -/
theorem loadRam_run {memory stored : PhysicalMemory}
    (loaded : loadRam memory (ramPrefill.map RamPrefill.write) = .ok stored) :
    stored = run PhysicalMemory.next memory (fillCalls ramPrefill) := by
  unfold fillCalls
  induction ramPrefill generalizing memory with
  | nil =>
    cases loaded
    rfl
  | cons fill fills ih =>
    rw [List.map_cons, loadRam, List.foldlM_cons] at loaded
    obtain ⟨middle, wrote, loaded⟩ := bind_ok loaded
    have same : memory.next (.writeRange fill.write.1 fill.write.2) = middle := by
      simp only [PhysicalMemory.next, PhysicalMemory.perform, PhysicalMemory.wrote, wrote]
    rw [List.map_cons, run_cons, same]
    exact ih loaded

theorem exists_loadRam (inside : ∀ fill ∈ ramPrefill, fill.Inside) (memory : PhysicalMemory) :
    ∃ stored, loadRam memory (ramPrefill.map RamPrefill.write) = .ok stored := by
  induction ramPrefill generalizing memory with
  | nil => exact ⟨memory, rfl⟩
  | cons fill fills ih =>
    obtain ⟨⟨positive, low, high⟩, others⟩ := List.forall_mem_cons.mp inside
    obtain ⟨middle, wrote, _⟩ := memory.regionSliceMut_ram ⟨fill.address⟩
      (List.replicate fill.length.toNat fill.value) ⟨low, by simp only; omega⟩
      (by rw [List.length_replicate]; exact high)
    obtain ⟨stored, loaded⟩ := ih others middle
    refine ⟨stored, ?_⟩
    rw [List.map_cons, loadRam, List.foldlM_cons]
    exact bind_eq_ok.mpr ⟨middle, wrote, loaded⟩

/-- A memory with the ROMs of the configuration and RAM as the prefills left it. -/
theorem byteAt_startByte {memory : PhysicalMemory}
    (boot : memory.bootRom = fun index => bootRom[index.val]?.getD 0)
    (system : memory.systemRom = fun index => image.bytes[index.val]?.getD 0)
    (ram : ∀ address, PhysicalMemory.inRam address = true →
      memory.byteAt address = some ((lastFill ramPrefill address).getD 0)) (address : Nat) :
    memory.byteAt address = startByte bootRom image ramPrefill address := by
  have cell (region : MemRegion) {bank : PhysicalMemory.Bank} (backed : memory.bank region = some bank)
      (low : region.range.start.get.toNat ≤ address)
      (inside : address - region.range.start.get.toNat < bank.size) :
      memory.byteAt address =
        some (bank.cells ⟨address - region.range.start.get.toNat, inside⟩) := by
    have size := PhysicalMemory.bank_size backed
    rw [memory.byteAt_spans ⟨low, by omega⟩, backed, Option.bind_some]
    exact dif_pos inside
  have bootBase : MemRegion.bootRom.range.start.get.toNat = 0 := by decide
  have systemBase : MemRegion.systemRom.range.start.get.toNat = 0x800_0000 := by decide
  unfold startByte
  split
  · rename_i within
    have found := cell .bootRom rfl (by omega) (by rw [bootBase]; exact within)
    rw [found]
    simp only [boot, bootBase, Nat.sub_zero]
  · rename_i noBoot
    split
    · rename_i within
      have found := cell .systemRom rfl (by omega) (by
        rw [systemBase]
        simp only
        omega)
      rw [found]
      simp only [system, systemBase]
    · rename_i noSystem
      split
      · rename_i within
        exact ram address (decide_eq_true within)
      · rename_i noRam
        have outside (region : MemRegion) (backed : (memory.bank region).isSome = true) :
            ¬ region.Spans address 1 := by
          intro ⟨low, high⟩
          cases region with
          | bootRom => exact noBoot high
          | systemRom => exact noSystem ⟨low, high⟩
          | ram => exact noRam ⟨low, high⟩
          | interruptController | sysTick | dma | rng | uart0 | uart1 | trace => cases backed
        unfold PhysicalMemory.byteAt
        split
        · rename_i small
          cases located : MemRegion.ofAddress ⟨BitVec.ofNat 32 address⟩ with
          | none => rfl
          | some region =>
            have spans := PhysicalRange.containsAddress_iff.mp (MemRegion.ofAddress_eq_some.mp located)
            rw [BitVec.toNat_ofNat, Nat.mod_eq_of_lt small] at spans
            rw [Option.bind_some]
            cases backed : memory.bank region with
            | none => rfl
            | some bank => exact absurd spans (outside region (by rw [backed]; rfl))
        · rfl

/-- Memory over the ROMs of a configuration with its RAM writes, all of them, in order. -/
def Loaded (config : RuntimeConfig) (machine : Machine) : Prop :=
  ∃ memory capacity media, loadRam { config.machine.memory with ram := fun _ => 0 }
      config.initialRamWrites = .ok memory ∧ drained machine = blank memory capacity media

theorem byteAt_loaded (configured : runtimeConfig bootRom image blockMediaPaths instructionBatch
    ramPrefill executionDeadline inputs = .ok config) {machine : Machine}
    (loaded : Loaded config machine) (address : Nat) :
    machine.memory.byteAt address = startByte bootRom image ramPrefill address := by
  obtain ⟨accepted, source, writes⟩ := runtimeConfig_ok configured
  obtain ⟨memory, capacity, media, loads, fresh⟩ := loaded
  rw [writes] at loads
  obtain ⟨bootKept, systemKept⟩ := roms_loadRam loads
  rw [(blank_fields fresh).1]
  refine byteAt_startByte ?_ ?_ (fun place ram => ?_) address
  · rw [bootKept, source]
    rfl
  · rw [systemKept, source]
    rfl
  · have zero : PhysicalMemory.byteAt { config.machine.memory with ram := fun _ => 0 } place =
        some 0 := by
      rw [PhysicalMemory.byteAt_ram _ ram, PhysicalMemory.ramByte, dif_pos (of_decide_eq_true ram)]
    rw [loadRam_run loads, PhysicalMemory.byteAt_run, latest_fillCalls accepted.ramPrefill, zero]
    cases lastFill ramPrefill place with
    | none => rfl
    | some value => rfl

/-! ### Resets -/

/-- What no run of a configuration changes: the ROMs, and the RAM writes of a reset. -/
structure Installed (config : RuntimeConfig) (emulator : Emulator) : Prop where
  bootRom : emulator.backend.machine.memory.bootRom = config.machine.memory.bootRom
  systemRom : emulator.backend.machine.memory.systemRom = config.machine.memory.systemRom
  writes : emulator.initialRamWrites = config.initialRamWrites

namespace Installed

variable {emulator after : Emulator} {hosted : Hosted} {backend : UnicornBackend}

theorem congr (installed : Installed config emulator)
    (bootRom : after.backend.machine.memory.bootRom = emulator.backend.machine.memory.bootRom)
    (systemRom : after.backend.machine.memory.systemRom = emulator.backend.machine.memory.systemRom)
    (writes : after.initialRamWrites = emulator.initialRamWrites) : Installed config after :=
  ⟨bootRom.trans installed.bootRom, systemRom.trans installed.systemRom,
    writes.trans installed.writes⟩

theorem flush (installed : Installed config emulator) (files : HostFiles)
    (write : Fin 2 → WriteOutcome) : Installed config (emulator.flush files write).2.1 := by
  have frame := (emulator.flushedOnly_flush files write).frame
  rw [frame]
  exact installed.congr rfl rfl rfl

/-- A rebuild loads the RAM writes over the same ROMs. -/
theorem rebuild (installed : Installed config emulator) {outcomes : HostOutcomes}
    (rebuilt : emulator.rebuild outcomes = .ok backend) : Loaded config backend.machine := by
  obtain ⟨clone, cloned, rebuilt⟩ := bind_ok rebuilt
  obtain ⟨machine, configured, rebuilt⟩ := bind_ok rebuilt
  cases newBackend_ok rebuilt
  obtain ⟨kept, _, _⟩ := blank_fields (blank_resetClone (mapError_ok cloned))
  obtain ⟨_, memory, loaded, fresh⟩ := blank_configured configured
  have erased : ({ clone.memory with ram := fun _ => 0 } : PhysicalMemory) =
      { config.machine.memory with ram := fun _ => 0 } := by
    rw [kept]
    simp only [installed.bootRom, installed.systemRom]
  rw [erased, installed.writes] at loaded
  exact ⟨memory, _, _, loaded, fresh⟩

theorem of_loaded (loaded : Loaded config backend.machine)
    (writes : emulator.initialRamWrites = config.initialRamWrites) :
    Installed config { emulator with backend } := by
  obtain ⟨memory, capacity, media, loads, fresh⟩ := loaded
  obtain ⟨bootRom, systemRom⟩ := roms_loadRam loads
  have same := (blank_fields fresh).1
  exact ⟨(congrArg PhysicalMemory.bootRom same).trans bootRom,
    (congrArg PhysicalMemory.systemRom same).trans systemRom, writes⟩

/-- A reset leaves the configuration installed, and loaded anew if it succeeds. -/
theorem reset (installed : Installed config hosted.emulator) (host : HostCalls) :
    Installed config (hosted.reset host).2.emulator ∧
      ((hosted.reset host).1 = none → Loaded config (hosted.reset host).2.emulator.backend.machine) := by
  have flushed := installed.flush hosted.files host.write
  unfold Hosted.reset
  rcases reset_cases hosted.emulator hosted.files host with ⟨error, refused⟩ |
    ⟨_, backend, rebuilt, ⟨_, error, failed⟩ | replaced⟩
  · rw [refused]
    exact ⟨flushed, fun done => (by cases done)⟩
  · rw [failed]
    exact ⟨of_loaded (flushed.rebuild rebuilt) flushed.writes, fun done => (by cases done)⟩
  · rw [replaced]
    have loaded := flushed.rebuild rebuilt
    have placed : Loaded config (backend.setRegister .pc
        (hosted.emulator.flush hosted.files host.write).2.1.entry).machine := loaded
    exact ⟨of_loaded placed flushed.writes, fun _ => placed⟩

theorem deliverUart (installed : Installed config emulator) (port : UartPort) (bytes : List U8) :
    Installed config (emulator.deliverUart port bytes) := by
  induction bytes generalizing emulator with
  | nil => exact installed
  | cons byte bytes ih =>
    cases port with
    | uart0 | uart1 => exact ih (installed.congr rfl rfl rfl)

theorem step (installed : Installed config hosted.emulator) (next : EmulatorStep) :
    Installed config (hosted.step next).emulator := by
  cases next with
  | runBatch engine instructionBudget tickDeadline =>
    have rooted : Rooted hosted.emulator.backend.machine (fun _ => none) hosted.files
        hosted.emulator.backend.machine :=
      ⟨rfl, rfl, rfl, fun unit path file => (by cases file)⟩
    have after := rooted.call (hosted.emulator.backend.onward_runWithTickDeadline engine
      (hosted.emulator.backend.cpu.read .pc) hosted.emulator.stop instructionBudget tickDeadline)
    exact installed.congr after.bootRom after.systemRom rfl
  | resumeFromBreakpoint address host =>
    rw [Hosted.step, Emulator.resumeFromBreakpoint]
    simp only [HostCalls.outcomes, Emulator.setProgramCounter]
    cases host.programCounter with
    | error error => split <;> exact installed
    | ok done =>
      split
      · exact installed.congr rfl rfl rfl
      · exact installed
  | reset host => exact (installed.reset host).1
  | flush write => exact installed.flush hosted.files write
  | drainUart inbox => exact (installed.deliverUart .uart0 _).deliverUart .uart1 _
  | deliverUart port bytes => exact installed.deliverUart port bytes
  | status => exact installed.congr rfl rfl rfl
  | inspect request inspector =>
    have inspected := Emulator.inspected_inspectBackend hosted.emulator.backend inspector request
    exact installed.congr inspected.bootRom inspected.systemRom rfl

end Installed

theorem loaded_new {files : HostFiles} {start : HostCalls} {fresh : Emulator}
    (created : Emulator.new config (start.outcomes config.blockMediaPaths files) = .ok fresh) :
    Loaded config fresh.backend.machine ∧ Installed config fresh := by
  have built := built_new created
  obtain ⟨memory, loads, bare⟩ := built.blank
  have loaded : Loaded config fresh.backend.machine := ⟨memory, _, _, loads, bare⟩
  exact ⟨loaded, Installed.of_loaded loaded built.writes⟩

/-- Every start shows the ROMs and the prefilled RAM. -/
theorem byteAt_start {files : HostFiles} {start : HostCalls} {fresh : Emulator} {machine : Machine}
    (configured : runtimeConfig bootRom image blockMediaPaths instructionBatch ramPrefill
      executionDeadline inputs = .ok config)
    (created : Emulator.new config (start.outcomes config.blockMediaPaths files) = .ok fresh)
    (starts : StartsFrom fresh files machine) (address : Nat) :
    machine.memory.byteAt address = startByte bootRom image ramPrefill address := by
  obtain ⟨loaded, installed⟩ := loaded_new created
  refine byteAt_loaded configured ?_ address
  cases starts with
  | first => exact loaded
  | reset reached reachable host done =>
    have kept (hosted : Hosted) (next : EmulatorStep)
        (held : Installed config hosted.emulator) :
        Installed config (hosted.step next).emulator := held.step next
    exact ((reachable.invariant kept installed).reset host).2 done

/-- `runtime_config` accepts exactly ROMs that fit, inputs for the two UARTs and prefills inside RAM;
RAM then never fails to load, and whatever has run before, every start shows the ROMs padded with
zeros and RAM with the last prefill of each address, or zero. -/
theorem start_memory (bootRom : List U8) (image : SystemImage) (blockMediaPaths : Fin 2 → Option String)
    (instructionBatch : Option ℕ+) (ramPrefill : List RamPrefill) (executionDeadline : Option Nat)
    (inputs : List HeadlessInput) :
    ((∃ config, runtimeConfig bootRom image blockMediaPaths instructionBatch ramPrefill
      executionDeadline inputs = .ok config) ↔ Accepted bootRom image ramPrefill inputs) ∧
    ∀ config, runtimeConfig bootRom image blockMediaPaths instructionBatch ramPrefill
        executionDeadline inputs = .ok config →
      (∀ memory, ∃ stored, loadRam memory config.initialRamWrites = .ok stored) ∧
      ∀ files start fresh,
        Emulator.new config (HostCalls.outcomes start config.blockMediaPaths files) = .ok fresh →
        ∀ machine, StartsFrom fresh files machine → ∀ address,
          machine.memory.byteAt address = startByte bootRom image ramPrefill address := by
  refine ⟨exists_runtimeConfig, fun config configured => ⟨fun memory => ?_, ?_⟩⟩
  · obtain ⟨accepted, -, writes⟩ := runtimeConfig_ok configured
    rw [writes]
    exact exists_loadRam accepted.ramPrefill memory
  · intro files start fresh created machine starts address
    exact byteAt_start configured created starts address

end Minemu.Headless
