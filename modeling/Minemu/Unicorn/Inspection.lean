import Minemu.Unicorn.Backend

/-! Host inspection: snapshots of the machine, reads of the memory Unicorn has mapped, and
reads through the guest's own translation. -/

namespace Minemu.Core

open Platform

inductive InspectionRequest where
  | memory (range : PhysicalRange)
  | mmu
  | peripherals
  | events
deriving DecidableEq

/-- The state each response is copied from. -/
inductive InspectionResponse where
  | memory (bytes : List U8)
  | mmu (mmu : Mmu)
  | peripherals (bus : MmioBus)
  | events (events : List ObservableEvent)

namespace Machine

/-- The peripherals are inspected after the controller has drained its signals. -/
def inspect (machine : Machine) :
    InspectionRequest → Except CoreError InspectionResponse × Machine
  | .memory range =>
    ((machine.memory.regionSlice range.start range.length.toNat).map .memory, machine)
  | .mmu => (.ok (.mmu machine.mmu), machine)
  | .peripherals =>
    let bus := machine.bus.processSignals
    (.ok (.peripherals bus), { machine with bus })
  | .events => (.ok (.events machine.events), machine)

end Machine

end Minemu.Core

namespace Minemu.Unicorn

open Platform Minemu.Core

inductive BackendError where
  | core (error : CoreError)
  | unicorn (error : UcError)
  | inspectionRange
  | emptySearchPattern
  | searchPatternTooLarge (length maximum : Nat)
  | virtualInspectionDevice (address : U32)
deriving DecidableEq

/-- What inspection asks of Unicorn. `mem_read` runs the read callback for each access it
makes to the MMIO window, by its offset and size; a `vmem_translate` without a TLB entry
reports `translateFailure`. -/
structure Inspector where
  memRead : Machine → PhysicalAddress → (length : Nat) →
    List (U32 × Nat) × Except UcError (List U8)
  translateFailure : UcError

/-- Reads the memory itself and no device. -/
def Inspector.ofMemory : Inspector where
  memRead machine address length :=
    ([], (machine.memory.regionSlice address length).mapError fun _ => .other 6)
  translateFailure := .other 21

structure ExecutionInspection where
  cpu : Cpu
  mmuEnabled : Bool
  instructionAddress : VirtualAddress
  instructionBytes : List U8
  instructionError : Option BackendError

namespace UnicornBackend

variable (inspector : Inspector)

/-- Reads the authoritative physical bytes currently mapped by Unicorn. -/
def readPhysicalMemory (backend : UnicornBackend) (address : PhysicalAddress) (length : Nat) :
    Except BackendError (List U8) × UnicornBackend :=
  let (reads, result) := inspector.memRead backend.machine address length
  (result.mapError .unicorn, backend.emulate (reads.map fun (offset, size) => .mmioRead offset size))

/-- `vmem_translate`: a lookup through the guest's virtual-TLB callback. -/
def vmemTranslate (backend : UnicornBackend) (address : U32) (memoryType : MemType) :
    Except BackendError PhysicalAddress × UnicornBackend :=
  let (entry, backend) := backend.virtualTlbCallback address memoryType
  match entry with
  | some (physical, _) => (.ok physical, backend)
  | none => (.error (.unicorn inspector.translateFailure), backend)

/-- The bytes from an address to the end of its page. -/
def pageRemaining (address : U32) : Nat := 4096 - address.toNat % 4096

theorem pageRemaining_pos (address : U32) : 0 < pageRemaining address := by
  unfold pageRemaining
  omega

/-- The loop of `read_translated_memory` from `offset` on, a page at a time. -/
def readTranslatedFrom (address : U32) (length : Nat) (memoryType : MemType)
    (rejectDevices : Bool) (backend : UnicornBackend) (offset : Nat) :
    Except BackendError (List U8) × UnicornBackend :=
  if offset < length then
    if 2 ^ 32 ≤ address.toNat + offset then (.error .inspectionRange, backend)
    else
      let virtualAddress := address + BitVec.ofNat 32 offset
      let count := min (length - offset) (pageRemaining virtualAddress)
      match backend.vmemTranslate inspector virtualAddress memoryType with
      | (.error error, backend) => (.error error, backend)
      | (.ok physical, backend) =>
        if rejectDevices ∧ (MemRegion.ofAddress physical).any MemRegion.isDevice then
          (.error (.virtualInspectionDevice physical.get), backend)
        else
          match backend.readPhysicalMemory inspector physical count with
          | (.error error, backend) => (.error error, backend)
          | (.ok bytes, backend) =>
            let (rest, backend) :=
              readTranslatedFrom address length memoryType rejectDevices backend (offset + count)
            (rest.map (bytes ++ ·), backend)
  else (.ok [], backend)
termination_by length - offset
decreasing_by
  have positive := pageRemaining_pos (address + BitVec.ofNat 32 offset)
  omega

def readTranslatedMemory (backend : UnicornBackend) (address : VirtualAddress) (length : Nat)
    (memoryType : MemType) (rejectDevices : Bool) :
    Except BackendError (List U8) × UnicornBackend :=
  backend.readTranslatedFrom inspector address.get length memoryType rejectDevices 0

/-- Reads virtual instruction bytes through the active translation state. -/
def readVirtualMemory (backend : UnicornBackend) (address : VirtualAddress) (length : Nat) :
    Except BackendError (List U8) × UnicornBackend :=
  backend.readTranslatedMemory inspector address length .fetch false

/-- Reads virtual data bytes without allowing inspection to trigger MMIO reads. -/
def inspectVirtualMemory (backend : UnicornBackend) (address : VirtualAddress) (length : Nat) :
    Except BackendError (List U8) × UnicornBackend :=
  backend.readTranslatedMemory inspector address length .read true

/-- Translates one virtual address using read permissions and current MMU state. -/
def translateVirtualAddress (backend : UnicornBackend) (address : VirtualAddress) :
    Except BackendError PhysicalAddress × UnicornBackend :=
  backend.vmemTranslate inspector address.get .read

def inspectLiveMemory (backend : UnicornBackend) (range : PhysicalRange) :
    Except BackendError (List U8) × UnicornBackend :=
  backend.readPhysicalMemory inspector range.start range.length.toNat

def memorySearchChunkSize : Nat := 1024 * 1024

/-- Where a pattern first occurs. -/
def position (bytes pattern : List U8) : Option Nat :=
  (List.range (bytes.length + 1 - pattern.length)).find? fun index =>
    (bytes.drop index).take pattern.length = pattern

/-- The loop of `search_memory` over the chunks at `offsets`. -/
def searchChunks (pattern : List U8) :
    List Nat → UnicornBackend → Except BackendError (Option PhysicalAddress) × UnicornBackend
  | [], backend => (.ok none, backend)
  | offset :: offsets, backend =>
    let length := min (memorySearchChunkSize + (pattern.length - 1)) (ramSize.toNat - offset)
    let address : PhysicalAddress := ⟨ramBase + BitVec.ofNat 32 offset⟩
    match backend.readPhysicalMemory inspector address length with
    | (.error error, backend) => (.error error, backend)
    | (.ok bytes, backend) =>
      match position bytes pattern with
      | some index => (.ok (some ⟨address.get + BitVec.ofNat 32 index⟩), backend)
      | none => searchChunks pattern offsets backend

/-- Searches the authoritative physical RAM mapping in bounded, overlapping chunks. -/
def searchMemory (backend : UnicornBackend) (pattern : List U8) :
    Except BackendError (Option PhysicalAddress) × UnicornBackend :=
  if pattern.isEmpty then (.error .emptySearchPattern, backend)
  else if memorySearchChunkSize < pattern.length then
    (.error (.searchPatternTooLarge pattern.length memorySearchChunkSize), backend)
  else
    let offsets := (List.range (ramSize.toNat / memorySearchChunkSize)).map fun index =>
      index * memorySearchChunkSize
    searchChunks inspector pattern offsets backend

/-- The first address of an execution inspection. -/
def executionStart (backend : UnicornBackend) (address : Option VirtualAddress) (before : Nat) :
    U32 :=
  let address := (address.map VirtualAddress.get).getD (backend.cpu.read .pc)
  BitVec.ofNat 32 (address.toNat - (BitVec.ofNat 32 before).toNat)

/-- Captures CPU state and instruction bytes at one execution boundary. -/
def inspectExecution (backend : UnicornBackend) (address : Option VirtualAddress)
    (before after : Nat) : Except BackendError ExecutionInspection × UnicornBackend :=
  let cpu := backend.cpu
  let mmuEnabled := backend.machine.mmu.enabled
  let start : VirtualAddress := ⟨backend.executionStart address before⟩
  if 2 ^ 64 ≤ before + after then (.error .inspectionRange, backend)
  else
    match backend.readVirtualMemory inspector start (before + after) with
    | (.ok bytes, backend) => (.ok ⟨cpu, mmuEnabled, start, bytes, none⟩, backend)
    | (.error error, backend) => (.ok ⟨cpu, mmuEnabled, start, [], some error⟩, backend)

/-! ### What holds of lookups and reads holds of inspections -/

section Related

variable {Related : UnicornBackend → UnicornBackend → Prop} (refl : ∀ backend, Related backend backend)
  (trans : ∀ first second third, Related first second → Related second third → Related first third)
  (lookup : ∀ (backend : UnicornBackend) address memoryType,
    Related backend (backend.virtualTlbCallback address memoryType).2)
  (read : ∀ (backend : UnicornBackend) offset size,
    Related backend (backend.mmioReadCallback offset size).2)

include refl trans read in
theorem related_readPhysicalMemory (backend : UnicornBackend) (address : PhysicalAddress)
    (length : Nat) :
    Related backend (backend.readPhysicalMemory inspector address length).2 := by
  unfold readPhysicalMemory
  simp only
  generalize (inspector.memRead backend.machine address length).1 = reads
  induction reads generalizing backend with
  | nil => exact refl backend
  | cons next reads ih =>
    exact trans _ _ _ (read backend next.1 next.2) (ih (backend.mmioReadCallback next.1 next.2).2)

include lookup in
theorem related_vmemTranslate (backend : UnicornBackend) (address : U32) (memoryType : MemType) :
    Related backend (backend.vmemTranslate inspector address memoryType).2 := by
  have looked := lookup backend address memoryType
  unfold vmemTranslate
  simp only
  split
  · exact looked
  · exact looked

include refl trans lookup read in
theorem related_readTranslatedFrom (address : U32) (length : Nat) (memoryType : MemType)
    (rejectDevices : Bool) (backend : UnicornBackend) (offset : Nat) :
    Related backend (readTranslatedFrom inspector address length memoryType rejectDevices backend
      offset).2 := by
  fun_induction readTranslatedFrom inspector address length memoryType rejectDevices backend
    offset with
  | case1 backend offset unfinished wraps => exact refl backend
  | case2 backend offset unfinished inside virtualAddress error middle translated =>
    have looked := related_vmemTranslate inspector lookup backend virtualAddress memoryType
    rwa [translated] at looked
  | case3 backend offset unfinished inside virtualAddress physical middle translated device =>
    have looked := related_vmemTranslate inspector lookup backend virtualAddress memoryType
    rwa [translated] at looked
  | case4 backend offset unfinished inside virtualAddress count physical middle translated plain
      error after filled =>
    have looked := related_vmemTranslate inspector lookup backend virtualAddress memoryType
    have loaded := related_readPhysicalMemory inspector refl trans read middle physical count
    rw [translated] at looked
    rw [filled] at loaded
    exact trans _ _ _ looked loaded
  | case5 backend offset unfinished inside virtualAddress count physical middle translated plain
      bytes after filled rest last recursed ih =>
    have looked := related_vmemTranslate inspector lookup backend virtualAddress memoryType
    have loaded := related_readPhysicalMemory inspector refl trans read middle physical count
    rw [translated] at looked
    rw [filled] at loaded
    rw [recursed] at ih
    exact trans _ _ _ looked (trans _ _ _ loaded ih)
  | case6 backend offset finished => exact refl backend

include refl trans read in
theorem related_searchMemory (backend : UnicornBackend) (pattern : List U8) :
    Related backend (backend.searchMemory inspector pattern).2 := by
  unfold searchMemory
  split
  · exact refl backend
  · split
    · exact refl backend
    · simp only
      generalize (List.range (ramSize.toNat / memorySearchChunkSize)).map _ = offsets
      induction offsets generalizing backend with
      | nil => exact refl backend
      | cons offset offsets ih =>
        have loaded := related_readPhysicalMemory inspector refl trans read backend
          ⟨ramBase + BitVec.ofNat 32 offset⟩
          (min (memorySearchChunkSize + (pattern.length - 1)) (ramSize.toNat - offset))
        simp only [searchChunks]
        split
        · rename_i filled
          rwa [filled] at loaded
        · rename_i bytes after filled
          rw [filled] at loaded
          split
          · exact loaded
          · exact trans _ _ _ loaded (ih after)

include refl trans lookup read in
theorem related_inspectExecution (backend : UnicornBackend) (address : Option VirtualAddress)
    (before after : Nat) :
    Related backend (backend.inspectExecution inspector address before after).2 := by
  have fetched := related_readTranslatedFrom inspector refl trans lookup read
    (backend.executionStart address before) (before + after) .fetch false backend 0
  unfold inspectExecution
  simp only
  split
  · exact refl backend
  · split
    · rename_i read'
      rw [readVirtualMemory, readTranslatedMemory] at read'
      rwa [read'] at fetched
    · rename_i read'
      rw [readVirtualMemory, readTranslatedMemory] at read'
      rwa [read'] at fetched

end Related

/-! ### What a lookup does -/

/-- The fault a lookup records, if any. -/
def lookupFault (backend : UnicornBackend) (address : U32) (access : Access) : Option MmuFault :=
  match (backend.machine.mmu.translate backend.machine.memory ⟨address⟩ access
      backend.userMode).1 with
  | .error fault => some fault
  | .ok physical =>
    if access = .fetch ∧ (MemRegion.ofAddress physical).any MemRegion.isDevice then
      some (backend.machine.mmu.recordInvalidMmioFault ⟨address⟩ access backend.userMode).1
    else none

/-- The memory a lookup leaves, with the access recorded in the table entry it used. -/
def lookupMemory (backend : UnicornBackend) (address : U32) (access : Access) : PhysicalMemory :=
  (backend.machine.mmu.translate backend.machine.memory ⟨address⟩ access backend.userMode).2.2

/-- A translation that fails records its fault, one that succeeds records none. -/
theorem mmu_translate (mmu : Mmu) (memory : PhysicalMemory) (address : VirtualAddress)
    (access : Access) (userMode : Bool) :
    (mmu.translate memory address access userMode).2.1 =
      match (mmu.translate memory address access userMode).1 with
      | .error fault => mmu.recordFault fault
      | .ok _ => mmu := by
  unfold Mmu.translate
  split
  · rfl
  · split
    · rfl
    · rfl

/-- A lookup marks the table entry it used and records its fault, and does nothing else to the
machine. -/
theorem virtualTlbCallback_eq (backend : UnicornBackend) (address : U32) {memoryType : MemType}
    {access : Access} (kind : mmuAccess memoryType = some access) :
    (backend.virtualTlbCallback address memoryType).2.cpu = backend.cpu ∧
      (backend.virtualTlbCallback address memoryType).2.machine =
        { backend.machine with
          memory := backend.lookupMemory address access
          mmu := (backend.lookupFault address access).elim backend.machine.mmu
            backend.machine.mmu.recordFault } := by
  have recorded := mmu_translate backend.machine.mmu backend.machine.memory ⟨address⟩ access
    backend.userMode
  unfold virtualTlbCallback lookupFault lookupMemory
  simp only [kind]
  generalize backend.machine.mmu.translate backend.machine.memory ⟨address⟩ access
    backend.userMode = outcome at recorded ⊢
  rcases outcome with ⟨fault | physical, mmu, memory⟩
  · cases recorded
    exact ⟨rfl, rfl⟩
  · cases recorded
    simp only
    split
    · exact ⟨rfl, rfl⟩
    · exact ⟨rfl, rfl⟩

/-- A lookup without a fault hands out an entry. -/
theorem virtualTlbCallback_entry (backend : UnicornBackend) (address : U32) {memoryType : MemType}
    {access : Access} (kind : mmuAccess memoryType = some access) :
    (backend.virtualTlbCallback address memoryType).1.isSome =
      (backend.lookupFault address access).isNone := by
  unfold virtualTlbCallback lookupFault
  simp only [kind]
  rcases backend.machine.mmu.translate backend.machine.memory ⟨address⟩ access backend.userMode with
    ⟨fault | physical, mmu, memory⟩
  · rfl
  · simp only
    split
    · rfl
    · rfl

/-- Recording an access stores to RAM only. -/
theorem roms_recordAccess {memory after : PhysicalMemory} {entryAddress : PhysicalAddress}
    {entry : PageTableEntry} {access : Access}
    (recorded : Mmu.recordAccess memory entryAddress entry access = some after) :
    after.bootRom = memory.bootRom ∧ after.systemRom = memory.systemRom := by
  unfold Mmu.recordAccess at recorded
  simp only at recorded
  split at recorded
  · cases written : memory.writeU32 entryAddress (entry.recordSuccessfulAccess access).raw with
    | error error =>
      rw [written] at recorded
      cases recorded
    | ok stored =>
      rw [written] at recorded
      cases recorded
      obtain ⟨_, _, same⟩ := PhysicalMemory.regionSliceMut_inv written
      exact ⟨same.bootRom, same.systemRom⟩
  · cases recorded
    exact ⟨rfl, rfl⟩

theorem roms_walk {mmu : Mmu} {memory after : PhysicalMemory} {address : VirtualAddress}
    {access : Access} {userMode : Bool} {target : PhysicalAddress}
    (walked : mmu.walk memory address access userMode = .ok (target, after)) :
    after.bootRom = memory.bootRom ∧ after.systemRom = memory.systemRom := by
  unfold Mmu.walk at walked
  split at walked
  · cases walked
  · simp only at walked
    split at walked
    · cases walked
    · split at walked
      · cases walked
      · split at walked
        · cases walked
        · rename_i recorded
          cases walked
          exact roms_recordAccess recorded

theorem roms_lookupMemory (backend : UnicornBackend) (address : U32) (access : Access) :
    (backend.lookupMemory address access).bootRom = backend.machine.memory.bootRom ∧
      (backend.lookupMemory address access).systemRom = backend.machine.memory.systemRom := by
  unfold lookupMemory Mmu.translate
  split
  · exact ⟨rfl, rfl⟩
  · split
    · rename_i walked
      exact roms_walk walked
    · exact ⟨rfl, rfl⟩

/-- What no inspection changes. -/
structure Inspected (before after : UnicornBackend) : Prop where
  cpu : after.cpu = before.cpu
  ticks : after.machine.ticks = before.machine.ticks
  eventCapacity : after.machine.eventCapacity = before.machine.eventCapacity
  bootRom : after.machine.memory.bootRom = before.machine.memory.bootRom
  systemRom : after.machine.memory.systemRom = before.machine.memory.systemRom
  block : after.machine.bus.block = before.machine.bus.block

namespace Inspected

theorem refl (backend : UnicornBackend) : Inspected backend backend := ⟨rfl, rfl, rfl, rfl, rfl, rfl⟩

theorem trans {first second third : UnicornBackend} (before : Inspected first second)
    (after : Inspected second third) : Inspected first third where
  cpu := after.cpu.trans before.cpu
  ticks := after.ticks.trans before.ticks
  eventCapacity := after.eventCapacity.trans before.eventCapacity
  bootRom := after.bootRom.trans before.bootRom
  systemRom := after.systemRom.trans before.systemRom
  block := after.block.trans before.block

theorem mmioRead (backend : UnicornBackend) (offset : U32) (size : Nat) :
    Inspected backend (backend.mmioReadCallback offset size).2 := by
  unfold mmioReadCallback
  simp only
  split
  · exact ⟨rfl, rfl, rfl, rfl, rfl, rfl⟩
  · rename_i width _
    cases decoded : decodeMmio (.read ⟨mmioBase + offset⟩ width) with
    | error error =>
      simp only [MmioBus.access, decoded]
      exact ⟨rfl, rfl, rfl, rfl, rfl, rfl⟩
    | ok register =>
      simp only [MmioBus.access, decoded]
      exact ⟨rfl, rfl, rfl, rfl, rfl, backend.machine.bus.block_readRegister register⟩

theorem tlb (backend : UnicornBackend) (address : U32) (memoryType : MemType) :
    Inspected backend (backend.virtualTlbCallback address memoryType).2 := by
  cases access : mmuAccess memoryType with
  | none =>
    simp only [virtualTlbCallback, access]
    exact refl backend
  | some access' =>
    obtain ⟨cpu, machine⟩ := backend.virtualTlbCallback_eq address access
    have roms := backend.roms_lookupMemory address access'
    refine ⟨cpu, ?_, ?_, ?_, ?_, ?_⟩
    · rw [machine]
    · rw [machine]
    · rw [machine]
      exact roms.1
    · rw [machine]
      exact roms.2
    · rw [machine]

end Inspected

end UnicornBackend

end Minemu.Unicorn
