import Minemu.Core.MemoryMap
import Minemu.Image.BootMemory
import Minemu.Image.RoundTrip

/-! A packaged kernel and its modules in the guest: the reference boot leaves the segments of the
kernel ELF where they were linked, and the boot info leads to every module in the ROM. -/

namespace Minemu.Image

open Library Platform Minemu.Core

/-! ### What the guest finds -/

/-- Where a kernel segment is loaded: at its own address in RAM, or else at what the direct map
makes of it. -/
def loadAddress (segment : ElfSegment) : Except PlatformError PhysicalAddress :=
  if MemRegion.ram.range.containsAddress ⟨segment.address⟩ then .ok ⟨segment.address⟩
  else directMapPhysical ⟨segment.address⟩

/-- RAM holds a segment: its bytes, and zeros up to its memory size. -/
structure LoadedAt (memory : PhysicalMemory) (segment : ElfSegment) (physical : PhysicalAddress) :
    Prop where
  address : loadAddress segment = .ok physical
  loaded : ∀ index, (bound : index < segment.bytes.length) →
    memory.ramByte (physical.get.toNat + index) = segment.bytes[index]
  cleared : ∀ index, segment.bytes.length ≤ index → index < segment.memorySize.toNat →
    memory.ramByte (physical.get.toNat + index) = 0

/-- The System ROM reads as the bytes from an offset on. -/
def RomHolds (memory : PhysicalMemory) (offset : Nat) (bytes : List U8) : Prop :=
  ∀ index, (bound : index < bytes.length) →
    memory.byteAt (0x800_0000 + offset + index) = some bytes[index]

/-- A row of a table in the ROM decodes to a record. -/
def RowHolds (memory : PhysicalMemory) (decode : List U8 → Except PlatformError Record)
    (table : U32) (index : Nat) (record : Record) : Prop :=
  ∃ row, row.length = 32 ∧ RomHolds memory (table.toNat + index * 32) row ∧ decode row = .ok record

/-- A row of a module's segment table is a segment of its ELF. -/
structure SegmentCarried (memory : PhysicalMemory) (table : U32) (index : Nat)
    (segment : ElfSegment) (record : ModuleSegment) : Prop where
  row : RowHolds memory ModuleSegment.decode table index record
  address : record.virtualAddress = ⟨segment.address⟩
  fileSize : record.fileSize.toNat = segment.bytes.length
  memorySize : record.memorySize = segment.memorySize
  flags : record.flags = segment.flags
  payload : RomHolds memory record.dataOffset.toNat segment.bytes

/-- A row of the module table is a module that was packaged. -/
structure ModuleCarried (memory : PhysicalMemory) (table : U32) (index : Nat) (input : ModuleInput)
    (entry : U32) (segments : List ElfSegment) (record : ModuleRecord) : Prop where
  row : RowHolds memory ModuleRecord.decode table index record
  nameLength : record.nameLength.toNat = (asBytes input.name).length
  name : RomHolds memory record.nameOffset.toNat (asBytes input.name)
  entry : record.entryVirtualAddress = ⟨entry⟩
  segmentCount : record.segmentCount.toNat = segments.length
  segments : ∀ segment ∈ segments, ∃ place < segments.length, ∃ stored,
    SegmentCarried memory record.segmentTableOffset place segment stored

/-! ### The ROM -/

variable {memory before after : PhysicalMemory} {image : SystemImage}

/-- The System ROM shows an image. -/
def ShowsImage (memory : PhysicalMemory) (image : SystemImage) : Prop :=
  ∀ index, memory.systemRom index = image.bytes[index.val]?.getD 0

theorem byteAt_systemRom (memory : PhysicalMemory) {offset : Nat} (inside : offset < 0x100_0000) :
    memory.byteAt (0x800_0000 + offset) = some (memory.systemRom ⟨offset, inside⟩) := by
  have spans : MemRegion.systemRom.Spans (0x800_0000 + offset) 1 := by
    constructor
    · exact Nat.le_add_right _ _
    · exact Nat.add_le_add_left inside 0x800_0000
  have base : MemRegion.systemRom.base.get.toNat = 0x800_0000 := by decide
  have backed : memory.bank .systemRom = some ⟨0x100_0000, memory.systemRom⟩ := rfl
  have place : 0x800_0000 + offset - 0x800_0000 = offset := by omega
  rw [memory.byteAt_spans spans, base, backed, Option.bind_some, PhysicalMemory.Bank.cell, place,
    dif_pos inside]

/-- What a slice of the image is, the ROM holds at its place. -/
theorem romHolds_slice (shows : ShowsImage memory image) (short : image.bytes.length ≤ 0x100_0000)
    {start stop : Nat} {part : List U8} (read : slice? image.bytes start stop = some part) :
    RomHolds memory start part := by
  obtain ⟨ordered, fits, -⟩ := slice?_eq_some.mp read
  have length := length_of_slice? read
  intro index bound
  have inside : start + index < 0x100_0000 := by omega
  have cell := getElem?_slice read index
  rw [if_pos (by omega), List.getElem?_eq_getElem bound] at cell
  rw [Nat.add_assoc, byteAt_systemRom memory inside, shows, ← cell]
  rfl

/-! ### The records of a build -/

section Records

variable {ObjectError : Type} {fileParse : List U8 → Except ObjectError (ObjectFile ObjectError)}

/-- The record of a kernel segment is that of its ELF segment. -/
theorem packKernelSegment_ok {segment : ElfSegment} {packed : KernelSegment × List U8}
    (done : (packKernelSegment segment : Built ObjectError _) = .ok packed) :
    loadAddress segment = .ok packed.1.physicalAddress ∧ packed.1.dataOffset = 0 ∧
      packed.1.fileSize.toNat = segment.bytes.length ∧
      packed.1.memorySize = segment.memorySize ∧ packed.2 = segment.bytes := by
  unfold packKernelSegment at done
  unfold loadAddress
  split at done
  · rename_i inside
    obtain ⟨_, physical, rest⟩ := bind_ok done
    obtain ⟨fileSize, sized, rest⟩ := bind_ok rest
    obtain ⟨_, _, rest⟩ := bind_ok rest
    cases physical
    cases rest
    rw [if_pos inside]
    exact ⟨rfl, rfl, elf32_toNat sized, rfl, rfl⟩
  · rename_i outside
    obtain ⟨_, physical, rest⟩ := bind_ok done
    obtain ⟨fileSize, sized, rest⟩ := bind_ok rest
    obtain ⟨_, _, rest⟩ := bind_ok rest
    cases rest
    rw [if_neg outside]
    exact ⟨mapError_ok (mapError_ok physical), rfl, elf32_toNat sized, rfl, rfl⟩

theorem packModuleSegment_ok {segment : ElfSegment} {packed : ModuleSegment × List U8}
    (done : (packModuleSegment segment : Built ObjectError _) = .ok packed) :
    packed.1.virtualAddress = ⟨segment.address⟩ ∧
      packed.1.fileSize.toNat = segment.bytes.length ∧ packed.1.memorySize = segment.memorySize ∧
      packed.1.flags = segment.flags ∧ packed.2 = segment.bytes := by
  obtain ⟨fileSize, sized, rest⟩ := bind_ok done
  obtain ⟨_, _, rest⟩ := bind_ok rest
  cases rest
  exact ⟨rfl, elf32_toNat sized, rfl, rfl, rfl⟩

/-- A packed module is that of its ELF. -/
theorem packModule_ok {input : ModuleInput} {packed : PackedModule}
    (done : packModule fileParse input = .ok packed) :
    ∃ entry segments records, parseElf fileParse input.elf = .ok (entry, segments) ∧
      List.Forall₂ (fun segment record =>
        (packModuleSegment segment : Built ObjectError _) = .ok record) segments records ∧
      packed = ⟨asBytes input.name, ⟨entry⟩,
        sortOn (fun segment => segment.1.virtualAddress.get.toNat) records⟩ := by
  obtain ⟨_, _, rest⟩ := bind_ok done
  obtain ⟨⟨entry, segments⟩, parsed, rest⟩ := bind_ok rest
  obtain ⟨records, all, rest⟩ := bind_ok rest
  obtain ⟨_, _, rest⟩ := bind_ok rest
  cases rest
  exact ⟨entry, segments, records, parsed, mapM_eq_ok.mp all, rfl⟩

/-- What a build that succeeds consists of. -/
structure Builds (fileParse : List U8 → Except ObjectError (ObjectFile ObjectError))
    (kernel : List U8) (modules : List ModuleInput) (image : SystemImage) (entry : U32)
    (segments : List ElfSegment) (packedKernel : List (KernelSegment × List U8))
    (packedModules : List PackedModule) : Prop where
  parsed : parseElf fileParse kernel = .ok (entry, segments)
  kernel : List.Forall₂ (fun segment record =>
    (packKernelSegment segment : Built ObjectError _) = .ok record) segments packedKernel
  modules : List.Forall₂ (fun input packed => packModule fileParse input = .ok packed) modules
    packedModules
  short : image.bytes.length ≤ 0x100_0000
  packed : image = packedImage ⟨entry⟩
    (sortOn (fun segment => segment.1.virtualAddress.get.toNat) packedKernel)
    (sortOn nameKey packedModules)
  roundTrips : RoundTrips ⟨entry⟩
    (sortOn (fun segment => segment.1.virtualAddress.get.toNat) packedKernel)
    (sortOn nameKey packedModules) image

theorem builds_of_build {kernel : List U8} {modules : List ModuleInput}
    (built : build fileParse kernel modules = .ok image) :
    ∃ entry segments packedKernel packedModules,
      Builds fileParse kernel modules image entry segments packedKernel packedModules := by
  obtain ⟨entry, segments, packedKernel, packedModules, parsed, packed, valid, all, names, done⟩ :=
    (build_eq_ok fileParse).mp built
  have kernelPacked := mapM_eq_ok.mp packed
  have packable : Packable ⟨entry⟩
      (sortOn (fun segment => segment.1.virtualAddress.get.toNat) packedKernel)
      (sortOn nameKey packedModules) := by
    refine ⟨entry_of_buildImage done, fun segment member => ?_, valid, fun module member => ?_, ?_⟩
    · rw [(sortOn_perm _ _).mem_iff] at member
      exact forall₂_right kernelPacked (fun _ _ => packKernelSegment_packed) segment member
    · rw [(sortOn_perm _ _).mem_iff] at member
      exact forall₂_right all (fun _ _ => packModule_packed) module member
    · have keys : packedModules.map nameKey =
          (packedModules.map PackedModule.name).map (List.map BitVec.toNat) := by
        rw [List.map_map]
        rfl
      rw [keys] at names
      exact ((sortOn_perm nameKey packedModules).map PackedModule.name).nodup_iff.mpr names.of_map
  have roundTrips := roundTrips_of_built packable done
  obtain ⟨stores, -⟩ := parse_eq_ok.mp roundTrips.accepted
  have short : image.bytes.length ≤ 0x100_0000 := stores.size.trans_le stores.headerValid.short
  have same := done.symm.trans (buildImage_packed packable (roundTrips.size ▸ short))
  exact ⟨entry, segments, packedKernel, packedModules, parsed, kernelPacked, all, short,
    Except.ok.inj same, roundTrips⟩

variable {kernel : List U8} {modules : List ModuleInput} {entry : U32} {segments : List ElfSegment}
  {packedKernel : List (KernelSegment × List U8)} {packedModules : List PackedModule}

/-- Every kernel segment of the image is that of an ELF segment. -/
theorem Builds.elfSegment (builds : Builds fileParse kernel modules image entry segments
    packedKernel packedModules) {segment : KernelSegment} (member : segment ∈ image.kernelSegments) :
    ∃ elf ∈ segments, loadAddress elf = .ok segment.physicalAddress ∧
      segment.fileSize.toNat = elf.bytes.length ∧ segment.memorySize = elf.memorySize := by
  obtain ⟨input, inside, kept⟩ := forall₂_left builds.roundTrips.kernelSegments.flip segment member
  rw [(sortOn_perm _ _).mem_iff] at inside
  obtain ⟨elf, among, packed⟩ := forall₂_left builds.kernel.flip input inside
  obtain ⟨address, -, fileSize, memorySize, -⟩ := packKernelSegment_ok packed
  have record := kept.record
  refine ⟨elf, among, address.trans (congrArg Except.ok ?_), ?_, ?_⟩
  · exact (congrArg KernelSegment.physicalAddress record).symm
  · rw [← fileSize, ← record]
  · rw [← memorySize, ← record]

/-- An empty payload is placed at the front of the image. -/
theorem Builds.empty (builds : Builds fileParse kernel modules image entry segments
    packedKernel packedModules) {segment : KernelSegment} (member : segment ∈ image.kernelSegments)
    (empty : segment.fileSize = 0) : segment.dataOffset = 0 := by
  rw [builds.packed] at member
  obtain ⟨placed, inside, rfl⟩ := List.mem_map.mp member
  have known : placed.2 ∈ packedKernel := by
    rw [← (sortOn_perm (fun segment => segment.1.virtualAddress.get.toNat) packedKernel).mem_iff]
    exact mem_of_mem_layOut inside
  obtain ⟨elf, -, packed⟩ := forall₂_left builds.kernel.flip placed.2 known
  obtain ⟨-, offset, fileSize, -, bytes⟩ := packKernelSegment_ok packed
  have none : placed.2.2 = [] := by
    have record := congrArg KernelSegment.fileSize (noteKernelData_record placed)
    rw [← record, empty] at fileSize
    rw [bytes]
    exact List.eq_nil_of_length_eq_zero fileSize.symm
  rw [noteKernelData, noteData, if_neg (not_not.mpr none)]
  exact offset

/-- The reference boot of a build that succeeds loads every segment of the kernel ELF. -/
theorem Builds.boots (builds : Builds fileParse kernel modules image entry segments packedKernel
    packedModules) (before : PhysicalMemory) :
    ∃ plan after, image.bootPlan = .ok plan ∧ plan.kernelEntryVaddr = ⟨entry⟩ ∧
      plan.apply PhysicalMemory.writeRange before = .ok after ∧
      Booted image.bytes image before after ∧
      ∀ segment ∈ segments, ∃ physical, LoadedAt after segment physical := by
  have parsed := builds.roundTrips.accepted
  have placed : ∀ segment ∈ image.kernelSegments, segment.fileSize = 0 →
      segment.dataOffset.toNat ≤ image.bytes.length := by
    intro segment member empty
    rw [builds.empty member empty]
    exact Nat.zero_le _
  obtain ⟨plan, after, planned, copies, encoded, applied, laid⟩ := apply_laid parsed placed before
  obtain ⟨length, decoded⟩ := BootInfo.encode_inv encoded
  have booted : Booted image.bytes image before after := .of_laid copies length decoded laid
  refine ⟨plan, after, planned, ?_, applied, booted, fun segment member => ?_⟩
  · exact (bootPlan_eq_ok.mp planned).kernelEntryVaddr.trans builds.roundTrips.entry
  · obtain ⟨input, packedIn, packed⟩ := forall₂_left builds.kernel segment member
    obtain ⟨address, -, fileSize, memorySize, bytes⟩ := packKernelSegment_ok packed
    have sorted := (sortOn_perm (fun segment : KernelSegment × List U8 =>
      segment.1.virtualAddress.get.toNat) packedKernel).mem_iff.mpr packedIn
    obtain ⟨record, inside, kept⟩ :=
      forall₂_left builds.roundTrips.kernelSegments input sorted
    have start : record.physicalAddress = input.1.physicalAddress := by rw [← kept.record]
    have size : record.fileSize.toNat = segment.bytes.length := by rw [← fileSize, ← kept.record]
    have whole : record.memorySize = segment.memorySize := by rw [← memorySize, ← kept.record]
    refine ⟨input.1.physicalAddress, address, fun index bound => ?_,
      fun index initialized bound => ?_⟩
    · have some : input.2 ≠ [] := by
        rw [bytes]
        exact List.ne_nil_of_length_pos (Nat.zero_lt_of_lt bound)
      have cell := getElem?_slice (kept.payload some) index
      have loaded := booted.loaded record inside index (size ▸ bound)
      rw [if_pos (by rw [bytes]; omega), loaded, start] at cell
      rw [← Option.some.injEq, ← cell, bytes, List.getElem?_eq_getElem bound]
    · rw [← start]
      exact booted.cleared record inside index (size ▸ initialized) (whole ▸ bound)

/-! ### The modules of a build -/

/-- The ROM holds a row of a table whose record is stored in the image. -/
theorem rowHolds_of_stored (shows : ShowsImage memory image)
    (short : image.bytes.length ≤ 0x100_0000) {decode : List U8 → Except PlatformError Record}
    {table : U32} {index : Nat} {record : Record}
    (inside : table.toNat + index * 32 + 32 ≤ image.bytes.length)
    (decodes : ∀ part, slice? image.bytes (table.toNat + index * 32)
      (table.toNat + index * 32 + 32) = some part → decode part = .ok record) :
    RowHolds memory decode table index record := by
  have read := slice?_of_fits image.bytes (Nat.le_add_right (table.toNat + index * 32) 32) inside
  refine ⟨_, ?_, romHolds_slice shows short read, decodes _ read⟩
  rw [length_of_slice? read, Nat.add_sub_cancel_left]

/-- A segment of a module is carried by the row that stores it. -/
theorem segmentCarried (shows : ShowsImage memory image)
    (short : image.bytes.length ≤ 0x100_0000) {segment : ElfSegment}
    {input : ModuleSegment × List U8}
    (packed : (packModuleSegment segment : Built ObjectError _) = .ok input)
    {stored : ModuleSegment} (kept : ModuleSegmentKept image.bytes input stored) {table : U32}
    {index : Nat} (stores : StoresModuleSegment image.bytes table index stored) :
    SegmentCarried memory table index segment stored := by
  obtain ⟨address, fileSize, memorySize, flags, bytes⟩ := packModuleSegment_ok packed
  refine ⟨rowHolds_of_stored shows short stores.inside fun part read =>
    (ModuleSegment.decode_slice read).mpr ⟨stores.reserved, stores.fields, stores.valid⟩,
    ?_, ?_, ?_, ?_, fun index bound => ?_⟩
  · rw [← address, ← kept.record]
  · rw [← fileSize, ← kept.record]
  · rw [← memorySize, ← kept.record]
  · rw [← flags, ← kept.record]
  · have some : input.2 ≠ [] := by
      rw [bytes]
      exact List.ne_nil_of_length_pos (Nat.zero_lt_of_lt bound)
    have payload := kept.payload some
    rw [bytes] at payload
    exact romHolds_slice shows short payload index bound

/-- Every module that was packaged is carried by a row of the module table. -/
theorem Builds.carries (builds : Builds fileParse kernel modules image entry segments packedKernel
    packedModules) (shows : ShowsImage memory image) {input : ModuleInput}
    (member : input ∈ modules) :
    ∃ entry segments, parseElf fileParse input.elf = .ok (entry, segments) ∧
      ∃ index < image.header.moduleCount.toNat, ∃ record,
        ModuleCarried memory image.header.moduleTableOffset index input entry segments record := by
  obtain ⟨packed, inside, done⟩ := forall₂_left builds.modules input member
  obtain ⟨entry, segments, records, parsed, all, rfl⟩ := packModule_ok done
  have sorted := (sortOn_perm nameKey packedModules).mem_iff.mpr inside
  obtain ⟨module, found, kept⟩ := forall₂_left builds.roundTrips.modules _ sorted
  obtain ⟨stored, -⟩ := parse_eq_ok.mp builds.roundTrips.accepted
  obtain ⟨index, within, stores⟩ := forall₂_left stored.modules.flip module found
  have counted : module.record.segmentCount.toNat = segments.length := by
    have places := stores.segments.length_eq
    rw [List.length_range] at places
    rw [places, ← kept.segments.length_eq, (sortOn_perm _ _).length_eq, all.length_eq]
  refine ⟨entry, segments, parsed, index, List.mem_range.mp within, module.record, ?_⟩
  obtain ⟨nameBytes, nameRead, decoded⟩ := stores.name
  have named : nameBytes = asBytes input.name :=
    (asBytes_of_fromUtf8 decoded).symm.trans kept.name
  have short := builds.short
  refine ⟨rowHolds_of_stored shows short stores.inside fun part read =>
    (ModuleRecord.decode_slice read).mpr ⟨stores.flags, stores.reserved, stores.fields⟩,
    ?_, ?_, kept.entry, counted, fun segment among => ?_⟩
  · rw [← named, length_of_slice? nameRead, Nat.add_sub_cancel_left]
  · rw [← named]
    exact romHolds_slice shows short nameRead
  · obtain ⟨record, packedIn, packed⟩ := forall₂_left all segment among
    have ordered := (sortOn_perm (fun segment : ModuleSegment × List U8 =>
      segment.1.virtualAddress.get.toNat) records).mem_iff.mpr packedIn
    obtain ⟨row, rowIn, keptRow⟩ := forall₂_left kept.segments record ordered
    obtain ⟨place, placeIn, rowStores⟩ := forall₂_left stores.segments.flip row rowIn
    rw [List.mem_range, counted] at placeIn
    exact ⟨place, placeIn, row, segmentCarried shows short packed keptRow rowStores⟩

/-- What the guest finds after the boot of a package: the kernel loaded and nothing else touched,
and a boot info that leads to every module. -/
structure Handoff (fileParse : List U8 → Except ObjectError (ObjectFile ObjectError))
    (segments : List ElfSegment) (modules : List ModuleInput) (before after : PhysicalMemory)
    (info : BootInfo) : Prop where
  kernel : ∀ segment ∈ segments, ∃ physical, LoadedAt after segment physical
  elsewhere : ∀ address, (∀ segment ∈ segments, ∀ physical, loadAddress segment = .ok physical →
      address ∉ Set.Ico physical.get.toNat (physical.get.toNat + segment.memorySize.toNat)) →
    address ∉ Set.Ico 0x4000_7000 0x4000_7040 → after.ramByte address = before.ramByte address
  bootInfo : BootInfo.decode ((List.range 64).map fun index => after.ramByte (0x4000_7000 + index))
    = .ok info
  systemRom : info.systemRomBase.get = 0x800_0000
  moduleCount : info.moduleCount.toNat = modules.length
  modules : ∀ input ∈ modules, ∃ entry segments, parseElf fileParse input.elf = .ok (entry, segments) ∧
    ∃ index < modules.length, ∃ record,
      ModuleCarried after info.moduleTableOffset index input entry segments record

end Records

/-- Whatever is packaged with success boots: with the image in the System ROM, the reference boot
never fails, hands over to the entry of the kernel ELF, leaves each of its segments where it was
linked, cleared up to its memory size, and the rest of RAM as it was, and from the boot info every
module is found with its name, its entry and the bytes of all its segments. -/
theorem packaged_boot {ObjectError : Type}
    (fileParse : List U8 → Except ObjectError (ObjectFile ObjectError)) (kernel : List U8)
    (modules : List ModuleInput) (image : SystemImage)
    (built : build fileParse kernel modules = .ok image) (before : PhysicalMemory)
    (shows : ShowsImage before image) :
    ∃ entry segments, parseElf fileParse kernel = .ok (entry, segments) ∧
      parse image.bytes = .ok image ∧
      ∃ plan after info, image.bootPlan = .ok plan ∧ plan.kernelEntryVaddr = ⟨entry⟩ ∧
        plan.apply PhysicalMemory.writeRange before = .ok after ∧
        Handoff fileParse segments modules before after info := by
  obtain ⟨entry, segments, packedKernel, packedModules, builds⟩ := builds_of_build built
  obtain ⟨plan, after, planned, handed, applied, booted, loaded⟩ := builds.boots before
  have shown : ShowsImage after image := by
    intro index
    rw [booted.systemRom]
    exact shows index
  have counted : image.header.moduleCount.toNat = modules.length := by
    rw [builds.roundTrips.moduleCount, (sortOn_perm _ _).length_eq, builds.modules.length_eq]
  refine ⟨entry, segments, builds.parsed, builds.roundTrips.accepted, plan, after, _, planned, handed,
    applied, loaded, fun address outside away => ?_, booted.bootInfo, rfl, counted,
    fun input member => ?_⟩
  · refine booted.elsewhere address (fun segment member => ?_) away
    obtain ⟨elf, among, physical, -, size⟩ := builds.elfSegment member
    have clear := outside elf among _ physical
    rwa [← size] at clear
  · obtain ⟨entry, segments, parsed, index, within, record, carried⟩ := builds.carries shown member
    exact ⟨entry, segments, parsed, index, counted ▸ within, record, carried⟩

end Minemu.Image
