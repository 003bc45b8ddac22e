import Minemu.Image.Format
import Minemu.Library.Sorting

/-! Packaging of a kernel and its user modules out of ELF inputs. -/

namespace Minemu.Image

open Library Platform

/-! ### ELF inputs -/

/-- What the `object` crate shows of a segment. -/
structure ObjectSegment (ObjectError : Type) where
  address : BitVec 64
  size : BitVec 64
  data : Except ObjectError (List U8)
  readable : Bool
  writable : Bool
  executable : Bool

/-- What the `object` crate shows of a file. -/
structure ObjectFile (ObjectError : Type) where
  isElf : Bool
  isArm : Bool
  isExecutable : Bool
  isLittleEndian : Bool
  /-- How many relocations each section has. -/
  sectionRelocations : List Nat
  dynamicRelocations : Option Nat
  segments : List (ObjectSegment ObjectError)
  entry : BitVec 64

/-- Errors of a build. -/
inductive BuildFailure (ObjectError : Type) where
  | elf (error : ObjectError)
  | invalidElf (detail : String)
  | image (failure : Failure)

abbrev Built (ObjectError : Type) (α : Type) := Except (BuildFailure ObjectError) α

/-- A loadable ELF segment normalized for image construction. -/
structure ElfSegment where
  address : U32
  bytes : List U8
  memorySize : U32
  flags : U32

/-- One independently linked fixed-address user ELF supplied to the packer. -/
structure ModuleInput where
  name : String
  elf : List U8

section Building

variable {ObjectError : Type}

def ofImage (result : Outcome α) : Built ObjectError α := result.mapError .image

/-- `u32::try_from(value).map_err(|_| ImageError::InvalidElf(detail))`. -/
def elf32 (value : Nat) (detail : String) : Built ObjectError U32 := do
  require (value < 2 ^ 32) (.invalidElf detail)
  return BitVec.ofNat 32 value

def permissionFlags (segment : ObjectSegment ObjectError) : U32 :=
  BitVec.ofNat 32 segment.readable.toNat ||| BitVec.ofNat 32 segment.writable.toNat <<< 1 |||
    BitVec.ofNat 32 segment.executable.toNat <<< 2

/-- One turn of the loop over the segments of a file. -/
def parseElfSegment (segments : List ElfSegment) (segment : ObjectSegment ObjectError) :
    Built ObjectError (List ElfSegment) :=
  if segment.size = 0 then return segments
  else do
    let address ← elf32 segment.address.toNat "segment address"
    let memorySize ← elf32 segment.size.toNat "segment memory size"
    require (¬ address.toNat + memorySize.toNat > 2 ^ 32) (.invalidElf "segment range")
    let bytes ← segment.data.mapError .elf
    require (¬ bytes.length > memorySize.toNat) (.invalidElf "segment file size")
    return segments ++ [{ address, bytes, memorySize, flags := permissionFlags segment }]

variable (fileParse : List U8 → Except ObjectError (ObjectFile ObjectError))

def parseElf (bytes : List U8) : Built ObjectError (U32 × List ElfSegment) := do
  let file ← (fileParse bytes).mapError .elf
  require (file.isElf = true ∧ file.isArm = true ∧ file.isExecutable = true ∧
    file.isLittleEndian = true) (.invalidElf "expected a little-endian ARM executable ELF")
  require (¬ (file.sectionRelocations.any (0 < ·) = true ∨
    file.dynamicRelocations.any (0 < ·) = true)) (.invalidElf "relocations are unsupported")
  let segments ← file.segments.foldlM parseElfSegment []
  require (segments.isEmpty = false) (.invalidElf "no loadable segments")
  let entry ← elf32 file.entry.toNat "entry"
  return (entry, segments)

/-! ### The builder -/

/-- One turn of the loop over the kernel segments. -/
def packKernelSegment (segment : ElfSegment) : Built ObjectError (KernelSegment × List U8) := do
  let virtualAddress : VirtualAddress := ⟨segment.address⟩
  let physicalAddress ←
    if MemRegion.ram.range.containsAddress ⟨segment.address⟩ then
      pure (⟨segment.address⟩ : PhysicalAddress)
    else ofImage (platform (directMapPhysical virtualAddress))
  let record : KernelSegment :=
    { dataOffset := 0
      physicalAddress
      virtualAddress
      fileSize := ← elf32 segment.bytes.length "kernel segment size"
      memorySize := segment.memorySize
      flags := segment.flags }
  ofImage (platform record.validate)
  return (record, segment.bytes)

/-- One turn of the loop over the segments of a module. -/
def packModuleSegment (segment : ElfSegment) : Built ObjectError (ModuleSegment × List U8) := do
  let record : ModuleSegment :=
    { dataOffset := 0
      virtualAddress := ⟨segment.address⟩
      fileSize := ← elf32 segment.bytes.length "module segment size"
      memorySize := segment.memorySize
      flags := segment.flags }
  ofImage (platform record.validate)
  return (record, segment.bytes)

def validateKernelSegments (segments : List (KernelSegment × List U8)) (entry : VirtualAddress) :
    Except ImageError Unit := validateKernelRecords (segments.map Prod.fst) entry

def validateModuleSegments (segments : List (ModuleSegment × List U8)) (entry : VirtualAddress) :
    Except ImageError Unit := validateModuleRecords (segments.map Prod.fst) entry

/-- `str::as_bytes`. -/
def asBytes (name : String) : List U8 := name.toUTF8.data.toList.map UInt8.toBitVec

/-- One turn of the loop over the modules. -/
def packModule (input : ModuleInput) : Built ObjectError PackedModule := do
  require (input.name.isEmpty = false) (.image (invalid "module name"))
  let (entry, segments) ← parseElf fileParse input.elf
  let records ← segments.mapM packModuleSegment
  let records := sortOn (fun segment => segment.1.virtualAddress.get.toNat) records
  ofImage ((validateModuleSegments records ⟨entry⟩).mapError .returned)
  return { name := asBytes input.name, entry := ⟨entry⟩, segments := records }

/-- Names are compared byte by byte. -/
def nameKey (module : PackedModule) : List Nat := module.name.map BitVec.toNat

/-- Canonically packages a kernel ELF and zero or more user-module ELFs. -/
def build (kernel : List U8) (modules : List ModuleInput) : Built ObjectError SystemImage := do
  let (kernelEntry, kernelSegments) ← parseElf fileParse kernel
  let packedKernel ← kernelSegments.mapM packKernelSegment
  let packedKernel := sortOn (fun segment => segment.1.virtualAddress.get.toNat) packedKernel
  ofImage ((validateKernelSegments packedKernel ⟨kernelEntry⟩).mapError .returned)
  let packedModules ← modules.mapM (packModule fileParse)
  let packedModules := sortOn nameKey packedModules
  require (adjacentSame nameKey packedModules = false)
    (.image (invalid "duplicate module name"))
  ofImage (buildImage ⟨kernelEntry⟩ packedKernel packedModules)

/-! ### Names -/

/-- A name that is decoded spells its bytes. -/
theorem asBytes_of_fromUtf8 {bytes : List U8} {name : String}
    (decoded : fromUtf8 bytes = some name) : asBytes name = bytes := by
  unfold fromUtf8 String.fromUTF8? at decoded
  split at decoded
  · cases decoded
    change (bytes.map UInt8.ofBitVec).map UInt8.toBitVec = bytes
    rw [List.map_map]
    exact List.map_id bytes
  · cases decoded

theorem fromUtf8_asBytes (name : String) : fromUtf8 (asBytes name) = some name := by
  have same : (asBytes name).map UInt8.ofBitVec = name.toUTF8.data.toList := by
    rw [asBytes, List.map_map]
    exact List.map_id _
  rw [fromUtf8, same, Array.toArray_toList]
  exact dif_pos name.isValidUTF8

theorem asBytes_injective : Function.Injective asBytes := by
  intro name other same
  have decoded := congrArg fromUtf8 same
  rw [fromUtf8_asBytes, fromUtf8_asBytes] at decoded
  exact Option.some.inj decoded

/-! ### The order of the modules -/

/-- The modules of a successful build under distinct names, in the order of their names. -/
theorem build_eq_ok {kernel : List U8} {modules : List ModuleInput} {image : SystemImage} :
    build fileParse kernel modules = .ok image ↔
      ∃ entry segments packedKernel packedModules,
        parseElf fileParse kernel = .ok (entry, segments) ∧
        (segments.mapM packKernelSegment : Built ObjectError _) = .ok packedKernel ∧
        validateKernelSegments (sortOn (fun segment => segment.1.virtualAddress.get.toNat)
          packedKernel) ⟨entry⟩ = .ok () ∧
        List.Forall₂ (fun input packed => packModule fileParse input = .ok packed) modules
          packedModules ∧
        (packedModules.map nameKey).Nodup ∧
        buildImage ⟨entry⟩ (sortOn (fun segment => segment.1.virtualAddress.get.toNat) packedKernel)
          (sortOn nameKey packedModules) = .ok image := by
  have distinct (packed : List PackedModule) :
      adjacentSame nameKey (sortOn nameKey packed) = false ↔ (packed.map nameKey).Nodup := by
    rw [adjacentSame_eq_false (sortOn_sorted nameKey packed)]
    exact ((sortOn_perm nameKey packed).map nameKey).nodup_iff
  simp only [build, ofImage, bind_eq_ok, mapError_eq_ok, require_eq_ok, mapM_eq_ok, distinct,
    exists_const, Prod.exists]
  constructor
  · rintro ⟨entry, segments, parsed, packedKernel, packed, _, valid, packedModules, all, names, done⟩
    exact ⟨entry, segments, packedKernel, packedModules, parsed, packed, valid, all, names, done⟩
  · rintro ⟨entry, segments, packedKernel, packedModules, parsed, packed, valid, all, names, done⟩
    exact ⟨entry, segments, parsed, packedKernel, packed, (), valid, packedModules, all, names, done⟩

/-- A successful build does not depend on the order of its modules. -/
theorem build_perm {kernel : List U8} {modules other : List ModuleInput} {image : SystemImage}
    (perm : modules.Perm other) (built : build fileParse kernel modules = .ok image) :
    build fileParse kernel other = .ok image := by
  obtain ⟨entry, segments, packedKernel, packedModules, parsed, packed, valid, all, names, done⟩ :=
    (build_eq_ok fileParse).mp built
  obtain ⟨reordered, all', perm'⟩ := List.perm_comp_forall₂ perm.symm all
  have same : sortOn nameKey packedModules = sortOn nameKey reordered :=
    sortOn_congr perm'.symm names
  refine (build_eq_ok fileParse).mpr ⟨entry, segments, packedKernel, reordered, parsed, packed,
    valid, all', (perm'.map nameKey).nodup_iff.mpr names, ?_⟩
  rw [← same]
  exact done

/-- Packaging gives one result for all orders of the modules: the same image, or no image. -/
theorem build_order (kernel : List U8) {modules other : List ModuleInput}
    (perm : modules.Perm other) :
    (build fileParse kernel modules).toOption = (build fileParse kernel other).toOption := by
  cases built : build fileParse kernel modules with
  | ok image => rw [build_perm fileParse perm built]
  | error failure =>
    cases built' : build fileParse kernel other with
    | ok image => cases built.symm.trans (build_perm fileParse perm.symm built')
    | error failure' => rfl

end Building

/-- An ELF file with one segment of one word. -/
def elfBytes (address word : U32) : List U8 :=
  ([0x464c_457f, 0x0001_0101, 0, 0, 0x0028_0002, 1, address, 52, 0, 0, 0x0020_0034, 1, 0,
    1, 0x100, address, address, 4, 4, 5, 4] ++ List.replicate 43 0 ++ [word]).flatMap
      fun word : U32 => toBytes 4 word.toNat

/-- What the `object` crate shows of it. -/
def elfFile (address word : U32) : ObjectFile Unit where
  isElf := true
  isArm := true
  isExecutable := true
  isLittleEndian := true
  sectionRelocations := []
  dynamicRelocations := none
  segments := [⟨address.setWidth 64, 4, .ok (toBytes 4 word.toNat), true, false, true⟩]
  entry := address.setWidth 64

def elfParse (bytes : List U8) : Except Unit (ObjectFile Unit) :=
  if bytes = elfBytes 0xc000_8000 0 then .ok (elfFile 0xc000_8000 0)
  else if bytes = elfBytes 0x0040_0000 1 then .ok (elfFile 0x0040_0000 1)
  else .error ()

theorem build_order_swap :
    (build elfParse (elfBytes 0xc000_8000 0)
        [⟨"shell", elfBytes 0x0040_0000 1⟩, ⟨"init", elfBytes 0x0040_0000 1⟩]).toOption =
      (build elfParse (elfBytes 0xc000_8000 0)
        [⟨"init", elfBytes 0x0040_0000 1⟩, ⟨"shell", elfBytes 0x0040_0000 1⟩]).toOption :=
  build_order elfParse (elfBytes 0xc000_8000 0) (.swap _ _ _)

end Minemu.Image
