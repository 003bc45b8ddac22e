import Minemu.Library.Fallible
import Minemu.Library.Fields
import Minemu.Platform.Address

/-! The records of a system image and the boot-info record, with their wire codecs. -/

namespace Minemu.Platform

open Library

def abiVersion : U16 := 1
def imageMagic : U32 := 0x4d45_4d55
def bootInfoMagic : U32 := 0x4d42_4f4f
def imageHeaderSize : Nat := 64
def kernelSegmentSize : Nat := 32
def moduleRecordSize : Nat := 32
def moduleSegmentSize : Nat := 32
def bootInfoSize : Nat := 64
def segmentFlagsMask : U32 := 0x7

/-! ### Fields -/

def requireLength (bytes : List U8) (expected : Nat) : Except PlatformError Unit :=
  require (¬ bytes.length < expected) (.invalidImageLength expected bytes.length)

/-- `bytes.get(offset..end)` of a reader. -/
def readBytes (bytes : List U8) (offset width : Nat) : Except PlatformError (List U8) :=
  match slice? bytes offset (offset + width) with
  | some part => .ok part
  | none => .error (.invalidImageLength (offset + width) bytes.length)

def readU16 (bytes : List U8) (offset : Nat) : Except PlatformError U16 :=
  (readBytes bytes offset 2).map fun part => BitVec.ofNat 16 (littleEndian part)

def readU32 (bytes : List U8) (offset : Nat) : Except PlatformError U32 :=
  (readBytes bytes offset 4).map fun part => BitVec.ofNat 32 (littleEndian part)

def reservedZero (bytes : List U8) (offset length : Nat) : Except PlatformError Bool :=
  (readBytes bytes offset length).map fun part => part.all (· == 0)

def writeU16 (bytes : List U8) (offset : Nat) (value : U16) : List U8 :=
  patch bytes offset (toBytes 2 value.toNat)

def writeU32 (bytes : List U8) (offset : Nat) (value : U32) : List U8 :=
  patch bytes offset (toBytes 4 value.toNat)

def validateTable (offset count : U32) (recordSize : Nat) (imageSize : U32) :
    Except PlatformError Unit :=
  require (¬ offset.toNat + count.toNat * recordSize > imageSize.toNat) .imageTableOutsideImage

/-! ### The image header -/

/-- Fixed-width system-ROM image header. -/
structure ImageHeader where
  imageSize : U32
  kernelSegmentTableOffset : U32
  kernelSegmentCount : U32
  moduleTableOffset : U32
  moduleCount : U32
  bootstrapEntryPaddr : PhysicalAddress
  kernelEntryVaddr : VirtualAddress
  bootInfoPaddr : PhysicalAddress
deriving DecidableEq

namespace ImageHeader

/-- Validates static header fields and table bounds. -/
def validate (header : ImageHeader) : Except PlatformError Unit := do
  require (¬ (header.imageSize.toNat < imageHeaderSize ∨
    header.imageSize.toNat > MemRegion.systemRom.size.toNat)) (.invalidImageField "image size")
  require (header.bootstrapEntryPaddr.get = Platform.bootstrapEntryPaddr)
    (.invalidImageField "bootstrap entry")
  require (header.bootInfoPaddr.get = Platform.bootInfoPaddr)
    (.invalidImageField "boot info address")
  let _ ← directMapPhysical header.kernelEntryVaddr
  validateTable header.kernelSegmentTableOffset header.kernelSegmentCount kernelSegmentSize
    header.imageSize
  validateTable header.moduleTableOffset header.moduleCount moduleRecordSize header.imageSize

/-- Decodes and validates a fixed-width image header. -/
def decode (bytes : List U8) : Except PlatformError ImageHeader := do
  requireLength bytes imageHeaderSize
  require ((← readU32 bytes 0) = imageMagic) (.invalidImageField "magic")
  require ((← readU16 bytes 4) = abiVersion) (.invalidImageField "version")
  require ((← readU16 bytes 6) = BitVec.ofNat 16 imageHeaderSize) (.invalidImageField "header size")
  let flags ← readU32 bytes 40
  let reserved ← reservedZero bytes 44 20
  require (flags = 0 ∧ reserved = true) (.invalidImageField "reserved header bits")
  let header : ImageHeader :=
    { imageSize := ← readU32 bytes 8
      kernelSegmentTableOffset := ← readU32 bytes 12
      kernelSegmentCount := ← readU32 bytes 16
      moduleTableOffset := ← readU32 bytes 20
      moduleCount := ← readU32 bytes 24
      bootstrapEntryPaddr := ⟨← readU32 bytes 28⟩
      kernelEntryVaddr := ⟨← readU32 bytes 32⟩
      bootInfoPaddr := ⟨← readU32 bytes 36⟩ }
  header.validate
  return header

def encode (header : ImageHeader) : Except PlatformError (List U8) := do
  header.validate
  let bytes := List.replicate imageHeaderSize 0
  let bytes := writeU32 bytes 0 imageMagic
  let bytes := writeU16 bytes 4 abiVersion
  let bytes := writeU16 bytes 6 (BitVec.ofNat 16 imageHeaderSize)
  let bytes := writeU32 bytes 8 header.imageSize
  let bytes := writeU32 bytes 12 header.kernelSegmentTableOffset
  let bytes := writeU32 bytes 16 header.kernelSegmentCount
  let bytes := writeU32 bytes 20 header.moduleTableOffset
  let bytes := writeU32 bytes 24 header.moduleCount
  let bytes := writeU32 bytes 28 header.bootstrapEntryPaddr.get
  let bytes := writeU32 bytes 32 header.kernelEntryVaddr.get
  let bytes := writeU32 bytes 36 header.bootInfoPaddr.get
  return bytes

end ImageHeader

/-! ### Kernel segments -/

/-- A kernel segment record stored in system ROM. -/
structure KernelSegment where
  dataOffset : U32
  physicalAddress : PhysicalAddress
  virtualAddress : VirtualAddress
  fileSize : U32
  memorySize : U32
  flags : U32
deriving DecidableEq

namespace KernelSegment

/-- Whether the virtual address is the direct-map alias of the physical one. -/
def highHalfMatches (segment : KernelSegment) : Bool :=
  match directMapPhysical segment.virtualAddress with
  | .ok physical => physical = segment.physicalAddress
  | .error _ => false

/-- Validates segment sizes and flags. -/
def validate (segment : KernelSegment) : Except PlatformError Unit := do
  require (¬ (segment.memorySize = 0 ∨ segment.fileSize.toNat > segment.memorySize.toNat))
    (.invalidImageField "kernel segment size")
  require (segment.flags &&& ~~~segmentFlagsMask = 0) (.invalidImageField "kernel segment flags")
  let physicalRange ← PhysicalRange.new segment.physicalAddress segment.memorySize
  require (MemRegion.ram.range.containsRange physicalRange = true)
    (.invalidImageField "kernel segment physical range")
  require (¬ (segment.virtualAddress.get ≠ segment.physicalAddress.get ∧
    segment.highHalfMatches = false)) (.invalidImageField "kernel segment virtual mapping")

/-- Decodes and validates one kernel-segment record. -/
def decode (bytes : List U8) : Except PlatformError KernelSegment := do
  requireLength bytes kernelSegmentSize
  require ((← reservedZero bytes 24 8) = true) (.invalidImageField "kernel segment reserved bits")
  let segment : KernelSegment :=
    { dataOffset := ← readU32 bytes 0
      physicalAddress := ⟨← readU32 bytes 4⟩
      virtualAddress := ⟨← readU32 bytes 8⟩
      fileSize := ← readU32 bytes 12
      memorySize := ← readU32 bytes 16
      flags := ← readU32 bytes 20 }
  segment.validate
  return segment

def encode (segment : KernelSegment) : Except PlatformError (List U8) := do
  segment.validate
  let bytes := List.replicate kernelSegmentSize 0
  let bytes := writeU32 bytes 0 segment.dataOffset
  let bytes := writeU32 bytes 4 segment.physicalAddress.get
  let bytes := writeU32 bytes 8 segment.virtualAddress.get
  let bytes := writeU32 bytes 12 segment.fileSize
  let bytes := writeU32 bytes 16 segment.memorySize
  let bytes := writeU32 bytes 20 segment.flags
  return bytes

end KernelSegment

/-! ### Modules -/

/-- A fixed-address user-module record stored in system ROM. -/
structure ModuleRecord where
  nameOffset : U32
  nameLength : U32
  segmentTableOffset : U32
  segmentCount : U32
  entryVirtualAddress : VirtualAddress
deriving DecidableEq

namespace ModuleRecord

/-- Decodes and validates one module record. -/
def decode (bytes : List U8) : Except PlatformError ModuleRecord := do
  requireLength bytes moduleRecordSize
  let flags ← readU32 bytes 20
  let reserved ← reservedZero bytes 24 8
  require (flags = 0 ∧ reserved = true) (.invalidImageField "module reserved bits")
  return { nameOffset := ← readU32 bytes 0
           nameLength := ← readU32 bytes 4
           segmentTableOffset := ← readU32 bytes 8
           segmentCount := ← readU32 bytes 12
           entryVirtualAddress := ⟨← readU32 bytes 16⟩ }

def encode (record : ModuleRecord) : List U8 :=
  let bytes := List.replicate moduleRecordSize 0
  let bytes := writeU32 bytes 0 record.nameOffset
  let bytes := writeU32 bytes 4 record.nameLength
  let bytes := writeU32 bytes 8 record.segmentTableOffset
  let bytes := writeU32 bytes 12 record.segmentCount
  let bytes := writeU32 bytes 16 record.entryVirtualAddress.get
  bytes

end ModuleRecord

/-- A module segment record whose physical frame is chosen by the kernel. -/
structure ModuleSegment where
  dataOffset : U32
  virtualAddress : VirtualAddress
  fileSize : U32
  memorySize : U32
  flags : U32
deriving DecidableEq

namespace ModuleSegment

/-- Validates segment sizes and flags. -/
def validate (segment : ModuleSegment) : Except PlatformError Unit :=
  require (¬ (segment.memorySize = 0 ∨ segment.fileSize.toNat > segment.memorySize.toNat ∨
    segment.flags &&& ~~~segmentFlagsMask ≠ 0)) (.invalidImageField "module segment")

/-- Decodes and validates one module-segment record. -/
def decode (bytes : List U8) : Except PlatformError ModuleSegment := do
  requireLength bytes moduleSegmentSize
  require ((← reservedZero bytes 20 12) = true) (.invalidImageField "module segment reserved bits")
  let segment : ModuleSegment :=
    { dataOffset := ← readU32 bytes 0
      virtualAddress := ⟨← readU32 bytes 4⟩
      fileSize := ← readU32 bytes 8
      memorySize := ← readU32 bytes 12
      flags := ← readU32 bytes 16 }
  segment.validate
  return segment

def encode (segment : ModuleSegment) : Except PlatformError (List U8) := do
  segment.validate
  let bytes := List.replicate moduleSegmentSize 0
  let bytes := writeU32 bytes 0 segment.dataOffset
  let bytes := writeU32 bytes 4 segment.virtualAddress.get
  let bytes := writeU32 bytes 8 segment.fileSize
  let bytes := writeU32 bytes 12 segment.memorySize
  let bytes := writeU32 bytes 16 segment.flags
  return bytes

end ModuleSegment

/-! ### Boot info -/

/-- The fixed-width boot-info record written by boot ROM. -/
structure BootInfo where
  systemRomBase : PhysicalAddress
  imageSize : U32
  moduleTableOffset : U32
  moduleCount : U32
deriving DecidableEq

namespace BootInfo

/-- Decodes and validates boot info. -/
def decode (bytes : List U8) : Except PlatformError BootInfo := do
  requireLength bytes bootInfoSize
  require ((← readU32 bytes 0) = bootInfoMagic ∧ (← readU16 bytes 4) = abiVersion ∧
    (← readU16 bytes 6) = BitVec.ofNat 16 bootInfoSize ∧ (← readU32 bytes 36) = 0 ∧
    (← reservedZero bytes 40 24) = true) (.invalidImageField "boot info header")
  let info : BootInfo :=
    { systemRomBase := ⟨← readU32 bytes 8⟩
      imageSize := ← readU32 bytes 12
      moduleTableOffset := ← readU32 bytes 16
      moduleCount := ← readU32 bytes 20 }
  require (info.systemRomBase = MemRegion.systemRom.base ∧
    (← readU32 bytes 24) = 0xc000_0000 ∧ (← readU32 bytes 28) = MemRegion.ram.base.get ∧
    (← readU32 bytes 32) = MemRegion.ram.size) (.invalidImageField "boot info mapping")
  return info

def encode (info : BootInfo) : Except PlatformError (List U8) := do
  require (¬ (info.systemRomBase ≠ MemRegion.systemRom.base ∨
    info.imageSize.toNat > MemRegion.systemRom.size.toNat)) (.invalidImageField "boot info")
  let bytes := List.replicate bootInfoSize 0
  let bytes := writeU32 bytes 0 bootInfoMagic
  let bytes := writeU16 bytes 4 abiVersion
  let bytes := writeU16 bytes 6 (BitVec.ofNat 16 bootInfoSize)
  let bytes := writeU32 bytes 8 info.systemRomBase.get
  let bytes := writeU32 bytes 12 info.imageSize
  let bytes := writeU32 bytes 16 info.moduleTableOffset
  let bytes := writeU32 bytes 20 info.moduleCount
  let bytes := writeU32 bytes 24 0xc000_0000
  let bytes := writeU32 bytes 28 MemRegion.ram.base.get
  let bytes := writeU32 bytes 32 MemRegion.ram.size
  return bytes

end BootInfo

end Minemu.Platform
