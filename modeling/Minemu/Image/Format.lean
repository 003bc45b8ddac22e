import Minemu.Image.Validation
import Minemu.Library.Spans

/-! System-ROM images: the parser and the packer. -/

namespace Minemu.Image

open Library Platform

/-- How a call can end other than by returning a value: with an error, or with a panic. -/
inductive Failure where
  | returned (error : ImageError)
  | sliceOutOfRange
  | arithmeticOverflow
deriving DecidableEq

abbrev Outcome (α : Type) := Except Failure α

def Failure.Panics : Failure → Prop
  | .returned _ => False
  | _ => True

def invalid (detail : String) : Failure := .returned (.invalidImage detail)

/-- The `?` on a platform error. -/
def platform (result : Except PlatformError α) : Outcome α :=
  result.mapError fun error => .returned (.platform error)

/-- `bytes[start..stop]`. -/
def sliced (bytes : List U8) (start stop : Nat) : Outcome (List U8) :=
  match slice? bytes start stop with
  | some part => .ok part
  | none => .error .sliceOutOfRange

/-- `bytes[start..].copy_from_slice(data)` on as many bytes. -/
def copied (bytes : List U8) (start : Nat) (data : List U8) : Outcome (List U8) :=
  match overwrite? bytes start data with
  | some bytes => .ok bytes
  | none => .error .sliceOutOfRange

/-! ### Spans and the occupancy map -/

/-- The values of a `usize` are below this. -/
def usizeLimit : Nat := 2 ^ 64

namespace Span

def new (start length : Nat) : Outcome Span := do
  require (start + length < usizeLimit) (invalid "offset overflow")
  return ⟨start, start + length, Nat.le_add_right start length⟩

def newChecked (offset count : U32) (recordSize : Nat) : Outcome Span := do
  require (count.toNat * recordSize < usizeLimit) (invalid "table size overflow")
  new offset.toNat (count.toNat * recordSize)

def fromOffsetLength (offset length : U32) : Outcome Span := new offset.toNat length.toNat

end Span

abbrev ImageMap := List Span

namespace ImageMap

def new : Outcome ImageMap := do
  return [← Span.new 0 imageHeaderSize]

def occupy (imageMap : ImageMap) (candidate : Span) (imageSize : Nat) (detail : String) :
    Outcome ImageMap := do
  require (¬ candidate.stop > imageSize) (invalid "record outside image")
  require ((imageMap.any fun span => span.overlaps candidate) = false) (invalid detail)
  return imageMap ++ [candidate]

/-- A payload is occupied unless it is empty. -/
def occupyData (imageMap : ImageMap) (dataOffset fileSize : U32) (imageSize : Nat) :
    Outcome ImageMap :=
  if fileSize ≠ 0 then do
    imageMap.occupy (← Span.fromOffsetLength dataOffset fileSize) imageSize "overlapping image data"
  else return imageMap

end ImageMap

/-! ### The parser -/

/-- A parsed user module and its table record. -/
structure ImageModule where
  name : String
  record : ModuleRecord
  segments : List ModuleSegment
deriving DecidableEq

/-- A canonical system-ROM image. -/
structure SystemImage where
  bytes : List U8
  header : ImageHeader
  kernelSegments : List KernelSegment
  modules : List ImageModule
deriving DecidableEq

/-- `std::str::from_utf8`. -/
def fromUtf8 (bytes : List U8) : Option String :=
  String.fromUTF8? ⟨(bytes.map UInt8.ofBitVec).toArray⟩

def moduleName (bytes : List U8) : Outcome String :=
  match fromUtf8 bytes with
  | some name => .ok name
  | none => .error (invalid "module name is not UTF-8")

/-- One turn of the loop over the kernel-segment table. -/
def parseKernelSegment (bytes : List U8) (header : ImageHeader)
    (state : ImageMap × List KernelSegment) (index : Nat) :
    Outcome (ImageMap × List KernelSegment) := do
  let (imageMap, kernelSegments) := state
  let offset := header.kernelSegmentTableOffset.toNat + index * kernelSegmentSize
  let segment ← platform (KernelSegment.decode (← sliced bytes offset (offset + kernelSegmentSize)))
  let imageMap ← imageMap.occupyData segment.dataOffset segment.fileSize bytes.length
  return (imageMap, kernelSegments ++ [segment])

/-- One turn of the loop over the segment table of a module. -/
def parseModuleSegment (bytes : List U8) (record : ModuleRecord)
    (state : ImageMap × List ModuleSegment) (segmentIndex : Nat) :
    Outcome (ImageMap × List ModuleSegment) := do
  let (imageMap, segments) := state
  let segmentOffset := record.segmentTableOffset.toNat + segmentIndex * moduleSegmentSize
  let segment ← platform
    (ModuleSegment.decode (← sliced bytes segmentOffset (segmentOffset + moduleSegmentSize)))
  let imageMap ← imageMap.occupyData segment.dataOffset segment.fileSize bytes.length
  return (imageMap, segments ++ [segment])

/-- One turn of the loop over the module table. -/
def parseModule (bytes : List U8) (header : ImageHeader)
    (state : ImageMap × List String × List ImageModule) (index : Nat) :
    Outcome (ImageMap × List String × List ImageModule) := do
  let (imageMap, names, modules) := state
  let offset := header.moduleTableOffset.toNat + index * moduleRecordSize
  let record ← platform (ModuleRecord.decode (← sliced bytes offset (offset + moduleRecordSize)))
  let nameSpan ← Span.fromOffsetLength record.nameOffset record.nameLength
  let segmentTable ← Span.newChecked record.segmentTableOffset record.segmentCount moduleSegmentSize
  let imageMap ← imageMap.occupy nameSpan bytes.length "overlapping image data"
  let imageMap ← imageMap.occupy segmentTable bytes.length "overlapping image tables"
  let name ← moduleName (← sliced bytes nameSpan.start nameSpan.stop)
  require (¬ (name = "" ∨ name ∈ names)) (invalid "module name")
  let (imageMap, segments) ← (List.range record.segmentCount.toNat).foldlM
    (parseModuleSegment bytes record) (imageMap, [])
  (validateModuleRecords segments record.entryVirtualAddress).mapError .returned
  return (imageMap, name :: names, modules ++ [⟨name, record, segments⟩])

/-- Parses and fully validates one exact system-ROM image. -/
def parse (bytes : List U8) : Outcome SystemImage := do
  let header ← platform (ImageHeader.decode bytes)
  require (bytes.length = header.imageSize.toNat) (invalid "image size")
  let imageMap ← ImageMap.new
  let kernelTable ← Span.newChecked header.kernelSegmentTableOffset header.kernelSegmentCount
    kernelSegmentSize
  let moduleTable ← Span.newChecked header.moduleTableOffset header.moduleCount moduleRecordSize
  let imageMap ← imageMap.occupy kernelTable bytes.length "overlapping image tables"
  let imageMap ← imageMap.occupy moduleTable bytes.length "overlapping image tables"
  let (imageMap, kernelSegments) ← (List.range header.kernelSegmentCount.toNat).foldlM
    (parseKernelSegment bytes header) (imageMap, [])
  (validateKernelRecords kernelSegments header.kernelEntryVaddr).mapError .returned
  let (_, _, modules) ← (List.range header.moduleCount.toNat).foldlM
    (parseModule bytes header) (imageMap, [], [])
  return ⟨bytes, header, kernelSegments, modules⟩

/-! ### The packer -/

structure PackedModule where
  name : List U8
  entry : VirtualAddress
  segments : List (ModuleSegment × List U8)

def size32 (value : Nat) (detail : String) : Outcome U32 := do
  require (value < 2 ^ 32) (invalid detail)
  return BitVec.ofNat 32 value

def checkedAdd (left right : Nat) : Outcome Nat := do
  require (left + right < usizeLimit) (invalid "image size overflow")
  return left + right

def align4 (value : Nat) : Outcome Nat := (checkedAdd value 3).map fun value => value / 4 * 4

/-- One turn of the loop that places the segment tables. -/
def placeSegmentTable (state : Nat × List U32) (module : PackedModule) :
    Outcome (Nat × List U32) := do
  let (cursor, moduleSegmentOffsets) := state
  let cursor ← align4 cursor
  let offset ← size32 cursor "module segment table offset"
  let cursor ← checkedAdd cursor (module.segments.length * moduleSegmentSize)
  return (cursor, moduleSegmentOffsets ++ [offset])

/-- One turn of the loop that places the names. -/
def placeName (state : Nat × List U32) (module : PackedModule) : Outcome (Nat × List U32) := do
  let (cursor, moduleNameOffsets) := state
  let offset ← size32 cursor "module name offset"
  let cursor ← checkedAdd cursor module.name.length
  return (cursor, moduleNameOffsets ++ [offset])

/-- One turn of a loop that places payloads; `set` is the assignment to `data_offset`. -/
def placeData (set : Record → U32 → Record) (detail : String)
    (state : Nat × List (Record × List U8)) (segment : Record × List U8) :
    Outcome (Nat × List (Record × List U8)) := do
  let (cursor, placed) := state
  let (record, data) := segment
  if data ≠ [] then
    let offset ← size32 cursor detail
    let cursor ← checkedAdd cursor data.length
    return (cursor, placed ++ [(set record offset, data)])
  else return (cursor, placed ++ [(record, data)])

def placeKernelData := placeData (fun record : KernelSegment => fun dataOffset =>
  { record with dataOffset }) "kernel data offset"

def placeModuleData := placeData (fun record : ModuleSegment => fun dataOffset =>
  { record with dataOffset }) "module data offset"

/-- One turn of the loop that places the payloads of the modules. -/
def placeModule (state : Nat × List PackedModule) (module : PackedModule) :
    Outcome (Nat × List PackedModule) := do
  let (cursor, modules) := state
  let (cursor, segments) ← module.segments.foldlM placeModuleData (cursor, [])
  return (cursor, modules ++ [{ module with segments }])

def copyData (destination : List U8) (offset : U32) (data : List U8) : Outcome (List U8) :=
  if data = [] then return destination
  else do
    let _ ← checkedAdd offset.toNat data.length
    match overwrite? destination offset.toNat data with
    | some destination => return destination
    | none => throw (invalid "data outside image")

/-- One turn of the loop that writes the kernel segments. -/
def writeKernelSegment (kernelTableOffset : Nat) (bytes : List U8)
    (segment : (KernelSegment × List U8) × Nat) : Outcome (List U8) := do
  let ((segment, data), index) := segment
  let offset := kernelTableOffset + index * kernelSegmentSize
  let bytes ← copied bytes offset (← platform segment.encode)
  copyData bytes segment.dataOffset data

/-- One turn of the loop that writes the segments of a module. -/
def writeModuleSegment (record : ModuleRecord) (bytes : List U8)
    (segment : (ModuleSegment × List U8) × Nat) : Outcome (List U8) := do
  let ((segment, data), segmentIndex) := segment
  let segmentOffset := record.segmentTableOffset.toNat + segmentIndex * moduleSegmentSize
  let bytes ← copied bytes segmentOffset (← platform segment.encode)
  copyData bytes segment.dataOffset data

/-- `list[index]`. -/
def indexed (list : List α) (index : Nat) : Outcome α :=
  match list[index]? with
  | some item => .ok item
  | none => .error .sliceOutOfRange

/-- One turn of the loop that writes the modules. -/
def writeModule (moduleTableOffset : Nat) (moduleNameOffsets moduleSegmentOffsets : List U32)
    (bytes : List U8) (module : PackedModule × Nat) : Outcome (List U8) := do
  let (module, index) := module
  let record : ModuleRecord :=
    { nameOffset := ← indexed moduleNameOffsets index
      nameLength := ← size32 module.name.length "module name length"
      segmentTableOffset := ← indexed moduleSegmentOffsets index
      segmentCount := ← size32 module.segments.length "module segment count"
      entryVirtualAddress := module.entry }
  let offset := moduleTableOffset + index * moduleRecordSize
  let bytes ← copied bytes offset record.encode
  let bytes ← copyData bytes record.nameOffset module.name
  module.segments.zipIdx.foldlM (writeModuleSegment record) bytes

def buildImage (kernelEntry : VirtualAddress) (kernelSegments : List (KernelSegment × List U8))
    (modules : List PackedModule) : Outcome SystemImage := do
  let kernelTableOffset := imageHeaderSize
  let moduleTableOffset := kernelTableOffset + kernelSegments.length * kernelSegmentSize
  let cursor := moduleTableOffset + modules.length * moduleRecordSize
  let (cursor, moduleSegmentOffsets) ← modules.foldlM placeSegmentTable (cursor, [])
  let cursor ← align4 cursor
  let (cursor, moduleNameOffsets) ← modules.foldlM placeName (cursor, [])
  let cursor ← align4 cursor
  let (cursor, kernelSegments) ← kernelSegments.foldlM placeKernelData (cursor, [])
  let (cursor, modules) ← modules.foldlM placeModule (cursor, [])
  require (¬ cursor > MemRegion.systemRom.size.toNat) (.returned .romOverflow)
  let header : ImageHeader :=
    { imageSize := ← size32 cursor "image size"
      kernelSegmentTableOffset := ← size32 kernelTableOffset "kernel table offset"
      kernelSegmentCount := ← size32 kernelSegments.length "kernel segment count"
      moduleTableOffset := ← size32 moduleTableOffset "module table offset"
      moduleCount := ← size32 modules.length "module count"
      bootstrapEntryPaddr := ⟨Platform.bootstrapEntryPaddr⟩
      kernelEntryVaddr := kernelEntry
      bootInfoPaddr := ⟨Platform.bootInfoPaddr⟩ }
  let bytes ← copied (List.replicate cursor 0) 0 (← platform header.encode)
  let bytes ← kernelSegments.zipIdx.foldlM (writeKernelSegment kernelTableOffset) bytes
  let bytes ← modules.zipIdx.foldlM
    (writeModule moduleTableOffset moduleNameOffsets moduleSegmentOffsets) bytes
  parse bytes

end Minemu.Image
