import Minemu.Image.Packing

/-! What the packer writes: pieces of the image, in regions that do not meet. -/

namespace Minemu.Image

open Library Platform

/-! ### Modules with their places -/

/-- A module with the places of its segment table, its name and its first payload. -/
structure PlacedModule where
  tablePlace : Nat
  namePlace : Nat
  dataPlace : Nat
  module : PackedModule

/-- Modules on three cursors: for segment tables, for names and for payloads. -/
def placeModules : Nat → Nat → Nat → List PackedModule → List PlacedModule
  | _, _, _, [] => []
  | table, name, data, module :: modules =>
    ⟨alignUp4 table, name, data, module⟩ :: placeModules (alignUp4 table + segmentTableSize module)
      (name + nameSize module) (data + payloadSize module) modules

namespace PlacedModule

def table (placed : PlacedModule) : Nat × PackedModule := (placed.tablePlace, placed.module)
def name (placed : PlacedModule) : Nat × PackedModule := (placed.namePlace, placed.module)
def payload (placed : PlacedModule) : Nat × PackedModule := (placed.dataPlace, placed.module)

/-- The segments of the module, each with the place of its payload. -/
def segments (placed : PlacedModule) : List (Nat × ModuleSegment × List U8) :=
  moduleData placed.payload

/-- The record of the module. -/
def record (placed : PlacedModule) : ModuleRecord where
  nameOffset := BitVec.ofNat 32 placed.namePlace
  nameLength := BitVec.ofNat 32 placed.module.name.length
  segmentTableOffset := BitVec.ofNat 32 placed.tablePlace
  segmentCount := BitVec.ofNat 32 placed.module.segments.length
  entryVirtualAddress := placed.module.entry

@[simp] theorem length_segments (placed : PlacedModule) :
    placed.segments.length = placed.module.segments.length := length_layOut _ _ _ _

end PlacedModule

theorem map_placeModules (table name data : Nat) (modules : List PackedModule) :
    (placeModules table name data modules).map PlacedModule.table =
        layOut alignUp4 segmentTableSize table modules ∧
      (placeModules table name data modules).map PlacedModule.name =
        layOut id nameSize name modules ∧
      (placeModules table name data modules).map PlacedModule.payload =
        layOut id payloadSize data modules := by
  induction modules generalizing table name data with
  | nil => exact ⟨rfl, rfl, rfl⟩
  | cons module modules ih =>
    obtain ⟨tables, names, payloads⟩ := ih (alignUp4 table + segmentTableSize module)
      (name + nameSize module) (data + payloadSize module)
    simp only [placeModules, layOut, List.map_cons, tables, names, payloads]
    exact ⟨rfl, rfl, rfl⟩

section Placed

variable (kernelSegments : List (KernelSegment × List U8)) (modules : List PackedModule)

def placedModules : List PlacedModule :=
  placeModules (segmentTablesPlace kernelSegments modules) (namesPlace kernelSegments modules)
    (moduleDataPlace kernelSegments modules) modules

theorem map_table : (placedModules kernelSegments modules).map PlacedModule.table =
    segmentTables kernelSegments modules := (map_placeModules _ _ _ _).1

theorem map_name : (placedModules kernelSegments modules).map PlacedModule.name =
    moduleNames kernelSegments modules := (map_placeModules _ _ _ _).2.1

theorem map_payload : (placedModules kernelSegments modules).map PlacedModule.payload =
    modulePayloads kernelSegments modules := (map_placeModules _ _ _ _).2.2

theorem map_module :
    (placedModules kernelSegments modules).map PlacedModule.module = modules := by
  have names := congrArg (List.map Prod.snd) (map_name kernelSegments modules)
  rw [moduleNames, map_snd_layOut, List.map_map] at names
  exact names

@[simp] theorem length_placedModules :
    (placedModules kernelSegments modules).length = modules.length := by
  rw [← List.length_map (f := PlacedModule.module), map_module]

variable {kernelSegments} {modules}

/-- Everything of a placed module ends inside the image. -/
theorem PlacedModule.inside {placed : PlacedModule}
    (member : placed ∈ placedModules kernelSegments modules) :
    placed.tablePlace + segmentTableSize placed.module ≤ laidOutSize kernelSegments modules ∧
      placed.namePlace + nameSize placed.module ≤ laidOutSize kernelSegments modules ∧
      ∀ segment ∈ placed.segments,
        segment.1 + dataSize segment.2 ≤ laidOutSize kernelSegments modules := by
  obtain ⟨tables, names, _, payloads⟩ := layout_inside kernelSegments modules
  rw [← map_table, List.forall_mem_map] at tables
  rw [← map_name, List.forall_mem_map] at names
  rw [← map_payload, List.forall_mem_map] at payloads
  exact ⟨tables placed member, names placed member, payloads placed member⟩

theorem PlacedModule.mem {placed : PlacedModule}
    (member : placed ∈ placedModules kernelSegments modules) : placed.module ∈ modules := by
  have inside := List.mem_map_of_mem (f := PlacedModule.module) member
  rwa [map_module] at inside

end Placed

/-! ### Regions -/

/-- Parts that keep to the regions of the layout are in order. -/
theorem laid_regions {Part : Type u} {spanOf : Part → Span}
    {kernelSegments : List (KernelSegment × List U8)} {modules : List PackedModule}
    {header kernelTable moduleTable : List Part} {tables names payloads : PlacedModule → List Part}
    {kernelPayloads : Nat × KernelSegment × List U8 → List Part}
    (headerLaid : Span.Laid spanOf 0 64 header)
    (kernelLaid : Span.Laid spanOf 64 (moduleTablePlace kernelSegments) kernelTable)
    (moduleLaid : Span.Laid spanOf (moduleTablePlace kernelSegments)
      (segmentTablesPlace kernelSegments modules) moduleTable)
    (tablesLaid : ∀ placed ∈ placedModules kernelSegments modules,
      Span.Laid spanOf placed.tablePlace (placed.tablePlace + segmentTableSize placed.module)
        (tables placed))
    (namesLaid : ∀ placed ∈ placedModules kernelSegments modules,
      Span.Laid spanOf placed.namePlace (placed.namePlace + nameSize placed.module)
        (names placed))
    (kernelPayloadsLaid : ∀ placed ∈ kernelData kernelSegments modules,
      Span.Laid spanOf placed.1 (placed.1 + dataSize placed.2) (kernelPayloads placed))
    (payloadsLaid : ∀ placed ∈ placedModules kernelSegments modules,
      Span.Laid spanOf placed.dataPlace (placed.dataPlace + payloadSize placed.module)
        (payloads placed)) :
    Span.Laid spanOf 0 (laidOutSize kernelSegments modules)
      (header ++ kernelTable ++ moduleTable ++
        (placedModules kernelSegments modules).flatMap tables ++
        (placedModules kernelSegments modules).flatMap names ++
        (kernelData kernelSegments modules).flatMap kernelPayloads ++
        (placedModules kernelSegments modules).flatMap payloads) := by
  have id_le (cursor : Nat) : cursor ≤ id cursor := le_rfl
  have tablesRegion := Span.laid_layOut le_alignUp4 (map_table kernelSegments modules) tablesLaid
  have namesRegion := Span.laid_layOut id_le (map_name kernelSegments modules) namesLaid
  have kernelRegion := Span.laid_layOut id_le (List.map_id (kernelData kernelSegments modules))
    kernelPayloadsLaid
  have payloadsRegion := Span.laid_layOut id_le (map_payload kernelSegments modules) payloadsLaid
  exact headerLaid.append kernelLaid |>.append moduleLaid |>.append tablesRegion
    |>.append (namesRegion.behind (le_alignUp4 _)) |>.append (kernelRegion.behind (le_alignUp4 _))
    |>.append payloadsRegion

/-! ### Pieces -/

/-- The bytes of a record that encodes. -/
def encoded (result : Except PlatformError (List U8)) : List U8 := result.toOption.getD []

/-- The payload of a segment, unless it is empty. -/
def dataPieces (placed : Nat × Record × List U8) : List (Piece U8) :=
  if placed.2.2 ≠ [] then [⟨placed.1, placed.2.2⟩] else []

def kernelSegmentPiece (row : (Nat × KernelSegment × List U8) × Nat) : Piece U8 :=
  ⟨64 + row.2 * 32, encoded (noteKernelData row.1).1.encode⟩

def moduleSegmentPiece (table : Nat) (row : (Nat × ModuleSegment × List U8) × Nat) : Piece U8 :=
  ⟨table + row.2 * 32, encoded (noteModuleData row.1).1.encode⟩

def moduleRecordPiece (table : Nat) (row : PlacedModule × Nat) : Piece U8 :=
  ⟨table + row.2 * 32, row.1.record.encode⟩

def namePiece (placed : PlacedModule) : Piece U8 := ⟨placed.namePlace, placed.module.name⟩

def kernelPieces (row : (Nat × KernelSegment × List U8) × Nat) : List (Piece U8) :=
  kernelSegmentPiece row :: dataPieces row.1

def moduleSegmentPieces (table : Nat) (row : (Nat × ModuleSegment × List U8) × Nat) :
    List (Piece U8) := moduleSegmentPiece table row :: dataPieces row.1

def modulePieces (table : Nat) (row : PlacedModule × Nat) : List (Piece U8) :=
  moduleRecordPiece table row :: namePiece row.1 ::
    row.1.segments.zipIdx.flatMap (moduleSegmentPieces row.1.tablePlace)

section Pieces

variable (kernelEntry : VirtualAddress) (kernelSegments : List (KernelSegment × List U8))
  (modules : List PackedModule)

/-- The header the packer writes. -/
def imageHeader : ImageHeader where
  imageSize := BitVec.ofNat 32 (laidOutSize kernelSegments modules)
  kernelSegmentTableOffset := 64
  kernelSegmentCount := BitVec.ofNat 32 kernelSegments.length
  moduleTableOffset := BitVec.ofNat 32 (moduleTablePlace kernelSegments)
  moduleCount := BitVec.ofNat 32 modules.length
  bootstrapEntryPaddr := ⟨Platform.bootstrapEntryPaddr⟩
  kernelEntryVaddr := kernelEntry
  bootInfoPaddr := ⟨Platform.bootInfoPaddr⟩

def headerPiece : Piece U8 :=
  ⟨0, encoded (imageHeader kernelEntry kernelSegments modules).encode⟩

/-- Every piece of an image in the order the packer writes them. -/
def imagePieces : List (Piece U8) :=
  headerPiece kernelEntry kernelSegments modules ::
    ((kernelData kernelSegments modules).zipIdx.flatMap kernelPieces ++
      (placedModules kernelSegments modules).zipIdx.flatMap
        (modulePieces (moduleTablePlace kernelSegments)))

end Pieces

/-! ### Records and their places -/

theorem noteKernelData_record (placed : Nat × KernelSegment × List U8) :
    { (noteKernelData placed).1 with dataOffset := placed.2.1.dataOffset } = placed.2.1 := by
  unfold noteKernelData noteData
  split <;> rfl

theorem noteModuleData_record (placed : Nat × ModuleSegment × List U8) :
    { (noteModuleData placed).1 with dataOffset := placed.2.1.dataOffset } = placed.2.1 := by
  unfold noteModuleData noteData
  split <;> rfl

theorem noteKernelData_valid {placed : Nat × KernelSegment × List U8} (valid : placed.2.1.Valid) :
    (noteKernelData placed).1.Valid := by
  rw [← noteKernelData_record placed] at valid
  exact ⟨valid.nonempty, valid.initialized, valid.flags, valid.above, valid.below, valid.mapping⟩

theorem noteModuleData_valid {placed : Nat × ModuleSegment × List U8} (valid : placed.2.1.Valid) :
    (noteModuleData placed).1.Valid := by
  rw [← noteModuleData_record placed] at valid
  exact ⟨valid.nonempty, valid.initialized, valid.flags⟩

/-! ### Writing -/

/-- What holds of every module that is packed. -/
structure PackableModule (module : PackedModule) : Prop where
  segments : ∀ segment ∈ module.segments, segment.1.validate = .ok () ∧
    segment.1.fileSize.toNat = segment.2.length
  records : validateModuleRecords (module.segments.map Prod.fst) module.entry = .ok ()
  nonempty : module.name ≠ []
  utf8 : (fromUtf8 module.name).isSome = true

/-- What holds of everything that is packed, for an entry in the direct map. -/
structure Packable (kernelEntry : VirtualAddress)
    (kernelSegments : List (KernelSegment × List U8)) (modules : List PackedModule) : Prop where
  entry : ∃ physical, directMapPhysical kernelEntry = .ok physical
  segments : ∀ segment ∈ kernelSegments, segment.1.validate = .ok () ∧
    segment.1.fileSize.toNat = segment.2.length
  records : validateKernelRecords (kernelSegments.map Prod.fst) kernelEntry = .ok ()
  each : ∀ module ∈ modules, PackableModule module
  names : (modules.map PackedModule.name).Nodup

section Writing

variable {bytes : List U8}

theorem copied_eq {place : Nat} {data : List U8} (fits : place + data.length ≤ bytes.length) :
    copied bytes place data = .ok (patchAll bytes [⟨place, data⟩]) := by
  rw [copied, patch_of_fits fits]
  rfl

/-- Data is copied to the offset of its place. -/
theorem copyData_eq {offset : U32} {place : Nat} {data : List U8}
    (noted : data ≠ [] → offset.toNat = place) (fits : place + data.length ≤ bytes.length)
    (short : bytes.length ≤ 0x100_0000) :
    copyData bytes offset data =
      .ok (patchAll bytes (if data ≠ [] then [⟨place, data⟩] else [])) := by
  by_cases empty : data = []
  · simp [copyData, empty, patchAll, pure, Except.pure]
  · have added : checkedAdd place data.length = .ok (place + data.length) :=
      checkedAdd_eq_ok.mpr ⟨by omega, rfl⟩
    rw [copyData, if_neg empty, noted empty, added, if_pos empty]
    simp only [bind, Except.bind, patch_of_fits fits]
    rfl

theorem encoded_kernelSegment {segment : KernelSegment} (valid : segment.Valid) :
    segment.encode = .ok (encoded segment.encode) ∧ (encoded segment.encode).length = 32 := by
  obtain ⟨record, done, length, _⟩ := KernelSegment.encode_stored valid
  rw [done]
  exact ⟨rfl, length⟩

theorem encoded_moduleSegment {segment : ModuleSegment} (valid : segment.Valid) :
    segment.encode = .ok (encoded segment.encode) ∧ (encoded segment.encode).length = 32 := by
  obtain ⟨record, done, length, _⟩ := ModuleSegment.encode_stored valid
  rw [done]
  exact ⟨rfl, length⟩

theorem noteKernelData_offset {placed : Nat × KernelSegment × List U8} (small : placed.1 < 2 ^ 32)
    (nonempty : placed.2.2 ≠ []) : (noteKernelData placed).1.dataOffset.toNat = placed.1 := by
  rw [noteKernelData, noteData, if_pos nonempty]
  exact Nat.mod_eq_of_lt small

theorem noteModuleData_offset {placed : Nat × ModuleSegment × List U8} (small : placed.1 < 2 ^ 32)
    (nonempty : placed.2.2 ≠ []) : (noteModuleData placed).1.dataOffset.toNat = placed.1 := by
  rw [noteModuleData, noteData, if_pos nonempty]
  exact Nat.mod_eq_of_lt small

/-- A record is written at its place and its payload behind. -/
theorem writeRecord_eq {place : Nat} {result : Except PlatformError (List U8)} {offset : U32}
    {placed : Nat × Record × List U8}
    (done : result = .ok (encoded result) ∧ (encoded result).length = 32)
    (inside : place + 32 ≤ bytes.length) (noted : placed.2.2 ≠ [] → offset.toNat = placed.1)
    (fits : placed.1 + dataSize placed.2 ≤ bytes.length) (short : bytes.length ≤ 0x100_0000) :
    (do
      let bytes ← copied bytes place (← platform result)
      copyData bytes offset placed.2.2) =
      .ok (patchAll bytes (⟨place, encoded result⟩ :: dataPieces placed)) := by
  obtain ⟨encodes, length⟩ := done
  have room : place + (encoded result).length ≤ bytes.length := by omega
  refine bind_eq_ok.mpr ⟨_, platform_eq_ok.mpr encodes, bind_eq_ok.mpr ⟨_, copied_eq room, ?_⟩⟩
  exact copyData_eq noted (by rwa [length_patchAll]) (by rwa [length_patchAll])

theorem writeKernelSegment_eq {row : (Nat × KernelSegment × List U8) × Nat}
    (valid : row.1.2.1.Valid) (inside : 64 + row.2 * 32 + 32 ≤ bytes.length)
    (fits : row.1.1 + dataSize row.1.2 ≤ bytes.length) (short : bytes.length ≤ 0x100_0000) :
    writeKernelSegment 64 bytes (noteKernelData row.1, row.2) =
      .ok (patchAll bytes (kernelPieces row)) :=
  writeRecord_eq (encoded_kernelSegment (noteKernelData_valid valid)) inside
    (noteKernelData_offset (by omega)) fits short

theorem writeModuleSegment_eq {record : ModuleRecord} {row : (Nat × ModuleSegment × List U8) × Nat}
    (valid : row.1.2.1.Valid)
    (inside : record.segmentTableOffset.toNat + row.2 * 32 + 32 ≤ bytes.length)
    (fits : row.1.1 + dataSize row.1.2 ≤ bytes.length) (short : bytes.length ≤ 0x100_0000) :
    writeModuleSegment record bytes (noteModuleData row.1, row.2) =
      .ok (patchAll bytes (moduleSegmentPieces record.segmentTableOffset.toNat row)) :=
  writeRecord_eq (encoded_moduleSegment (noteModuleData_valid valid)) inside
    (noteModuleData_offset (by omega)) fits short

theorem size32_eq {value : Nat} (detail : String) (small : value < 2 ^ 32) :
    size32 value detail = .ok (BitVec.ofNat 32 value) := size32_eq_ok.mpr ⟨small, rfl⟩

theorem indexed_map {note : α → β} {list : List α} {index : Nat} {item : α}
    (found : list[index]? = some item) : indexed (list.map note) index = .ok (note item) := by
  rw [indexed, List.getElem?_map, found]
  rfl

variable {kernelEntry : VirtualAddress} {kernelSegments : List (KernelSegment × List U8)}
  {modules : List PackedModule}

/-- A name is copied to its place. -/
theorem copyName_eq {placed : PlacedModule} (nonempty : placed.module.name ≠ [])
    (fits : placed.namePlace + nameSize placed.module ≤ bytes.length)
    (short : bytes.length ≤ 0x100_0000) :
    copyData bytes (BitVec.ofNat 32 placed.namePlace) placed.module.name =
      .ok (patchAll bytes [namePiece placed]) := by
  have small : (BitVec.ofNat 32 placed.namePlace).toNat = placed.namePlace :=
    Nat.mod_eq_of_lt (by omega)
  rw [copyData_eq (fun _ => small) fits short, if_pos nonempty]
  rfl

/-- The loop over the segments of a module writes their pieces. -/
theorem writeModuleSegments_eq {placed : PlacedModule}
    (member : placed ∈ placedModules kernelSegments modules)
    (packable : PackableModule placed.module)
    (short : laidOutSize kernelSegments modules ≤ 0x100_0000)
    (long : bytes.length = laidOutSize kernelSegments modules) :
    (placed.segments.map noteModuleData).zipIdx.foldlM (writeModuleSegment placed.record) bytes =
      .ok (patchAll bytes
        (placed.segments.zipIdx.flatMap (moduleSegmentPieces placed.tablePlace))) := by
  obtain ⟨tableInside, nameInside, dataInside⟩ := PlacedModule.inside member
  have table : placed.record.segmentTableOffset.toNat = placed.tablePlace :=
    Nat.mod_eq_of_lt (by omega)
  refine patchAll_rows ?_ bytes long
  intro segment inside bytes same
  have index := List.snd_lt_of_mem_zipIdx inside
  have known := List.fst_mem_of_mem_zipIdx inside
  have valid := (packable.segments _ (mem_of_mem_layOut known)).1
  rw [PlacedModule.length_segments] at index
  unfold segmentTableSize at tableInside
  rw [← table]
  refine writeModuleSegment_eq (ModuleSegment.validate_eq_ok.mp valid) ?_ ?_ ?_
  · omega
  · exact (dataInside _ known).trans_eq same.symm
  · omega

theorem writeModule_eq {row : PlacedModule × Nat}
    (member : row ∈ (placedModules kernelSegments modules).zipIdx)
    (packable : PackableModule row.1.module)
    (short : laidOutSize kernelSegments modules ≤ 0x100_0000)
    (long : bytes.length = laidOutSize kernelSegments modules) :
    writeModule (moduleTablePlace kernelSegments)
        (placement kernelSegments modules).moduleNameOffsets
        (placement kernelSegments modules).moduleSegmentOffsets bytes
        (noteModule row.1.payload, row.2) =
      .ok (patchAll bytes (modulePieces (moduleTablePlace kernelSegments) row)) := by
  have found := List.mem_zipIdx_iff_getElem?.mp member
  have index := List.snd_lt_of_mem_zipIdx member
  have placed := List.fst_mem_of_mem_zipIdx member
  obtain ⟨tableInside, nameInside, _⟩ := PlacedModule.inside placed
  have nameOffset : indexed (placement kernelSegments modules).moduleNameOffsets row.2 =
      .ok (BitVec.ofNat 32 row.1.namePlace) := by
    rw [placement, ← map_name, List.map_map]
    exact indexed_map found
  have tableOffset : indexed (placement kernelSegments modules).moduleSegmentOffsets row.2 =
      .ok (BitVec.ofNat 32 row.1.tablePlace) := by
    rw [placement, ← map_table, List.map_map]
    exact indexed_map found
  have nameLength : size32 row.1.module.name.length "module name length" =
      .ok (BitVec.ofNat 32 row.1.module.name.length) := by
    have small : row.1.module.name.length < 2 ^ 32 := by
      unfold nameSize at nameInside
      omega
    exact size32_eq _ small
  have segmentCount : size32 (row.1.segments.map noteModuleData).length "module segment count" =
      .ok (BitVec.ofNat 32 row.1.module.segments.length) := by
    rw [List.length_map, PlacedModule.length_segments]
    have small : row.1.module.segments.length < 2 ^ 32 := by
      unfold segmentTableSize at tableInside
      omega
    exact size32_eq _ small
  have recordInside : moduleTablePlace kernelSegments + row.2 * 32 + row.1.record.encode.length ≤
      bytes.length := by
    obtain ⟨tables, beforeNames, names, beforeData, kernelEnd, moduleEnd⟩ :=
      regions_ordered kernelSegments modules
    have length := (ModuleRecord.encode_stored row.1.record).1
    rw [length_placedModules] at index
    unfold segmentTablesPlace at tables
    omega
  have written : copied bytes (moduleTablePlace kernelSegments + row.2 * 32) row.1.record.encode =
      .ok (patchAll bytes [moduleRecordPiece (moduleTablePlace kernelSegments) row]) := by
    rw [moduleRecordPiece]
    exact copied_eq recordInside
  have named : copyData (patchAll bytes [moduleRecordPiece (moduleTablePlace kernelSegments) row])
      (BitVec.ofNat 32 row.1.namePlace) row.1.module.name =
      .ok (patchAll (patchAll bytes [moduleRecordPiece (moduleTablePlace kernelSegments) row])
        [namePiece row.1]) :=
    copyName_eq packable.nonempty (by simpa [long] using nameInside) (by simpa [long] using short)
  have record : (⟨BitVec.ofNat 32 row.1.namePlace, BitVec.ofNat 32 row.1.module.name.length,
      BitVec.ofNat 32 row.1.tablePlace, BitVec.ofNat 32 row.1.module.segments.length,
      (noteModule row.1.payload).entry⟩ : ModuleRecord) = row.1.record := rfl
  have name : (noteModule row.1.payload).name = row.1.module.name := rfl
  have segments : (noteModule row.1.payload).segments = row.1.segments.map noteModuleData := rfl
  unfold writeModule
  simp only [name, segments, nameOffset, nameLength, tableOffset, segmentCount, moduleRecordSize,
    bind, Except.bind, record, written, named]
  rw [modulePieces, patchAll_cons _ _ (namePiece row.1 :: _),
    patchAll_cons _ (namePiece row.1) (List.flatMap _ _)]
  exact writeModuleSegments_eq placed packable short (by simpa using long)

/-- The tables of the image are inside it. -/
theorem tables_inside (kernelSegments : List (KernelSegment × List U8))
    (modules : List PackedModule) : 64 + kernelSegments.length * 32 + modules.length * 32 ≤
      laidOutSize kernelSegments modules := by
  obtain ⟨tables, beforeNames, names, beforeData, kernelEnd, moduleEnd⟩ :=
    regions_ordered kernelSegments modules
  unfold segmentTablesPlace moduleTablePlace at tables
  omega

/-- The words of the header hold the numbers of the layout. -/
theorem imageHeader_words (kernelEntry : VirtualAddress)
    (short : laidOutSize kernelSegments modules ≤ 0x100_0000) :
    (imageHeader kernelEntry kernelSegments modules).imageSize.toNat =
        laidOutSize kernelSegments modules ∧
      (imageHeader kernelEntry kernelSegments modules).kernelSegmentCount.toNat =
        kernelSegments.length ∧
      (imageHeader kernelEntry kernelSegments modules).moduleTableOffset.toNat =
        moduleTablePlace kernelSegments ∧
      (imageHeader kernelEntry kernelSegments modules).moduleCount.toNat = modules.length := by
  have inside := tables_inside kernelSegments modules
  have place : moduleTablePlace kernelSegments < 2 ^ 32 := by
    unfold moduleTablePlace
    omega
  exact ⟨Nat.mod_eq_of_lt (by omega), Nat.mod_eq_of_lt (by omega), Nat.mod_eq_of_lt place,
    Nat.mod_eq_of_lt (by omega)⟩

theorem imageHeader_valid (packable : Packable kernelEntry kernelSegments modules)
    (short : laidOutSize kernelSegments modules ≤ 0x100_0000) :
    (imageHeader kernelEntry kernelSegments modules).Valid := by
  have inside := tables_inside kernelSegments modules
  obtain ⟨size, kernelCount, place, moduleCount⟩ := imageHeader_words kernelEntry short
  obtain ⟨physical, mapped⟩ := packable.entry
  refine ⟨?_, ?_, rfl, rfl, ?_, ?_, ?_⟩
  · omega
  · omega
  · exact (directMapPhysical_eq_ok.mp mapped).1
  · rw [kernelCount, size]
    change 64 + kernelSegments.length * 32 ≤ _
    omega
  · rw [place, moduleCount, size, moduleTablePlace]
    omega

theorem encoded_header {header : ImageHeader} (valid : header.Valid) :
    header.encode = .ok (encoded header.encode) ∧ (encoded header.encode).length = 64 ∧
      ImageHeader.Framed (encoded header.encode) ∧ .stored (encoded header.encode) = header := by
  obtain ⟨record, done, length, framed, stored⟩ := ImageHeader.encode_stored valid
  rw [done]
  exact ⟨rfl, length, framed, stored⟩

/-- The bytes of the image, all pieces written over zeros. -/
def imageBytes (kernelEntry : VirtualAddress) (kernelSegments : List (KernelSegment × List U8))
    (modules : List PackedModule) : List U8 :=
  patchAll (List.replicate (laidOutSize kernelSegments modules) 0)
    (imagePieces kernelEntry kernelSegments modules)

@[simp] theorem length_imageBytes (kernelEntry : VirtualAddress)
    (kernelSegments : List (KernelSegment × List U8)) (modules : List PackedModule) :
    (imageBytes kernelEntry kernelSegments modules).length =
      laidOutSize kernelSegments modules := by
  rw [imageBytes, length_patchAll, List.length_replicate]

/-- The loop over the kernel segments writes their pieces. -/
theorem kernelSegments_written (packable : Packable kernelEntry kernelSegments modules)
    (short : laidOutSize kernelSegments modules ≤ 0x100_0000)
    (long : bytes.length = laidOutSize kernelSegments modules) :
    (placement kernelSegments modules).kernelSegments.zipIdx.foldlM (writeKernelSegment 64) bytes =
      .ok (patchAll bytes ((kernelData kernelSegments modules).zipIdx.flatMap kernelPieces)) := by
  have tables := tables_inside kernelSegments modules
  refine patchAll_rows ?_ bytes long
  intro row member bytes same
  have index := List.snd_lt_of_mem_zipIdx member
  have known := List.fst_mem_of_mem_zipIdx member
  have valid := (packable.segments _ (mem_of_mem_layOut known)).1
  have fits := (layout_inside kernelSegments modules).2.2.1 _ known
  rw [kernelData, length_layOut] at index
  refine writeKernelSegment_eq (KernelSegment.validate_eq_ok.mp valid) ?_ ?_ ?_
  · omega
  · exact fits.trans_eq same.symm
  · omega

/-- The loop over the modules writes their pieces. -/
theorem modules_written (packable : Packable kernelEntry kernelSegments modules)
    (short : laidOutSize kernelSegments modules ≤ 0x100_0000)
    (long : bytes.length = laidOutSize kernelSegments modules) :
    (placement kernelSegments modules).modules.zipIdx.foldlM
        (writeModule (moduleTablePlace kernelSegments)
          (placement kernelSegments modules).moduleNameOffsets
          (placement kernelSegments modules).moduleSegmentOffsets) bytes =
      .ok (patchAll bytes ((placedModules kernelSegments modules).zipIdx.flatMap
        (modulePieces (moduleTablePlace kernelSegments)))) := by
  have placed : (placement kernelSegments modules).modules =
      (placedModules kernelSegments modules).map fun placed => noteModule placed.payload := by
    rw [placement, ← map_payload, List.map_map]
    rfl
  rw [placed]
  refine patchAll_rows ?_ bytes long
  intro row member bytes same
  have known := PlacedModule.mem (List.fst_mem_of_mem_zipIdx member)
  exact writeModule_eq member (packable.each _ known) short same

/-- The pass that writes parses what all pieces give. -/
theorem write_eq (packable : Packable kernelEntry kernelSegments modules)
    (short : laidOutSize kernelSegments modules ≤ 0x100_0000) :
    write kernelEntry (moduleTablePlace kernelSegments) (placement kernelSegments modules) =
      parse (imageBytes kernelEntry kernelSegments modules) := by
  have tables := tables_inside kernelSegments modules
  obtain ⟨encodes, length, _⟩ := encoded_header (imageHeader_valid packable short)
  obtain ⟨kernelLength, moduleLength⟩ := @length_placement kernelSegments modules
  have place : moduleTablePlace kernelSegments < 2 ^ 32 := by
    unfold moduleTablePlace
    omega
  have size : size32 (laidOutSize kernelSegments modules) "image size" =
      .ok (BitVec.ofNat 32 (laidOutSize kernelSegments modules)) := size32_eq _ (by omega)
  have kernelTable : size32 64 "kernel table offset" = .ok 64 := rfl
  have kernelCount : size32 kernelSegments.length "kernel segment count" =
      .ok (BitVec.ofNat 32 kernelSegments.length) := size32_eq _ (by omega)
  have moduleTable : size32 (moduleTablePlace kernelSegments) "module table offset" =
      .ok (BitVec.ofNat 32 (moduleTablePlace kernelSegments)) := size32_eq _ place
  have moduleCount : size32 modules.length "module count" =
      .ok (BitVec.ofNat 32 modules.length) := size32_eq _ (by omega)
  have header : (⟨BitVec.ofNat 32 (laidOutSize kernelSegments modules), 64,
      BitVec.ofNat 32 kernelSegments.length, BitVec.ofNat 32 (moduleTablePlace kernelSegments),
      BitVec.ofNat 32 modules.length, ⟨Platform.bootstrapEntryPaddr⟩, kernelEntry,
      ⟨Platform.bootInfoPaddr⟩⟩ : ImageHeader) =
      imageHeader kernelEntry kernelSegments modules := rfl
  have fits : 0 + (encoded (imageHeader kernelEntry kernelSegments modules).encode).length ≤
      (List.replicate (laidOutSize kernelSegments modules) (0 : U8)).length := by
    rw [List.length_replicate]
    omega
  have headed : (patchAll (List.replicate (laidOutSize kernelSegments modules) (0 : U8))
      [⟨0, encoded (imageHeader kernelEntry kernelSegments modules).encode⟩]).length =
      laidOutSize kernelSegments modules := by
    rw [length_patchAll, List.length_replicate]
  have kernelWritten := kernelSegments_written packable short headed
  have modulesWritten := modules_written packable short ((length_patchAll _
    ((kernelData kernelSegments modules).zipIdx.flatMap kernelPieces)).trans headed)
  unfold write
  simp only [imageHeaderSize, placement_cursor, kernelLength, moduleLength, size, kernelTable,
    kernelCount, moduleTable, moduleCount, bind, Except.bind, header, platform_eq_ok.mpr encodes,
    copied_eq fits, kernelWritten, modulesWritten]
  rw [imageBytes, imagePieces, patchAll_cons _ _ (_ ++ _), patchAll_append, headerPiece]

end Writing

end Minemu.Image
