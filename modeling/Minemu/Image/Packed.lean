import Minemu.Image.Builder
import Minemu.Image.Writing

/-! What the packer gives to the parser: pieces that read back as the records of an image, in
ranges that do not meet. -/

namespace Minemu.Image

open Library Platform

/-! ### The pieces in regions -/

section Pieces

variable {kernelEntry : VirtualAddress} {kernelSegments : List (KernelSegment × List U8)}
  {modules : List PackedModule}

theorem laid_dataPieces (placed : Nat × Record × List U8) :
    Span.Laid Piece.span placed.1 (placed.1 + dataSize placed.2) (dataPieces placed) := by
  unfold dataPieces
  split
  · exact .single rfl rfl
  · exact .nil (Nat.le_add_right _ _)

/-- The parts of the payloads of a module. -/
theorem laid_payloads {Part : Type u} {spanOf : Part → Span}
    {partsOf : Nat × ModuleSegment × List U8 → List Part} (placed : PlacedModule)
    (each : ∀ segment ∈ placed.segments,
      Span.Laid spanOf segment.1 (segment.1 + dataSize segment.2) (partsOf segment)) :
    Span.Laid spanOf placed.dataPlace (placed.dataPlace + payloadSize placed.module)
      (placed.segments.flatMap partsOf) := by
  have id_le (cursor : Nat) : cursor ≤ id cursor := le_rfl
  have region := Span.laid_layOut id_le (List.map_id placed.segments) each
  rwa [moduleData_end placed.payload] at region

theorem length_moduleRecordPiece (table : Nat) (row : PlacedModule × Nat) :
    (moduleRecordPiece table row).data.length = 32 := by
  have length := (ModuleRecord.encode_stored row.1.record).1
  simp only [moduleRecordPiece, length]

/-- The pieces of an image by regions. -/
def regionPieces (kernelEntry : VirtualAddress) (kernelSegments : List (KernelSegment × List U8))
    (modules : List PackedModule) : List (Piece U8) :=
  [headerPiece kernelEntry kernelSegments modules] ++
    (kernelData kernelSegments modules).zipIdx.flatMap (fun row => [kernelSegmentPiece row]) ++
    (placedModules kernelSegments modules).zipIdx.flatMap
      (fun row => [moduleRecordPiece (moduleTablePlace kernelSegments) row]) ++
    (placedModules kernelSegments modules).flatMap (fun placed =>
      placed.segments.zipIdx.flatMap fun row => [moduleSegmentPiece placed.tablePlace row]) ++
    (placedModules kernelSegments modules).flatMap (fun placed => [namePiece placed]) ++
    (kernelData kernelSegments modules).flatMap dataPieces ++
    (placedModules kernelSegments modules).flatMap fun placed => placed.segments.flatMap dataPieces

theorem laid_pieces (packable : Packable kernelEntry kernelSegments modules)
    (short : laidOutSize kernelSegments modules ≤ 0x100_0000) :
    Span.Laid Piece.span 0 (laidOutSize kernelSegments modules)
      (regionPieces kernelEntry kernelSegments modules) := by
  obtain ⟨_, headerLength, _⟩ := encoded_header (imageHeader_valid packable short)
  refine laid_regions ?_ ?_ ?_ ?_ ?_ ?_ ?_
  · exact .single rfl ((Nat.zero_add _).trans headerLength)
  · have rows : ∀ row ∈ (kernelData kernelSegments modules).zipIdx,
        Span.Laid Piece.span (64 + row.2 * 32) (64 + row.2 * 32 + 32) [kernelSegmentPiece row] := by
      intro row member
      have known := List.fst_mem_of_mem_zipIdx member
      have valid := KernelSegment.validate_eq_ok.mp
        (packable.segments _ (mem_of_mem_layOut known)).1
      have length := (encoded_kernelSegment (noteKernelData_valid valid)).2
      exact .single rfl (congrArg (64 + row.2 * 32 + ·) length)
    have region := Span.laid_rows 64 32 _ rows
    rwa [kernelData, length_layOut] at region
  · have rows : ∀ row ∈ (placedModules kernelSegments modules).zipIdx,
        Span.Laid Piece.span (moduleTablePlace kernelSegments + row.2 * 32)
          (moduleTablePlace kernelSegments + row.2 * 32 + 32)
          [moduleRecordPiece (moduleTablePlace kernelSegments) row] := by
      intro row _
      have length := length_moduleRecordPiece (moduleTablePlace kernelSegments) row
      exact .single rfl (congrArg (moduleTablePlace kernelSegments + row.2 * 32 + ·) length)
    have region := Span.laid_rows (moduleTablePlace kernelSegments) 32 _ rows
    rwa [length_placedModules] at region
  · intro placed member
    have rows : ∀ row ∈ placed.segments.zipIdx,
        Span.Laid Piece.span (placed.tablePlace + row.2 * 32) (placed.tablePlace + row.2 * 32 + 32)
          [moduleSegmentPiece placed.tablePlace row] := by
      intro row inside
      have known := List.fst_mem_of_mem_zipIdx inside
      have packed := packable.each _ (PlacedModule.mem member)
      have valid := ModuleSegment.validate_eq_ok.mp
        (packed.segments _ (mem_of_mem_layOut known)).1
      have length := (encoded_moduleSegment (noteModuleData_valid valid)).2
      exact .single rfl (congrArg (placed.tablePlace + row.2 * 32 + ·) length)
    have region := Span.laid_rows placed.tablePlace 32 _ rows
    rwa [PlacedModule.length_segments] at region
  · intro placed _
    exact .single rfl rfl
  · intro placed _
    exact laid_dataPieces placed
  · intro placed _
    exact laid_payloads placed fun segment _ => laid_dataPieces segment

/-- The packer writes the pieces of all regions, in another order. -/
theorem regionPieces_perm (kernelEntry : VirtualAddress)
    (kernelSegments : List (KernelSegment × List U8)) (modules : List PackedModule) :
    (regionPieces kernelEntry kernelSegments modules).Perm
      (imagePieces kernelEntry kernelSegments modules) := by
  have kernel := flatMap_rows_perm (kernelData kernelSegments modules)
    (fun row => [kernelSegmentPiece row]) dataPieces
  have segments (placed : PlacedModule) := flatMap_rows_perm placed.segments
    (fun row => [moduleSegmentPiece placed.tablePlace row]) dataPieces
  have inner := (List.flatMap_append_perm (placedModules kernelSegments modules) (fun placed =>
      placed.segments.zipIdx.flatMap fun row => [moduleSegmentPiece placed.tablePlace row])
      fun placed => placed.segments.flatMap dataPieces).trans
    (List.Perm.flatMap_left _ fun placed _ => segments placed)
  have named := (inner.append_left _).trans (List.flatMap_append_perm
    (placedModules kernelSegments modules) (fun placed => [namePiece placed]) _)
  have module := (named.append_left _).trans (flatMap_rows_perm
    (placedModules kernelSegments modules)
    (fun row => [moduleRecordPiece (moduleTablePlace kernelSegments) row]) _)
  refine List.Perm.trans ?_ ((kernel.append module).cons _)
  rw [← Multiset.coe_eq_coe]
  simp only [regionPieces, ← Multiset.coe_add, ← Multiset.cons_coe,
    ← Multiset.singleton_add]
  abel

theorem mem_regionPieces {piece : Piece U8} :
    piece ∈ regionPieces kernelEntry kernelSegments modules ↔
      piece = headerPiece kernelEntry kernelSegments modules ∨
      (∃ row ∈ (kernelData kernelSegments modules).zipIdx, piece = kernelSegmentPiece row) ∨
      (∃ row ∈ (placedModules kernelSegments modules).zipIdx,
        piece = moduleRecordPiece (moduleTablePlace kernelSegments) row) ∨
      (∃ placed ∈ placedModules kernelSegments modules, ∃ row ∈ placed.segments.zipIdx,
        piece = moduleSegmentPiece placed.tablePlace row) ∨
      (∃ placed ∈ placedModules kernelSegments modules, piece = namePiece placed) ∨
      (∃ placed ∈ kernelData kernelSegments modules, piece ∈ dataPieces placed) ∨
      ∃ placed ∈ placedModules kernelSegments modules, ∃ segment ∈ placed.segments,
        piece ∈ dataPieces segment := by
  simp only [regionPieces, List.mem_append, List.mem_singleton, List.mem_flatMap, or_assoc]

/-- A piece reads back from the image. -/
theorem imageBytes_slice (packable : Packable kernelEntry kernelSegments modules)
    (short : laidOutSize kernelSegments modules ≤ 0x100_0000) {piece : Piece U8} {length : Nat}
    (member : piece ∈ regionPieces kernelEntry kernelSegments modules)
    (long : piece.data.length = length) :
    slice? (imageBytes kernelEntry kernelSegments modules) piece.start (piece.start + length) =
      some piece.data := by
  have laid := laid_pieces packable short
  have perm := regionPieces_perm kernelEntry kernelSegments modules
  subst long
  refine slice?_patchAll ?_ (laid.apart perm) (perm.mem_iff.mp member)
  rw [List.length_replicate]
  exact laid.fits perm

end Pieces

/-! ### The image of the pieces -/

/-- A module as the parser shows it. -/
def packedModule (placed : PlacedModule) : ImageModule where
  name := (fromUtf8 placed.module.name).getD ""
  record := placed.record
  segments := placed.segments.map fun segment => (noteModuleData segment).1

/-- The image as the parser shows it. -/
def packedImage (kernelEntry : VirtualAddress) (kernelSegments : List (KernelSegment × List U8))
    (modules : List PackedModule) : SystemImage where
  bytes := imageBytes kernelEntry kernelSegments modules
  header := imageHeader kernelEntry kernelSegments modules
  kernelSegments := (kernelData kernelSegments modules).map fun segment =>
    (noteKernelData segment).1
  modules := (placedModules kernelSegments modules).map packedModule

/-! ### Its ranges -/

/-- The range of the payload of a segment, unless it is empty. -/
def dataSpans (placed : Nat × Record × List U8) : List Span := (dataPieces placed).map Piece.span

/-- The ranges of a module that was placed. -/
def placedSpans (placed : PlacedModule) : List Span :=
  spanAt placed.namePlace (nameSize placed.module) ::
    spanAt placed.tablePlace (segmentTableSize placed.module) ::
    placed.segments.flatMap dataSpans

theorem laid_dataSpans (placed : Nat × Record × List U8) :
    Span.Laid id placed.1 (placed.1 + dataSize placed.2) (dataSpans placed) := by
  unfold dataSpans dataPieces
  split
  · exact .single rfl rfl
  · exact .nil (Nat.le_add_right _ _)

/-- A record that notes the place of its payload has the range of the payload. -/
theorem payload_noted {placed : Nat × Record × List U8} {offset fileSize : U32}
    (noted : placed.2.2 ≠ [] → offset.toNat = placed.1)
    (whole : fileSize.toNat = placed.2.2.length) : payload offset fileSize = dataSpans placed := by
  unfold payload dataSpans dataPieces
  by_cases empty : placed.2.2 = []
  · have nothing : fileSize = 0 := by
      rw [← BitVec.toNat_inj, whole, empty]
      rfl
    rw [if_neg (not_not.mpr nothing), if_neg (not_not.mpr empty), List.map_nil]
  · have something : fileSize ≠ 0 := by
      rintro rfl
      exact empty (List.length_eq_zero_iff.mp whole.symm)
    rw [if_pos something, if_pos empty, noted empty, whole]
    rfl

section Ranges

variable {kernelEntry : VirtualAddress} {kernelSegments : List (KernelSegment × List U8)}
  {modules : List PackedModule}

theorem kernelPayload_noted {placed : Nat × KernelSegment × List U8} (small : placed.1 < 2 ^ 32)
    (whole : placed.2.1.fileSize.toNat = placed.2.2.length) :
    kernelPayload (noteKernelData placed).1 = dataSpans placed := by
  rw [← noteKernelData_record placed] at whole
  exact payload_noted (noteKernelData_offset small) whole

theorem modulePayload_noted {placed : Nat × ModuleSegment × List U8} (small : placed.1 < 2 ^ 32)
    (whole : placed.2.1.fileSize.toNat = placed.2.2.length) :
    modulePayload (noteModuleData placed).1 = dataSpans placed := by
  rw [← noteModuleData_record placed] at whole
  exact payload_noted (noteModuleData_offset small) whole

/-- The words of the record of a module hold the numbers of the layout. -/
theorem PlacedModule.record_words {placed : PlacedModule}
    (member : placed ∈ placedModules kernelSegments modules)
    (short : laidOutSize kernelSegments modules ≤ 0x100_0000) :
    placed.record.nameOffset.toNat = placed.namePlace ∧
      placed.record.nameLength.toNat = nameSize placed.module ∧
      placed.record.segmentTableOffset.toNat = placed.tablePlace ∧
      placed.record.segmentCount.toNat = placed.module.segments.length := by
  obtain ⟨tableInside, nameInside, _⟩ := PlacedModule.inside member
  have count : placed.module.segments.length < 2 ^ 32 := by
    unfold segmentTableSize at tableInside
    omega
  have length : nameSize placed.module < 2 ^ 32 := by omega
  exact ⟨Nat.mod_eq_of_lt (by omega), Nat.mod_eq_of_lt length, Nat.mod_eq_of_lt (by omega),
    Nat.mod_eq_of_lt count⟩

/-- The parser meets the ranges of a module as they were placed. -/
theorem moduleSpans_packed (packable : Packable kernelEntry kernelSegments modules)
    (short : laidOutSize kernelSegments modules ≤ 0x100_0000) {placed : PlacedModule}
    (member : placed ∈ placedModules kernelSegments modules) :
    moduleSpans (packedModule placed) = placedSpans placed := by
  obtain ⟨nameOffset, nameLength, tableOffset, segmentCount⟩ :=
    PlacedModule.record_words member short
  obtain ⟨_, _, dataInside⟩ := PlacedModule.inside member
  have payloads : (placed.segments.map fun segment => (noteModuleData segment).1).flatMap
      modulePayload = placed.segments.flatMap dataSpans := by
    rw [List.flatMap_map]
    refine List.flatMap_congr fun segment known => ?_
    have inside := dataInside segment known
    have packed := (packable.each _ (PlacedModule.mem member)).segments _ (mem_of_mem_layOut known)
    exact modulePayload_noted (by omega) packed.2
  rw [moduleSpans, placedSpans, packedModule, payloads, nameOffset, nameLength, tableOffset,
    segmentCount, segmentTableSize]

/-- Every range of the image in the order the parser meets them. -/
theorem spans_packed (packable : Packable kernelEntry kernelSegments modules)
    (short : laidOutSize kernelSegments modules ≤ 0x100_0000) :
    (packedImage kernelEntry kernelSegments modules).spans =
      spanAt 0 64 :: spanAt 64 (kernelSegments.length * 32) ::
        spanAt (moduleTablePlace kernelSegments) (modules.length * 32) ::
        ((kernelData kernelSegments modules).flatMap dataSpans ++
          (placedModules kernelSegments modules).flatMap placedSpans) := by
  obtain ⟨_, kernelCount, tableOffset, moduleCount⟩ := imageHeader_words kernelEntry short
  have kernel : (packedImage kernelEntry kernelSegments modules).kernelSegments.flatMap
      kernelPayload = (kernelData kernelSegments modules).flatMap dataSpans := by
    rw [packedImage, List.flatMap_map]
    refine List.flatMap_congr fun segment known => ?_
    have inside := (layout_inside kernelSegments modules).2.2.1 segment known
    have packed := packable.segments _ (mem_of_mem_layOut known)
    exact kernelPayload_noted (by omega) packed.2
  have module : (packedImage kernelEntry kernelSegments modules).modules.flatMap moduleSpans =
      (placedModules kernelSegments modules).flatMap placedSpans := by
    rw [packedImage, List.flatMap_map]
    exact List.flatMap_congr fun placed member => moduleSpans_packed packable short member
  rw [SystemImage.spans, SystemImage.kernelTable, SystemImage.moduleTable, kernel, module]
  simp only [packedImage, kernelCount, tableOffset, moduleCount]
  rfl

/-- The ranges of an image by regions. -/
def regionSpans (kernelSegments : List (KernelSegment × List U8)) (modules : List PackedModule) :
    List Span :=
  [spanAt 0 64] ++ [spanAt 64 (kernelSegments.length * 32)] ++
    [spanAt (moduleTablePlace kernelSegments) (modules.length * 32)] ++
    (placedModules kernelSegments modules).flatMap (fun placed =>
      [spanAt placed.tablePlace (segmentTableSize placed.module)]) ++
    (placedModules kernelSegments modules).flatMap (fun placed =>
      [spanAt placed.namePlace (nameSize placed.module)]) ++
    (kernelData kernelSegments modules).flatMap dataSpans ++
    (placedModules kernelSegments modules).flatMap fun placed => placed.segments.flatMap dataSpans

theorem laid_spans (kernelSegments : List (KernelSegment × List U8))
    (modules : List PackedModule) :
    Span.Laid id 0 (laidOutSize kernelSegments modules) (regionSpans kernelSegments modules) := by
  refine laid_regions ?_ ?_ ?_ ?_ ?_ ?_ ?_
  · exact .single rfl rfl
  · exact .single rfl rfl
  · exact .single rfl rfl
  · intro placed _
    exact .single rfl rfl
  · intro placed _
    exact .single rfl rfl
  · intro placed _
    exact laid_dataSpans placed
  · intro placed _
    exact laid_payloads placed fun segment _ => laid_dataSpans segment

theorem regionSpans_perm (packable : Packable kernelEntry kernelSegments modules)
    (short : laidOutSize kernelSegments modules ≤ 0x100_0000) :
    (regionSpans kernelSegments modules).Perm
      (packedImage kernelEntry kernelSegments modules).spans := by
  have tables := List.flatMap_append_perm (placedModules kernelSegments modules)
    (fun placed => [spanAt placed.tablePlace (segmentTableSize placed.module)])
    fun placed => placed.segments.flatMap dataSpans
  have names := (tables.append_left _).trans (List.flatMap_append_perm
    (placedModules kernelSegments modules)
    (fun placed => [spanAt placed.namePlace (nameSize placed.module)]) _)
  have module := names.append_left ((kernelData kernelSegments modules).flatMap dataSpans)
  rw [spans_packed packable short]
  refine List.Perm.trans ?_ (((module.cons _).cons _).cons _)
  rw [← Multiset.coe_eq_coe]
  simp only [regionSpans, ← Multiset.coe_add, ← Multiset.cons_coe, ← Multiset.singleton_add]
  abel

end Ranges

/-! ### Its records -/

section Records

variable {bytes : List U8} {table : U32} {index : Nat}

/-- An encoded record is stored where it reads back. -/
theorem storesKernelSegment_of_slice {segment : KernelSegment} (valid : segment.Valid)
    (read : slice? bytes (table.toNat + index * 32) (table.toNat + index * 32 + 32) =
      some (encoded segment.encode)) : StoresKernelSegment bytes table index segment := by
  obtain ⟨record, done, length, zeros, stored⟩ := KernelSegment.encode_stored valid
  rw [done] at read
  obtain ⟨_, inside, _⟩ := slice?_eq_some.mp read
  obtain ⟨reserved, fields, _⟩ := (KernelSegment.decode_slice read).mp
    (KernelSegment.decode_eq_ok.mpr ⟨length.ge, zeros, stored.symm, valid⟩)
  exact ⟨inside, reserved, fields, valid⟩

theorem storesModuleSegment_of_slice {segment : ModuleSegment} (valid : segment.Valid)
    (read : slice? bytes (table.toNat + index * 32) (table.toNat + index * 32 + 32) =
      some (encoded segment.encode)) : StoresModuleSegment bytes table index segment := by
  obtain ⟨record, done, length, zeros, stored⟩ := ModuleSegment.encode_stored valid
  rw [done] at read
  obtain ⟨_, inside, _⟩ := slice?_eq_some.mp read
  obtain ⟨reserved, fields, _⟩ := (ModuleSegment.decode_slice read).mp
    (ModuleSegment.decode_eq_ok.mpr ⟨length.ge, zeros, stored.symm, valid⟩)
  exact ⟨inside, reserved, fields, valid⟩

/-- The rules on kernel segments do not read the places of payloads. -/
theorem kernelRules_unplaced (segments : List KernelSegment) (entry : VirtualAddress) :
    KernelRules (segments.map fun segment => { segment with dataOffset := 0 }) entry ↔
      KernelRules segments entry := by
  constructor
  · rintro ⟨aligned, ⟨_, first, entryCode⟩, ⟨_, second, bootstrapCode⟩, workspace, apart⟩
    obtain ⟨segment, member, rfl⟩ := List.mem_map.mp first
    obtain ⟨segment', member', rfl⟩ := List.mem_map.mp second
    exact ⟨aligned, ⟨segment, member, entryCode⟩, ⟨segment', member', bootstrapCode⟩,
      List.forall_mem_map.mp workspace, List.pairwise_map.mp apart⟩
  · rintro ⟨aligned, ⟨_, first, entryCode⟩, ⟨_, second, bootstrapCode⟩, workspace, apart⟩
    exact ⟨aligned, ⟨_, List.mem_map_of_mem first, entryCode⟩,
      ⟨_, List.mem_map_of_mem second, bootstrapCode⟩, List.forall_mem_map.mpr workspace,
      List.pairwise_map.mpr apart⟩

theorem moduleRules_unplaced (segments : List ModuleSegment) (entry : VirtualAddress) :
    ModuleRules (segments.map fun segment => { segment with dataOffset := 0 }) entry ↔
      ModuleRules segments entry := by
  constructor
  · rintro ⟨aligned, ⟨_, first, entryCode⟩, unwrapped, outside, apart⟩
    obtain ⟨segment, member, rfl⟩ := List.mem_map.mp first
    rw [List.pairwise_map] at apart
    exact ⟨aligned, ⟨segment, member, entryCode⟩, List.forall_mem_map.mp unwrapped,
      List.forall_mem_map.mp outside, apart⟩
  · rintro ⟨aligned, ⟨_, first, entryCode⟩, unwrapped, outside, apart⟩
    refine ⟨aligned, ⟨_, List.mem_map_of_mem first, entryCode⟩, List.forall_mem_map.mpr unwrapped,
      List.forall_mem_map.mpr outside, ?_⟩
    rw [List.pairwise_map]
    exact apart

end Records

/-! ### The parser on the image -/

section Storing

variable {kernelEntry : VirtualAddress} {kernelSegments : List (KernelSegment × List U8)}
  {modules : List PackedModule}

theorem packedModule_name {placed : PlacedModule} (packable : PackableModule placed.module) :
    fromUtf8 placed.module.name = some (packedModule placed).name := by
  obtain ⟨name, decoded⟩ := Option.isSome_iff_exists.mp packable.utf8
  rw [packedModule, decoded]
  rfl

theorem packedModule_named {placed : PlacedModule} (packable : PackableModule placed.module) :
    (packedModule placed).name ≠ "" := by
  intro empty
  have spelled := asBytes_of_fromUtf8 (packedModule_name packable)
  rw [empty] at spelled
  exact packable.nonempty spelled.symm

/-- The rules carry over to the segments of a module with their places. -/
theorem moduleRules_packed {placed : PlacedModule} (packable : PackableModule placed.module) :
    ModuleRules (packedModule placed).segments placed.module.entry := by
  have valid : ∀ segment ∈ placed.module.segments.map Prod.fst, segment.Valid := by
    rw [List.forall_mem_map]
    intro segment member
    exact ModuleSegment.validate_eq_ok.mp (packable.segments segment member).1
  have rules := (validateModuleRecords_eq_ok valid).mp packable.records
  have same : (packedModule placed).segments.map (fun segment => { segment with dataOffset := 0 }) =
      (placed.module.segments.map Prod.fst).map fun segment => { segment with dataOffset := 0 } := by
    have known : placed.module.segments = placed.segments.map Prod.snd :=
      (map_snd_layOut _ _ _ _).symm
    rw [known, packedModule, List.map_map, List.map_map, List.map_map]
    refine List.map_congr_left fun segment _ => ?_
    have record := noteModuleData_record segment
    exact congrArg (fun segment : ModuleSegment => { segment with dataOffset := 0 }) record
  rwa [← moduleRules_unplaced, same, moduleRules_unplaced]

theorem kernelRules_packed (packable : Packable kernelEntry kernelSegments modules) :
    KernelRules (packedImage kernelEntry kernelSegments modules).kernelSegments kernelEntry := by
  have valid : ∀ segment ∈ kernelSegments.map Prod.fst, segment.Valid := by
    rw [List.forall_mem_map]
    intro segment member
    exact KernelSegment.validate_eq_ok.mp (packable.segments segment member).1
  have rules := (validateKernelRecords_eq_ok valid).mp packable.records
  have same : (packedImage kernelEntry kernelSegments modules).kernelSegments.map
        (fun segment => { segment with dataOffset := 0 }) =
      (kernelSegments.map Prod.fst).map fun segment => { segment with dataOffset := 0 } := by
    have known : kernelSegments = (kernelData kernelSegments modules).map Prod.snd :=
      (map_snd_layOut _ _ _ _).symm
    conv_rhs => rw [known]
    rw [packedImage, List.map_map, List.map_map, List.map_map]
    refine List.map_congr_left fun segment _ => ?_
    have record := noteKernelData_record segment
    exact congrArg (fun segment : KernelSegment => { segment with dataOffset := 0 }) record
  rwa [← kernelRules_unplaced, same, kernelRules_unplaced]

/-- The image stores the segments of a module in its table. -/
theorem storesModuleSegments_packed (packable : Packable kernelEntry kernelSegments modules)
    (short : laidOutSize kernelSegments modules ≤ 0x100_0000) {placed : PlacedModule}
    (member : placed ∈ placedModules kernelSegments modules) :
    List.Forall₂ (StoresModuleSegment (imageBytes kernelEntry kernelSegments modules)
        placed.record.segmentTableOffset)
      (List.range placed.record.segmentCount.toNat) (packedModule placed).segments := by
  obtain ⟨_, _, tableOffset, segmentCount⟩ := PlacedModule.record_words member short
  rw [segmentCount, ← PlacedModule.length_segments]
  refine forall₂_rows fun row inside => ?_
  have packed := packable.each _ (PlacedModule.mem member)
  have known := List.fst_mem_of_mem_zipIdx inside
  have valid := noteModuleData_valid
    (ModuleSegment.validate_eq_ok.mp (packed.segments _ (mem_of_mem_layOut known)).1)
  have written : moduleSegmentPiece placed.tablePlace row ∈
      regionPieces kernelEntry kernelSegments modules :=
    mem_regionPieces.mpr (.inr (.inr (.inr (.inl ⟨placed, member, row, inside, rfl⟩))))
  have read := imageBytes_slice packable short written (encoded_moduleSegment valid).2
  rw [moduleSegmentPiece, ← tableOffset] at read
  exact storesModuleSegment_of_slice valid read

/-- The image stores a module in its table. -/
theorem storesModule_packed (packable : Packable kernelEntry kernelSegments modules)
    (short : laidOutSize kernelSegments modules ≤ 0x100_0000) {row : PlacedModule × Nat}
    (inside : row ∈ (placedModules kernelSegments modules).zipIdx) :
    StoresModule (imageBytes kernelEntry kernelSegments modules)
      (imageHeader kernelEntry kernelSegments modules).moduleTableOffset row.2
      (packedModule row.1) := by
  have member := List.fst_mem_of_mem_zipIdx inside
  have packed := packable.each _ (PlacedModule.mem member)
  obtain ⟨_, _, table, _⟩ := imageHeader_words kernelEntry short
  obtain ⟨nameOffset, nameLength, _, _⟩ := PlacedModule.record_words member short
  obtain ⟨long, flags, zeros, stored⟩ := ModuleRecord.encode_stored row.1.record
  have recorded : moduleRecordPiece (moduleTablePlace kernelSegments) row ∈
      regionPieces kernelEntry kernelSegments modules :=
    mem_regionPieces.mpr (.inr (.inr (.inl ⟨row, inside, rfl⟩)))
  have spelled : namePiece row.1 ∈ regionPieces kernelEntry kernelSegments modules :=
    mem_regionPieces.mpr (.inr (.inr (.inr (.inr (.inl ⟨row.1, member, rfl⟩)))))
  have read := imageBytes_slice packable short recorded (length_moduleRecordPiece _ _)
  have name := imageBytes_slice packable short spelled nameLength.symm
  simp only [moduleRecordPiece, ← table] at read
  simp only [namePiece, ← nameOffset] at name
  obtain ⟨_, fits, _⟩ := slice?_eq_some.mp read
  obtain ⟨flags, reserved, fields⟩ := (ModuleRecord.decode_slice read).mp
    (ModuleRecord.decode_eq_ok.mpr ⟨long.ge, flags, zeros, stored.symm⟩)
  exact ⟨fits, flags, reserved, fields, ⟨_, name, packedModule_name packed⟩,
    packedModule_named packed, storesModuleSegments_packed packable short member,
    moduleRules_packed packed⟩

/-- The image stores the kernel segments in their table. -/
theorem storesKernelSegments_packed (packable : Packable kernelEntry kernelSegments modules)
    (short : laidOutSize kernelSegments modules ≤ 0x100_0000) :
    List.Forall₂ (StoresKernelSegment (imageBytes kernelEntry kernelSegments modules) 64)
      (List.range kernelSegments.length)
      (packedImage kernelEntry kernelSegments modules).kernelSegments := by
  have length : kernelSegments.length = (kernelData kernelSegments modules).length := by
    rw [kernelData, length_layOut]
  rw [length]
  refine forall₂_rows fun row inside => ?_
  have known := List.fst_mem_of_mem_zipIdx inside
  have valid := noteKernelData_valid (KernelSegment.validate_eq_ok.mp
    (packable.segments _ (mem_of_mem_layOut known)).1)
  have written : kernelSegmentPiece row ∈ regionPieces kernelEntry kernelSegments modules :=
    mem_regionPieces.mpr (.inr (.inl ⟨row, inside, rfl⟩))
  have read := imageBytes_slice packable short written (encoded_kernelSegment valid).2
  exact storesKernelSegment_of_slice valid read

/-- Distinct bytes are distinct names. -/
theorem names_packed (packable : Packable kernelEntry kernelSegments modules) :
    ((packedImage kernelEntry kernelSegments modules).modules.map ImageModule.name).Nodup := by
  have spelled : ((packedImage kernelEntry kernelSegments modules).modules.map
      ImageModule.name).map asBytes = modules.map PackedModule.name := by
    conv_rhs => rw [← map_module kernelSegments modules]
    rw [packedImage, List.map_map, List.map_map, List.map_map]
    refine List.map_congr_left fun placed member => ?_
    exact asBytes_of_fromUtf8 (packedModule_name (packable.each _ (PlacedModule.mem member)))
  have distinct := packable.names
  rw [← spelled] at distinct
  exact distinct.of_map

/-- The image stores its records, and they obey their rules. -/
theorem stores_packed (packable : Packable kernelEntry kernelSegments modules)
    (short : laidOutSize kernelSegments modules ≤ 0x100_0000) :
    Stores (imageBytes kernelEntry kernelSegments modules)
      (packedImage kernelEntry kernelSegments modules) := by
  obtain ⟨size, kernelCount, _, moduleCount⟩ := imageHeader_words kernelEntry short
  have valid := imageHeader_valid packable short
  obtain ⟨_, long, framed, stored⟩ := encoded_header valid
  have read := imageBytes_slice packable short (mem_regionPieces.mpr (.inl rfl)) long
  refine ⟨rfl, framed.of_slice read, ?_, valid, ?_, ?_, kernelRules_packed packable, ?_,
    names_packed packable⟩
  · exact stored.symm.trans (ImageHeader.stored_slice read)
  · exact (length_imageBytes _ _ _).trans size.symm
  · have stored := storesKernelSegments_packed packable short
    rwa [← kernelCount] at stored
  · have stored := forall₂_rows fun row inside => storesModule_packed packable short inside
    rwa [length_placedModules, ← moduleCount] at stored

/-- The parser accepts what the packer gives. -/
theorem parse_packed (packable : Packable kernelEntry kernelSegments modules)
    (short : laidOutSize kernelSegments modules ≤ 0x100_0000) :
    parse (imageBytes kernelEntry kernelSegments modules) =
      .ok (packedImage kernelEntry kernelSegments modules) := by
  have laid := laid_spans kernelSegments modules
  have perm := regionSpans_perm packable short
  refine parse_eq_ok.mpr ⟨stores_packed packable short, ?_, laid.apart perm⟩
  rw [length_imageBytes]
  exact laid.fits perm

end Storing

end Minemu.Image
