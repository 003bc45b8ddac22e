import Minemu.Image.Parsing
import Minemu.Library.Layout

/-! Where the packer puts tables, names and payloads, and when it can record the places. -/

namespace Minemu.Image

open Library Platform

/-! ### The layout on unbounded numbers -/

def alignUp4 (value : Nat) : Nat := (value + 3) / 4 * 4

def segmentTableSize (module : PackedModule) : Nat := module.segments.length * 32
def nameSize (module : PackedModule) : Nat := module.name.length
def dataSize (segment : Record × List U8) : Nat := segment.2.length
def payloadSize (module : PackedModule) : Nat := (module.segments.map dataSize).sum

section Layout

variable (kernelSegments : List (KernelSegment × List U8)) (modules : List PackedModule)

def moduleTablePlace : Nat := 64 + kernelSegments.length * 32
def segmentTablesPlace : Nat := moduleTablePlace kernelSegments + modules.length * 32
def segmentTablesEnd : Nat :=
  layOutEnd alignUp4 segmentTableSize (segmentTablesPlace kernelSegments modules) modules
def namesPlace : Nat := alignUp4 (segmentTablesEnd kernelSegments modules)
def namesEnd : Nat := layOutEnd id nameSize (namesPlace kernelSegments modules) modules
def kernelDataPlace : Nat := alignUp4 (namesEnd kernelSegments modules)
def moduleDataPlace : Nat :=
  layOutEnd id dataSize (kernelDataPlace kernelSegments modules) kernelSegments

/-- The size of the image. -/
def laidOutSize : Nat :=
  layOutEnd id payloadSize (moduleDataPlace kernelSegments modules) modules

def segmentTables : List (Nat × PackedModule) :=
  layOut alignUp4 segmentTableSize (segmentTablesPlace kernelSegments modules) modules
def moduleNames : List (Nat × PackedModule) :=
  layOut id nameSize (namesPlace kernelSegments modules) modules
def kernelData : List (Nat × KernelSegment × List U8) :=
  layOut id dataSize (kernelDataPlace kernelSegments modules) kernelSegments
def modulePayloads : List (Nat × PackedModule) :=
  layOut id payloadSize (moduleDataPlace kernelSegments modules) modules

/-- The segments of a module whose payloads start at a place, each with its own place. -/
def moduleData (placed : Nat × PackedModule) : List (Nat × ModuleSegment × List U8) :=
  layOut id dataSize placed.1 placed.2.segments

/-- The places of payloads that are not empty. -/
def dataOffsets (placed : List (Nat × Record × List U8)) : List Nat :=
  (placed.filter fun segment => segment.2.2 ≠ []).map Prod.fst

/-- Every offset that the packer records. -/
def recordedOffsets : List Nat :=
  (segmentTables kernelSegments modules).map Prod.fst ++
    (moduleNames kernelSegments modules).map Prod.fst ++
    dataOffsets (kernelData kernelSegments modules) ++
    (modulePayloads kernelSegments modules).flatMap fun placed => dataOffsets (moduleData placed)

end Layout

/-- A segment and its payload, with the place of the payload in the record unless it is empty. -/
def noteData (set : Record → U32 → Record) (placed : Nat × Record × List U8) : Record × List U8 :=
  (if placed.2.2 ≠ [] then set placed.2.1 (BitVec.ofNat 32 placed.1) else placed.2.1, placed.2.2)

def noteKernelData := noteData fun record : KernelSegment => fun dataOffset =>
  { record with dataOffset }

def noteModuleData := noteData fun record : ModuleSegment => fun dataOffset =>
  { record with dataOffset }

def noteModule (placed : Nat × PackedModule) : PackedModule :=
  { placed.2 with segments := (moduleData placed).map noteModuleData }

/-! ### Single steps -/

theorem le_alignUp4 (value : Nat) : value ≤ alignUp4 value := by
  unfold alignUp4
  omega

theorem size32_eq_ok {value : Nat} {detail : String} {word : U32} :
    size32 value detail = .ok word ↔ value < 2 ^ 32 ∧ word = BitVec.ofNat 32 value := by
  simp only [size32, bind_eq_ok, require_eq_ok, exists_const, pure, Except.pure, Except.ok.injEq]
  rw [@eq_comm _ word]

theorem checkedAdd_eq_ok {left right sum : Nat} :
    checkedAdd left right = .ok sum ↔ left + right < 2 ^ 64 ∧ sum = left + right := by
  simp only [checkedAdd, bind_eq_ok, require_eq_ok, exists_const, pure, Except.pure,
    Except.ok.injEq]
  rw [@eq_comm _ sum]
  rfl

theorem align4_eq_ok {value aligned : Nat} :
    align4 value = .ok aligned ↔ value + 3 < 2 ^ 64 ∧ aligned = alignUp4 value := by
  have added : align4 value = .ok aligned ↔
      ∃ sum, checkedAdd value 3 = .ok sum ∧ sum / 4 * 4 = aligned := by
    unfold align4
    cases checkedAdd value 3 <;> simp [Except.map]
  simp only [added, checkedAdd_eq_ok, and_assoc, exists_and_left, exists_eq_left]
  rw [@eq_comm _ aligned]
  rfl

/-- A place that can be recorded, with room behind it. -/
def Fits (place size : Nat) : Prop := place < 2 ^ 32 ∧ place + size < 2 ^ 64

def DataFits (placed : Nat × Record × List U8) : Prop :=
  placed.2.2 ≠ [] → Fits placed.1 placed.2.2.length

theorem placeSegmentTable_eq_ok (cursor : Nat) (offsets : List U32) (module : PackedModule)
    (after : Nat × List U32) :
    placeSegmentTable (cursor, offsets) module = .ok after ↔
      Fits (alignUp4 cursor) (segmentTableSize module) ∧
        after = (alignUp4 cursor + segmentTableSize module,
          offsets ++ [BitVec.ofNat 32 (alignUp4 cursor)]) := by
  have above := le_alignUp4 cursor
  simp only [placeSegmentTable, bind_eq_ok, align4_eq_ok, size32_eq_ok, checkedAdd_eq_ok,
    moduleSegmentSize, pure, Except.pure, Except.ok.injEq]
  constructor
  · rintro ⟨_, ⟨_, rfl⟩, _, ⟨small, rfl⟩, _, ⟨room, rfl⟩, rfl⟩
    exact ⟨⟨small, room⟩, rfl⟩
  · rintro ⟨⟨small, room⟩, rfl⟩
    exact ⟨_, ⟨by omega, rfl⟩, _, ⟨small, rfl⟩, _, ⟨room, rfl⟩, rfl⟩

theorem placeName_eq_ok (cursor : Nat) (offsets : List U32) (module : PackedModule)
    (after : Nat × List U32) :
    placeName (cursor, offsets) module = .ok after ↔
      Fits cursor (nameSize module) ∧
        after = (cursor + nameSize module, offsets ++ [BitVec.ofNat 32 cursor]) := by
  simp only [placeName, bind_eq_ok, size32_eq_ok, checkedAdd_eq_ok, pure, Except.pure,
    Except.ok.injEq]
  constructor
  · rintro ⟨_, ⟨small, rfl⟩, _, ⟨room, rfl⟩, rfl⟩
    exact ⟨⟨small, room⟩, rfl⟩
  · rintro ⟨⟨small, room⟩, rfl⟩
    exact ⟨_, ⟨small, rfl⟩, _, ⟨room, rfl⟩, rfl⟩

theorem placeData_eq_ok {set : Record → U32 → Record} {detail : String} (cursor : Nat)
    (placed : List (Record × List U8)) (segment : Record × List U8)
    (after : Nat × List (Record × List U8)) :
    placeData set detail (cursor, placed) segment = .ok after ↔
      DataFits (cursor, segment) ∧
        after = (cursor + dataSize segment, placed ++ [noteData set (cursor, segment)]) := by
  obtain ⟨record, data⟩ := segment
  by_cases empty : data = []
  · simp [placeData, DataFits, noteData, dataSize, empty, pure, Except.pure, eq_comm]
  · simp only [placeData, ne_eq, empty, not_false_eq_true, ↓reduceIte, bind_eq_ok, size32_eq_ok,
      checkedAdd_eq_ok, pure, Except.pure, Except.ok.injEq, DataFits, noteData, dataSize,
      forall_const]
    constructor
    · rintro ⟨_, ⟨small, rfl⟩, _, ⟨room, rfl⟩, rfl⟩
      exact ⟨⟨small, room⟩, rfl⟩
    · rintro ⟨⟨small, room⟩, rfl⟩
      exact ⟨_, ⟨small, rfl⟩, _, ⟨room, rfl⟩, rfl⟩

/-! ### The loops -/

theorem dataLoop_eq_ok {set : Record → U32 → Record} {detail : String}
    {segments : List (Record × List U8)} {cursor : Nat}
    {after : Nat × List (Record × List U8)} :
    segments.foldlM (placeData set detail) (cursor, []) = .ok after ↔
      (∀ placed ∈ layOut id dataSize cursor segments, DataFits placed) ∧
        after = (layOutEnd id dataSize cursor segments,
          (layOut id dataSize cursor segments).map (noteData set)) :=
  layOut_eq_ok placeData_eq_ok segments cursor [] after

theorem placeModule_eq_ok (cursor : Nat) (placed : List PackedModule) (module : PackedModule)
    (after : Nat × List PackedModule) :
    placeModule (cursor, placed) module = .ok after ↔
      (∀ segment ∈ moduleData (cursor, module), DataFits segment) ∧
        after = (cursor + payloadSize module, placed ++ [noteModule (cursor, module)]) := by
  simp only [placeModule, bind_eq_ok, placeModuleData, dataLoop_eq_ok, pure, Except.pure,
    Except.ok.injEq, layOutEnd_id]
  constructor
  · rintro ⟨_, ⟨fits, rfl⟩, rfl⟩
    exact ⟨fits, rfl⟩
  · rintro ⟨fits, rfl⟩
    exact ⟨_, ⟨fits, rfl⟩, rfl⟩

theorem segmentTableLoop_eq_ok {modules : List PackedModule} {cursor : Nat}
    {after : Nat × List U32} :
    modules.foldlM placeSegmentTable (cursor, []) = .ok after ↔
      (∀ placed ∈ layOut alignUp4 segmentTableSize cursor modules,
        Fits placed.1 (segmentTableSize placed.2)) ∧
        after = (layOutEnd alignUp4 segmentTableSize cursor modules,
          (layOut alignUp4 segmentTableSize cursor modules).map fun placed =>
            BitVec.ofNat 32 placed.1) :=
  layOut_eq_ok placeSegmentTable_eq_ok modules cursor [] after

theorem nameLoop_eq_ok {modules : List PackedModule} {cursor : Nat} {after : Nat × List U32} :
    modules.foldlM placeName (cursor, []) = .ok after ↔
      (∀ placed ∈ layOut id nameSize cursor modules, Fits placed.1 (nameSize placed.2)) ∧
        after = (layOutEnd id nameSize cursor modules,
          (layOut id nameSize cursor modules).map fun placed => BitVec.ofNat 32 placed.1) :=
  layOut_eq_ok placeName_eq_ok modules cursor [] after

theorem moduleLoop_places {modules : List PackedModule} {cursor : Nat}
    {after : Nat × List PackedModule} :
    modules.foldlM placeModule (cursor, []) = .ok after ↔
      (∀ placed ∈ layOut id payloadSize cursor modules,
        ∀ segment ∈ moduleData placed, DataFits segment) ∧
        after = (layOutEnd id payloadSize cursor modules,
          (layOut id payloadSize cursor modules).map noteModule) :=
  layOut_eq_ok placeModule_eq_ok modules cursor [] after

/-! ### The packer in two passes -/

/-- What placing leaves: the size, the recorded offsets and the records with theirs. -/
structure Placement where
  cursor : Nat
  moduleSegmentOffsets : List U32
  moduleNameOffsets : List U32
  kernelSegments : List (KernelSegment × List U8)
  modules : List PackedModule

/-- The passes of the packer that only place. -/
def place (kernelSegments : List (KernelSegment × List U8)) (modules : List PackedModule) :
    Outcome Placement := do
  let cursor := imageHeaderSize + kernelSegments.length * kernelSegmentSize +
    modules.length * moduleRecordSize
  let (cursor, moduleSegmentOffsets) ← modules.foldlM placeSegmentTable (cursor, [])
  let cursor ← align4 cursor
  let (cursor, moduleNameOffsets) ← modules.foldlM placeName (cursor, [])
  let cursor ← align4 cursor
  let (cursor, kernelSegments) ← kernelSegments.foldlM placeKernelData (cursor, [])
  let (cursor, modules) ← modules.foldlM placeModule (cursor, [])
  return { cursor, moduleSegmentOffsets, moduleNameOffsets, kernelSegments, modules }

/-- The pass that writes. -/
def write (kernelEntry : VirtualAddress) (moduleTableOffset : Nat) (placed : Placement) :
    Outcome SystemImage := do
  let header : ImageHeader :=
    { imageSize := ← size32 placed.cursor "image size"
      kernelSegmentTableOffset := ← size32 imageHeaderSize "kernel table offset"
      kernelSegmentCount := ← size32 placed.kernelSegments.length "kernel segment count"
      moduleTableOffset := ← size32 moduleTableOffset "module table offset"
      moduleCount := ← size32 placed.modules.length "module count"
      bootstrapEntryPaddr := ⟨Platform.bootstrapEntryPaddr⟩
      kernelEntryVaddr := kernelEntry
      bootInfoPaddr := ⟨Platform.bootInfoPaddr⟩ }
  let bytes ← copied (List.replicate placed.cursor 0) 0 (← platform header.encode)
  let bytes ← placed.kernelSegments.zipIdx.foldlM (writeKernelSegment imageHeaderSize) bytes
  let bytes ← placed.modules.zipIdx.foldlM
    (writeModule moduleTableOffset placed.moduleNameOffsets placed.moduleSegmentOffsets) bytes
  parse bytes

theorem buildImage_eq (kernelEntry : VirtualAddress)
    (kernelSegments : List (KernelSegment × List U8)) (modules : List PackedModule) :
    buildImage kernelEntry kernelSegments modules =
      place kernelSegments modules >>= fun placed =>
        require (¬ placed.cursor > MemRegion.systemRom.size.toNat) (.returned .romOverflow) >>=
          fun _ => write kernelEntry (imageHeaderSize + kernelSegments.length * kernelSegmentSize)
            placed := by
  simp only [buildImage, place, write, bind_assoc, pure_bind]

/-! ### Placing as a whole -/

section Placing

variable {kernelSegments : List (KernelSegment × List U8)} {modules : List PackedModule}

/-- Every offset fits its record, and the size of the image fits a `usize`. -/
structure Recordable (kernelSegments : List (KernelSegment × List U8))
    (modules : List PackedModule) : Prop where
  offsets : ∀ offset ∈ recordedOffsets kernelSegments modules, offset < 2 ^ 32
  size : laidOutSize kernelSegments modules < 2 ^ 64

def placement (kernelSegments : List (KernelSegment × List U8)) (modules : List PackedModule) :
    Placement where
  cursor := laidOutSize kernelSegments modules
  moduleSegmentOffsets := (segmentTables kernelSegments modules).map fun placed =>
    BitVec.ofNat 32 placed.1
  moduleNameOffsets := (moduleNames kernelSegments modules).map fun placed =>
    BitVec.ofNat 32 placed.1
  kernelSegments := (kernelData kernelSegments modules).map noteKernelData
  modules := (modulePayloads kernelSegments modules).map noteModule

@[simp] theorem placement_cursor : (placement kernelSegments modules).cursor =
    laidOutSize kernelSegments modules := rfl

@[simp] theorem length_placement :
    (placement kernelSegments modules).kernelSegments.length = kernelSegments.length ∧
      (placement kernelSegments modules).modules.length = modules.length := by
  simp [placement, kernelData, modulePayloads]

/-- The regions of an image follow each other. -/
theorem regions_ordered (kernelSegments : List (KernelSegment × List U8))
    (modules : List PackedModule) :
    segmentTablesPlace kernelSegments modules ≤ segmentTablesEnd kernelSegments modules ∧
      segmentTablesEnd kernelSegments modules ≤ namesPlace kernelSegments modules ∧
      namesPlace kernelSegments modules ≤ namesEnd kernelSegments modules ∧
      namesEnd kernelSegments modules ≤ kernelDataPlace kernelSegments modules ∧
      kernelDataPlace kernelSegments modules ≤ moduleDataPlace kernelSegments modules ∧
      moduleDataPlace kernelSegments modules ≤ laidOutSize kernelSegments modules :=
  ⟨Span.le_layOutEnd le_alignUp4 _ _, le_alignUp4 _, Span.le_layOutEnd (fun _ => le_rfl) _ _,
    le_alignUp4 _, Span.le_layOutEnd (fun _ => le_rfl) _ _, Span.le_layOutEnd (fun _ => le_rfl) _ _⟩

/-- The payloads of a module lie one behind the other. -/
theorem moduleData_end (placed : Nat × PackedModule) :
    layOutEnd id dataSize placed.1 placed.2.segments = placed.1 + payloadSize placed.2 :=
  layOutEnd_id _ _ _

/-- Every table, name and payload ends inside the image. -/
theorem layout_inside (kernelSegments : List (KernelSegment × List U8))
    (modules : List PackedModule) :
    (∀ placed ∈ segmentTables kernelSegments modules,
        placed.1 + segmentTableSize placed.2 ≤ laidOutSize kernelSegments modules) ∧
      (∀ placed ∈ moduleNames kernelSegments modules,
        placed.1 + nameSize placed.2 ≤ laidOutSize kernelSegments modules) ∧
      (∀ placed ∈ kernelData kernelSegments modules,
        placed.1 + dataSize placed.2 ≤ laidOutSize kernelSegments modules) ∧
      ∀ placed ∈ modulePayloads kernelSegments modules, ∀ segment ∈ moduleData placed,
        segment.1 + dataSize segment.2 ≤ laidOutSize kernelSegments modules := by
  obtain ⟨tables, beforeNames, names, beforeData, kernelEnd, moduleEnd⟩ :=
    regions_ordered kernelSegments modules
  refine ⟨?_, ?_, ?_, ?_⟩
  · intro placed member
    have inside : _ ≤ segmentTablesEnd kernelSegments modules :=
      (Span.layOut_inside le_alignUp4 member).2
    omega
  · intro placed member
    have inside : _ ≤ namesEnd kernelSegments modules :=
      (Span.layOut_inside (fun _ => le_rfl) member).2
    omega
  · intro placed member
    have inside : _ ≤ moduleDataPlace kernelSegments modules :=
      (Span.layOut_inside (fun _ => le_rfl) member).2
    omega
  · intro placed member segment within
    have inside : _ ≤ laidOutSize kernelSegments modules :=
      (Span.layOut_inside (fun _ => le_rfl) member).2
    have own : segment.1 + dataSize segment.2 ≤ layOutEnd id dataSize placed.1 placed.2.segments :=
      (Span.layOut_inside (fun _ => le_rfl) within).2
    rw [moduleData_end] at own
    omega

theorem forall_dataOffsets {P : Nat → Prop} {placed : List (Nat × Record × List U8)} :
    (∀ offset ∈ dataOffsets placed, P offset) ↔
      ∀ segment ∈ placed, segment.2.2 ≠ [] → P segment.1 := by
  simp only [dataOffsets, List.forall_mem_map, List.mem_filter, decide_eq_true_iff, and_imp]

theorem forall_recordedOffsets {P : Nat → Prop} :
    (∀ offset ∈ recordedOffsets kernelSegments modules, P offset) ↔
      (∀ placed ∈ segmentTables kernelSegments modules, P placed.1) ∧
      (∀ placed ∈ moduleNames kernelSegments modules, P placed.1) ∧
      (∀ placed ∈ kernelData kernelSegments modules, placed.2.2 ≠ [] → P placed.1) ∧
      ∀ placed ∈ modulePayloads kernelSegments modules, ∀ segment ∈ moduleData placed,
        segment.2.2 ≠ [] → P segment.1 := by
  simp only [recordedOffsets, List.forall_mem_append, List.forall_mem_map, List.forall_mem_flatMap,
    forall_dataOffsets, and_assoc]

theorem data_below {placed : List (Nat × Record × List U8)} (fits : ∀ segment ∈ placed, DataFits segment)
    {segment : Nat × Record × List U8} (member : segment ∈ placed) (below : segment.1 < 2 ^ 64) :
    segment.1 + dataSize segment.2 < 2 ^ 64 := by
  by_cases empty : segment.2.2 = []
  · rw [dataSize, empty]
    exact below
  · exact (fits segment member empty).2

/-- Placing succeeds exactly when everything can be recorded. -/
theorem place_eq_ok {placed : Placement} : place kernelSegments modules = .ok placed ↔
    Recordable kernelSegments modules ∧ placed = placement kernelSegments modules := by
  obtain ⟨tables, beforeNames, names, beforeData, kernelEnd, moduleEnd⟩ :=
    regions_ordered kernelSegments modules
  have steps : place kernelSegments modules = .ok placed ↔
      (∀ placed ∈ segmentTables kernelSegments modules,
        Fits placed.1 (segmentTableSize placed.2)) ∧
      segmentTablesEnd kernelSegments modules + 3 < 2 ^ 64 ∧
      (∀ placed ∈ moduleNames kernelSegments modules, Fits placed.1 (nameSize placed.2)) ∧
      namesEnd kernelSegments modules + 3 < 2 ^ 64 ∧
      (∀ placed ∈ kernelData kernelSegments modules, DataFits placed) ∧
      (∀ placed ∈ modulePayloads kernelSegments modules, ∀ segment ∈ moduleData placed,
        DataFits segment) ∧ placed = placement kernelSegments modules := by
    simp only [place, bind_eq_ok, segmentTableLoop_eq_ok, align4_eq_ok, nameLoop_eq_ok,
      placeKernelData, dataLoop_eq_ok, moduleLoop_places, pure, Except.pure, Except.ok.injEq,
      and_assoc, exists_and_left, exists_eq_left]
    rw [@eq_comm _ placed]
    rfl
  rw [steps, ← and_assoc, ← and_assoc, ← and_assoc, ← and_assoc, ← and_assoc]
  refine and_congr_left fun _ => ?_
  obtain ⟨tableInside, nameInside, kernelInside, moduleInside⟩ :=
    layout_inside kernelSegments modules
  constructor
  · rintro ⟨⟨⟨⟨⟨tablesFit, tablesEnd⟩, namesFit⟩, namesLast⟩, kernelFits⟩, modulesFit⟩
    have start : kernelDataPlace kernelSegments modules < 2 ^ 64 := by
      unfold kernelDataPlace alignUp4
      omega
    have kernelLast : moduleDataPlace kernelSegments modules < 2 ^ 64 :=
      layOutEnd_lt start fun placed member => data_below kernelFits member
    refine ⟨forall_recordedOffsets.mpr ⟨?_, ?_, ?_, ?_⟩, layOutEnd_lt kernelLast ?_⟩
    · intro placed member
      exact (tablesFit placed member).1
    · intro placed member
      exact (namesFit placed member).1
    · intro placed member nonempty
      exact (kernelFits placed member nonempty).1
    · intro placed member segment within nonempty
      exact (modulesFit placed member segment within nonempty).1
    · intro placed member below
      rw [← moduleData_end]
      exact layOutEnd_lt below fun segment within =>
        data_below (modulesFit placed member) within
  · rintro ⟨offsets, size⟩
    obtain ⟨tablesFit, namesFit, kernelFits, modulesFit⟩ := forall_recordedOffsets.mp offsets
    refine ⟨⟨⟨⟨⟨?_, ?_⟩, ?_⟩, ?_⟩, ?_⟩, ?_⟩
    · intro placed member
      exact ⟨tablesFit placed member, (tableInside placed member).trans_lt size⟩
    · have aligned : alignUp4 (segmentTablesEnd kernelSegments modules) < 2 ^ 64 := by
        change namesPlace kernelSegments modules < 2 ^ 64
        omega
      unfold alignUp4 at aligned
      omega
    · intro placed member
      exact ⟨namesFit placed member, (nameInside placed member).trans_lt size⟩
    · have aligned : alignUp4 (namesEnd kernelSegments modules) < 2 ^ 64 := by
        change kernelDataPlace kernelSegments modules < 2 ^ 64
        omega
      unfold alignUp4 at aligned
      omega
    · intro placed member nonempty
      exact ⟨kernelFits placed member nonempty, (kernelInside placed member).trans_lt size⟩
    · intro placed member segment within nonempty
      exact ⟨modulesFit placed member segment within nonempty,
        (moduleInside placed member segment within).trans_lt size⟩

/-- Offsets in an image that fits the ROM can be recorded. -/
theorem recordable_of_fits (fits : laidOutSize kernelSegments modules ≤ 0x100_0000) :
    Recordable kernelSegments modules := by
  obtain ⟨tables, names, kernel, module⟩ := layout_inside kernelSegments modules
  refine ⟨forall_recordedOffsets.mpr ⟨?_, ?_, ?_, ?_⟩, by omega⟩
  · intro placed member
    have inside := tables placed member
    omega
  · intro placed member
    have inside := names placed member
    omega
  · intro placed member _
    have inside := kernel placed member
    omega
  · intro placed member segment within _
    have inside := module placed member segment within
    omega

/-! ### What placing fails with -/

/-- Every failure but an invalid image. -/
def NotInvalid (failure : Failure) : Prop := ∀ detail, failure ≠ invalid detail

theorem invalid_only {condition : Prop} [Decidable condition] (detail : String) :
    Avoids NotInvalid (require condition (invalid detail)) :=
  avoids_require fun other => other detail rfl

theorem avoids_size32 (value : Nat) (detail : String) : Avoids NotInvalid (size32 value detail) :=
  (invalid_only detail).bind fun _ _ => avoids_ok _

theorem avoids_checkedAdd (left right : Nat) : Avoids NotInvalid (checkedAdd left right) :=
  (invalid_only _).bind fun _ _ => avoids_ok _

theorem avoids_align4 (value : Nat) : Avoids NotInvalid (align4 value) := by
  intro error failed
  unfold align4 at failed
  cases added : checkedAdd value 3 with
  | ok sum =>
    rw [added] at failed
    cases failed
  | error other =>
    rw [added] at failed
    cases failed
    exact avoids_checkedAdd value 3 _ added

theorem avoids_placeData {set : Record → U32 → Record} {detail : String}
    (state : Nat × List (Record × List U8)) (segment : Record × List U8) :
    Avoids NotInvalid (placeData set detail state segment) := by
  unfold placeData
  dsimp only
  split
  · refine (avoids_size32 _ _).bind fun _ _ => ?_
    exact (avoids_checkedAdd _ _).bind fun _ _ => avoids_ok _
  · exact avoids_ok _

theorem avoids_dataLoop {set : Record → U32 → Record} {detail : String}
    (segments : List (Record × List U8)) (state : Nat × List (Record × List U8)) :
    Avoids NotInvalid (segments.foldlM (placeData set detail) state) :=
  avoids_foldlM _ (fun state segment _ => avoids_placeData state segment) _

/-- Placing fails only with an invalid image. -/
theorem avoids_place (kernelSegments : List (KernelSegment × List U8))
    (modules : List PackedModule) : Avoids NotInvalid (place kernelSegments modules) := by
  refine (avoids_foldlM _ (fun state module _ => ?_) _).bind fun _ _ => ?_
  · refine (avoids_align4 _).bind fun _ _ => ?_
    refine (avoids_size32 _ _).bind fun _ _ => ?_
    exact (avoids_checkedAdd _ _).bind fun _ _ => avoids_ok _
  refine (avoids_align4 _).bind fun _ _ => ?_
  refine (avoids_foldlM _ (fun state module _ => ?_) _).bind fun _ _ => ?_
  · refine (avoids_size32 _ _).bind fun _ _ => ?_
    exact (avoids_checkedAdd _ _).bind fun _ _ => avoids_ok _
  refine (avoids_align4 _).bind fun _ _ => ?_
  refine (avoids_dataLoop _ _).bind fun _ _ => ?_
  refine (avoids_foldlM _ (fun state module _ => ?_) _).bind fun _ _ => avoids_ok _
  exact (avoids_dataLoop _ _).bind fun _ _ => avoids_ok _

end Placing

end Minemu.Image
