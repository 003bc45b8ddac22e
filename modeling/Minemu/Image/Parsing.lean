import Minemu.Image.Format
import Minemu.Image.Rules

/-! What the parser accepts: a string that stores the records it returns, under their rules,
and whose ranges the occupancy map admits. -/

namespace Minemu.Image

open Library Platform

variable {bytes : List U8}

/-- The range of `length` bytes from an offset. -/
def spanAt (offset length : Nat) : Span := ⟨offset, offset + length, Nat.le_add_right offset length⟩

/-- The range of a payload, if it has one. -/
def payload (dataOffset fileSize : U32) : List Span :=
  if fileSize ≠ 0 then [spanAt dataOffset.toNat fileSize.toNat] else []

def kernelPayload (segment : KernelSegment) : List Span := payload segment.dataOffset segment.fileSize

def modulePayload (segment : ModuleSegment) : List Span := payload segment.dataOffset segment.fileSize

/-- The ranges of a module: its name, its segment table and its payloads. -/
def moduleSpans (module : ImageModule) : List Span :=
  spanAt module.record.nameOffset.toNat module.record.nameLength.toNat ::
    spanAt module.record.segmentTableOffset.toNat (module.record.segmentCount.toNat * 32) ::
    module.segments.flatMap modulePayload

namespace SystemImage

def kernelTable (image : SystemImage) : Span :=
  spanAt image.header.kernelSegmentTableOffset.toNat (image.header.kernelSegmentCount.toNat * 32)

def moduleTable (image : SystemImage) : Span :=
  spanAt image.header.moduleTableOffset.toNat (image.header.moduleCount.toNat * 32)

/-- Every range of an image, in the order the parser meets them. -/
def spans (image : SystemImage) : List Span :=
  spanAt 0 64 :: image.kernelTable :: image.moduleTable ::
    (image.kernelSegments.flatMap kernelPayload ++ image.modules.flatMap moduleSpans)

end SystemImage

/-- The kernel segment stored at a place of its table. -/
structure StoresKernelSegment (bytes : List U8) (table : U32) (index : Nat)
    (segment : KernelSegment) : Prop where
  inside : table.toNat + index * 32 + 32 ≤ bytes.length
  reserved : Zeros bytes (table.toNat + index * 32 + 24) 8
  fields : segment = .stored bytes (table.toNat + index * 32)
  valid : segment.Valid

/-- The module segment stored at a place of its table. -/
structure StoresModuleSegment (bytes : List U8) (table : U32) (index : Nat)
    (segment : ModuleSegment) : Prop where
  inside : table.toNat + index * 32 + 32 ≤ bytes.length
  reserved : Zeros bytes (table.toNat + index * 32 + 20) 12
  fields : segment = .stored bytes (table.toNat + index * 32)
  valid : segment.Valid

/-- The module stored at a place of its table, with its name and its segments. -/
structure StoresModule (bytes : List U8) (table : U32) (index : Nat) (module : ImageModule) :
    Prop where
  inside : table.toNat + index * 32 + 32 ≤ bytes.length
  flags : u32At bytes (table.toNat + index * 32 + 20) = 0
  reserved : Zeros bytes (table.toNat + index * 32 + 24) 8
  fields : module.record = .stored bytes (table.toNat + index * 32)
  name : ∃ nameBytes, slice? bytes module.record.nameOffset.toNat
    (module.record.nameOffset.toNat + module.record.nameLength.toNat) = some nameBytes ∧
    fromUtf8 nameBytes = some module.name
  named : module.name ≠ ""
  segments : List.Forall₂ (StoresModuleSegment bytes module.record.segmentTableOffset)
    (List.range module.record.segmentCount.toNat) module.segments
  rules : ModuleRules module.segments module.record.entryVirtualAddress

/-- The string stores the records of the image, and they obey their rules. -/
structure Stores (bytes : List U8) (image : SystemImage) : Prop where
  whole : image.bytes = bytes
  framed : ImageHeader.Framed bytes
  header : image.header = .stored bytes
  headerValid : image.header.Valid
  size : bytes.length = image.header.imageSize.toNat
  kernelSegments : List.Forall₂ (StoresKernelSegment bytes image.header.kernelSegmentTableOffset)
    (List.range image.header.kernelSegmentCount.toNat) image.kernelSegments
  kernelRules : KernelRules image.kernelSegments image.header.kernelEntryVaddr
  modules : List.Forall₂ (StoresModule bytes image.header.moduleTableOffset)
    (List.range image.header.moduleCount.toNat) image.modules
  names : (image.modules.map ImageModule.name).Nodup

/-! ### Single steps -/

theorem sliced_eq_ok {part : List U8} {start stop : Nat} :
    sliced bytes start stop = .ok part ↔ slice? bytes start stop = some part := by
  unfold sliced
  cases slice? bytes start stop <;> simp

theorem platform_eq_ok {result : Except PlatformError α} {value : α} :
    platform result = .ok value ↔ result = .ok value := mapError_eq_ok

theorem moduleName_eq_ok {name : String} :
    moduleName bytes = .ok name ↔ fromUtf8 bytes = some name := by
  unfold moduleName
  cases fromUtf8 bytes <;> simp

theorem Span.new_eq_ok {start length : Nat} {span : Span} :
    Span.new start length = .ok span ↔ start + length < 2 ^ 64 ∧ span = spanAt start length := by
  simp only [Span.new, bind_eq_ok, require_eq_ok, exists_const, pure, Except.pure, Except.ok.injEq]
  rw [@eq_comm _ span]
  rfl

theorem Span.fromOffsetLength_eq (offset length : U32) :
    Span.fromOffsetLength offset length = .ok (spanAt offset.toNat length.toNat) := by
  have bound := offset.isLt
  have bound' := length.isLt
  exact Span.new_eq_ok.mpr ⟨by omega, rfl⟩

theorem Span.newChecked_eq (offset count : U32) :
    Span.newChecked offset count 32 = .ok (spanAt offset.toNat (count.toNat * 32)) := by
  have bound := offset.isLt
  have bound' := count.isLt
  refine bind_eq_ok.mpr ⟨(), require_eq_ok.mpr ?_, Span.new_eq_ok.mpr ⟨by omega, rfl⟩⟩
  unfold usizeLimit
  omega

theorem ImageMap.new_eq : ImageMap.new = .ok [spanAt 0 64] := rfl

theorem ImageMap.occupy_eq_ok {imageMap after : ImageMap} {candidate : Span} {imageSize : Nat}
    {detail : String} : imageMap.occupy candidate imageSize detail = .ok after ↔
      Span.Admissible imageSize imageMap [candidate] ∧ after = imageMap ++ [candidate] := by
  simp only [ImageMap.occupy, bind_eq_ok, require_eq_ok, exists_const, not_lt, gt_iff_lt,
    List.any_eq_false, Bool.not_eq_true, Span.overlaps_eq_false, Span.admissible_singleton, pure,
    Except.pure, Except.ok.injEq, and_assoc]
  rw [@eq_comm _ after]

theorem ImageMap.occupyData_eq_ok {imageMap after : ImageMap} {dataOffset fileSize : U32}
    {imageSize : Nat} : imageMap.occupyData dataOffset fileSize imageSize = .ok after ↔
      Span.Admissible imageSize imageMap (payload dataOffset fileSize) ∧
        after = imageMap ++ payload dataOffset fileSize := by
  unfold ImageMap.occupyData payload
  split
  · simp only [Span.fromOffsetLength_eq, bind, Except.bind, ImageMap.occupy_eq_ok]
  · simp [pure, Except.pure, eq_comm]

/-! ### The loops -/

theorem parseKernelSegment_eq_ok (bytes : List U8) (header : ImageHeader)
    (state : ImageMap × List KernelSegment) (index : Nat) (after : ImageMap × List KernelSegment) :
    parseKernelSegment bytes header state index = .ok after ↔
      ∃ segment, StoresKernelSegment bytes header.kernelSegmentTableOffset index segment ∧
        Span.Admissible bytes.length state.1 (kernelPayload segment) ∧
        after = Span.collect kernelPayload state segment := by
  simp only [parseKernelSegment, bind_eq_ok, sliced_eq_ok, platform_eq_ok,
    ImageMap.occupyData_eq_ok, pure, Except.pure, Except.ok.injEq]
  constructor
  · rintro ⟨part, read, segment, decoded, imageMap, ⟨admitted, rfl⟩, rfl⟩
    obtain ⟨_, inside, _⟩ := slice?_eq_some.mp read
    obtain ⟨reserved, fields, valid⟩ := (KernelSegment.decode_slice read).mp decoded
    exact ⟨segment, ⟨inside, reserved, fields, valid⟩, admitted, rfl⟩
  · rintro ⟨segment, ⟨inside, reserved, fields, valid⟩, admitted, rfl⟩
    have read := slice?_of_fits bytes
      (Nat.le_add_right (header.kernelSegmentTableOffset.toNat + index * 32) 32) inside
    exact ⟨_, read, segment, (KernelSegment.decode_slice read).mpr ⟨reserved, fields, valid⟩, _,
      ⟨admitted, rfl⟩, rfl⟩

theorem parseModuleSegment_eq_ok (bytes : List U8) (record : ModuleRecord)
    (state : ImageMap × List ModuleSegment) (index : Nat) (after : ImageMap × List ModuleSegment) :
    parseModuleSegment bytes record state index = .ok after ↔
      ∃ segment, StoresModuleSegment bytes record.segmentTableOffset index segment ∧
        Span.Admissible bytes.length state.1 (modulePayload segment) ∧
        after = Span.collect modulePayload state segment := by
  simp only [parseModuleSegment, bind_eq_ok, sliced_eq_ok, platform_eq_ok,
    ImageMap.occupyData_eq_ok, pure, Except.pure, Except.ok.injEq]
  constructor
  · rintro ⟨part, read, segment, decoded, imageMap, ⟨admitted, rfl⟩, rfl⟩
    obtain ⟨_, inside, _⟩ := slice?_eq_some.mp read
    obtain ⟨reserved, fields, valid⟩ := (ModuleSegment.decode_slice read).mp decoded
    exact ⟨segment, ⟨inside, reserved, fields, valid⟩, admitted, rfl⟩
  · rintro ⟨segment, ⟨inside, reserved, fields, valid⟩, admitted, rfl⟩
    have read := slice?_of_fits bytes
      (Nat.le_add_right (record.segmentTableOffset.toNat + index * 32) 32) inside
    exact ⟨_, read, segment, (ModuleSegment.decode_slice read).mpr ⟨reserved, fields, valid⟩, _,
      ⟨admitted, rfl⟩, rfl⟩

/-- The loop over a segment table collects the segments it stores. -/
theorem kernelLoop_eq_ok {header : ImageHeader} {imageMap : ImageMap}
    {after : ImageMap × List KernelSegment} {indices : List Nat} :
    indices.foldlM (parseKernelSegment bytes header) (imageMap, []) = .ok after ↔ ∃ segments,
      List.Forall₂ (StoresKernelSegment bytes header.kernelSegmentTableOffset) indices segments ∧
        Span.Admissible bytes.length imageMap (segments.flatMap kernelPayload) ∧
        after = (imageMap ++ segments.flatMap kernelPayload, segments) := by
  rw [foldlM_eq_ok (parseKernelSegment_eq_ok bytes header)]
  simp only [Span.admitsAll_collect, Span.foldl_collect, List.nil_append]

theorem segmentLoop_eq_ok {record : ModuleRecord} {imageMap : ImageMap}
    {after : ImageMap × List ModuleSegment} {indices : List Nat} :
    indices.foldlM (parseModuleSegment bytes record) (imageMap, []) = .ok after ↔ ∃ segments,
      List.Forall₂ (StoresModuleSegment bytes record.segmentTableOffset) indices segments ∧
        Span.Admissible bytes.length imageMap (segments.flatMap modulePayload) ∧
        after = (imageMap ++ segments.flatMap modulePayload, segments) := by
  rw [foldlM_eq_ok (parseModuleSegment_eq_ok bytes record)]
  simp only [Span.admitsAll_collect, Span.foldl_collect, List.nil_append]

/-- A module's name and segment table come before its payloads. -/
theorem admissible_moduleSpans {limit : Nat} {imageMap : ImageMap} {module : ImageModule} :
    Span.Admissible limit imageMap (moduleSpans module) ↔
      Span.Admissible limit imageMap
          [spanAt module.record.nameOffset.toNat module.record.nameLength.toNat] ∧
        Span.Admissible limit (imageMap ++
            [spanAt module.record.nameOffset.toNat module.record.nameLength.toNat])
          [spanAt module.record.segmentTableOffset.toNat
            (module.record.segmentCount.toNat * 32)] ∧
        Span.Admissible limit (imageMap ++
            [spanAt module.record.nameOffset.toNat module.record.nameLength.toNat] ++
            [spanAt module.record.segmentTableOffset.toNat
              (module.record.segmentCount.toNat * 32)])
          (module.segments.flatMap modulePayload) := by
  rw [moduleSpans, Span.admissible_cons]
  exact and_congr_right fun _ => Span.admissible_cons

/-- The state of the loop over the module table after one more module. -/
def collectModule (state : ImageMap × List String × List ImageModule) (module : ImageModule) :
    ImageMap × List String × List ImageModule :=
  (state.1 ++ moduleSpans module, module.name :: state.2.1, state.2.2 ++ [module])

theorem parseModule_eq_ok (bytes : List U8) (header : ImageHeader)
    (state : ImageMap × List String × List ImageModule) (index : Nat)
    (after : ImageMap × List String × List ImageModule) :
    parseModule bytes header state index = .ok after ↔
      ∃ module, StoresModule bytes header.moduleTableOffset index module ∧
        (Span.Admissible bytes.length state.1 (moduleSpans module) ∧ module.name ∉ state.2.1) ∧
        after = collectModule state module := by
  simp only [parseModule, bind_eq_ok, sliced_eq_ok, platform_eq_ok, Span.fromOffsetLength_eq,
    moduleSegmentSize, Span.newChecked_eq, Except.ok.injEq, exists_eq_left', ImageMap.occupy_eq_ok,
    moduleName_eq_ok, segmentLoop_eq_ok, mapError_eq_ok, require_eq_ok, pure, Except.pure]
  constructor
  · rintro ⟨part, read, record, decoded, _, ⟨nameFree, rfl⟩, _, ⟨tableFree, rfl⟩, nameBytes, nameRead,
      name, named, _, fresh, _, ⟨segments, stored, payloadsFree, rfl⟩, _, validated, rfl⟩
    obtain ⟨_, inside, _⟩ := slice?_eq_some.mp read
    obtain ⟨flags, reserved, fields⟩ := (ModuleRecord.decode_slice read).mp decoded
    have valid : ∀ segment ∈ segments, segment.Valid := forall₂_right stored fun _ _ stores =>
      stores.valid
    rw [not_or] at fresh
    exact ⟨⟨name, record, segments⟩, ⟨inside, flags, reserved, fields, ⟨nameBytes, nameRead, named⟩,
      fresh.1, stored, (validateModuleRecords_eq_ok valid).mp validated⟩,
      ⟨admissible_moduleSpans.mpr ⟨nameFree, tableFree, payloadsFree⟩, fresh.2⟩,
      by simp [collectModule, moduleSpans]⟩
  · rintro ⟨⟨name, record, segments⟩, ⟨inside, flags, reserved, fields, ⟨nameBytes, nameRead, named⟩,
      nonempty, stored, rules⟩, ⟨free, fresh⟩, rfl⟩
    obtain ⟨nameFree, tableFree, payloadsFree⟩ := admissible_moduleSpans.mp free
    have read := slice?_of_fits bytes
      (Nat.le_add_right (header.moduleTableOffset.toNat + index * 32) 32) inside
    have valid : ∀ segment ∈ segments, segment.Valid := forall₂_right stored fun _ _ stores =>
      stores.valid
    exact ⟨_, read, record, (ModuleRecord.decode_slice read).mpr ⟨flags, reserved, fields⟩, _,
      ⟨nameFree, rfl⟩, _, ⟨tableFree, rfl⟩, nameBytes, nameRead, name, named, (),
      not_or.mpr ⟨nonempty, fresh⟩, _, ⟨segments, stored, payloadsFree, rfl⟩, (),
      (validateModuleRecords_eq_ok valid).mpr rules, by simp [collectModule, moduleSpans]⟩

theorem foldl_collectModule (state : ImageMap × List String × List ImageModule)
    (modules : List ImageModule) :
    (modules.foldl collectModule state).2.2 = state.2.2 ++ modules := by
  induction modules generalizing state with
  | nil => simp
  | cons module modules ih => simp [ih, collectModule]

/-- Taking the modules one by one takes all their ranges, under distinct names. -/
theorem admitsAll_modules {limit : Nat} (state : ImageMap × List String × List ImageModule)
    (modules : List ImageModule) :
    AdmitsAll (fun state module => Span.Admissible limit state.1 (moduleSpans module) ∧
        module.name ∉ state.2.1) collectModule state modules ↔
      Span.Admissible limit state.1 (modules.flatMap moduleSpans) ∧
        (modules.map ImageModule.name).Nodup ∧ ∀ module ∈ modules, module.name ∉ state.2.1 := by
  induction modules generalizing state with
  | nil => simp [AdmitsAll]
  | cons module modules ih =>
    rw [AdmitsAll, ih, List.flatMap_cons, Span.admissible_append, List.map_cons, List.nodup_cons,
      List.forall_mem_cons]
    have names : (∀ other ∈ modules, other.name ∉ (collectModule state module).2.1) ↔
        module.name ∉ modules.map ImageModule.name ∧
          ∀ other ∈ modules, other.name ∉ state.2.1 := by
      simp only [collectModule, List.mem_cons, not_or, List.mem_map, not_exists, not_and]
      exact forall₂_and
    rw [names]
    simp only [collectModule]
    tauto

theorem moduleLoop_eq_ok {header : ImageHeader} {imageMap : ImageMap} {indices : List Nat}
    {modules : List ImageModule} :
    (∃ after, indices.foldlM (parseModule bytes header) (imageMap, [], []) = .ok after ∧
        after.2.2 = modules) ↔
      List.Forall₂ (StoresModule bytes header.moduleTableOffset) indices modules ∧
        Span.Admissible bytes.length imageMap (modules.flatMap moduleSpans) ∧
        (modules.map ImageModule.name).Nodup := by
  simp only [foldlM_eq_ok (parseModule_eq_ok bytes header), admitsAll_modules]
  constructor
  · rintro ⟨_, ⟨parts, stored, ⟨free, names, _⟩, rfl⟩, rfl⟩
    rw [foldl_collectModule]
    exact ⟨stored, free, names⟩
  · rintro ⟨stored, free, names⟩
    exact ⟨_, ⟨modules, stored, ⟨free, names, by simp⟩, rfl⟩, foldl_collectModule _ _⟩

/-! ### The parser as a whole -/

/-- The ranges of an image in the order they are taken. -/
theorem admissible_imageSpans {image : SystemImage} {limit : Nat} :
    (∀ span ∈ image.spans, span.stop ≤ limit) ∧ image.spans.Pairwise Span.Apart ↔
      64 ≤ limit ∧
        Span.Admissible limit [spanAt 0 64] [image.kernelTable] ∧
        Span.Admissible limit ([spanAt 0 64] ++ [image.kernelTable]) [image.moduleTable] ∧
        Span.Admissible limit ([spanAt 0 64] ++ [image.kernelTable] ++ [image.moduleTable])
          (image.kernelSegments.flatMap kernelPayload) ∧
        Span.Admissible limit ([spanAt 0 64] ++ [image.kernelTable] ++ [image.moduleTable] ++
          image.kernelSegments.flatMap kernelPayload) (image.modules.flatMap moduleSpans) := by
  have header : Span.Admissible limit [] [spanAt 0 64] ↔ 64 ≤ limit := by
    simp [Span.admissible_singleton, spanAt]
  rw [← Span.admissible_empty, SystemImage.spans, Span.admissible_cons, header]
  refine and_congr_right fun _ => ?_
  rw [Span.admissible_cons]
  refine and_congr_right fun _ => ?_
  rw [Span.admissible_cons]
  refine and_congr_right fun _ => ?_
  rw [Span.admissible_append]
  rfl

/-- The parser returns exactly the images that the string stores and whose ranges fit and
pass the overlap test. -/
theorem parse_eq_ok {image : SystemImage} : parse bytes = .ok image ↔
    Stores bytes image ∧ (∀ span ∈ image.spans, span.stop ≤ bytes.length) ∧
      image.spans.Pairwise Span.Apart := by
  simp only [parse, bind_eq_ok, platform_eq_ok, ImageHeader.decode_eq_ok, require_eq_ok,
    ImageMap.new_eq, kernelSegmentSize, moduleRecordSize, Span.newChecked_eq, Except.ok.injEq,
    exists_eq_left', ImageMap.occupy_eq_ok, kernelLoop_eq_ok, mapError_eq_ok, pure, Except.pure]
  rw [admissible_imageSpans]
  constructor
  · rintro ⟨header, ⟨long, framed, stored, valid⟩, _, size, _, ⟨tableFree, rfl⟩, _,
      ⟨moduleTableFree, rfl⟩, _, ⟨segments, kernelStored, payloadsFree, rfl⟩, _, validated, after,
      looped, rfl⟩
    have kernelValid : ∀ segment ∈ segments, segment.Valid :=
      forall₂_right kernelStored fun _ _ stores => stores.valid
    obtain ⟨moduleStored, modulesFree, names⟩ := moduleLoop_eq_ok.mp ⟨after, looped, rfl⟩
    exact ⟨⟨rfl, framed, stored, valid, size, kernelStored,
      (validateKernelRecords_eq_ok kernelValid).mp validated, moduleStored, names⟩,
      long, tableFree, moduleTableFree, payloadsFree, modulesFree⟩
  · obtain ⟨whole, header, segments, modules⟩ := image
    rintro ⟨⟨rfl, framed, stored, valid, size, kernelStored, rules, moduleStored, names⟩,
      long, tableFree, moduleTableFree, payloadsFree, modulesFree⟩
    have kernelValid : ∀ segment ∈ segments, segment.Valid :=
      forall₂_right kernelStored fun _ _ stores => stores.valid
    obtain ⟨after, looped, rfl⟩ := moduleLoop_eq_ok.mpr ⟨moduleStored, modulesFree, names⟩
    exact ⟨header, ⟨long, framed, stored, valid⟩, (), size, _, ⟨tableFree, rfl⟩, _,
      ⟨moduleTableFree, rfl⟩, _, ⟨segments, kernelStored, payloadsFree, rfl⟩, (),
      (validateKernelRecords_eq_ok kernelValid).mpr rules, after, looped, rfl⟩

end Minemu.Image
