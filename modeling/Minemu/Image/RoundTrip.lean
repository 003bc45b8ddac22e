import Minemu.Image.Packed

/-! The packer's round trip: what was packed is in the image, and everything else is zero. -/

namespace Minemu.Image

open Library Platform

/-! ### What an image keeps of its inputs -/

/-- The record of the input but for the place of its payload, and the payload at that place. -/
structure KernelSegmentKept (bytes : List U8) (input : KernelSegment × List U8)
    (segment : KernelSegment) : Prop where
  record : { segment with dataOffset := input.1.dataOffset } = input.1
  payload : input.2 ≠ [] → slice? bytes segment.dataOffset.toNat
    (segment.dataOffset.toNat + input.2.length) = some input.2

structure ModuleSegmentKept (bytes : List U8) (input : ModuleSegment × List U8)
    (segment : ModuleSegment) : Prop where
  record : { segment with dataOffset := input.1.dataOffset } = input.1
  payload : input.2 ≠ [] → slice? bytes segment.dataOffset.toNat
    (segment.dataOffset.toNat + input.2.length) = some input.2

structure ModuleKept (bytes : List U8) (input : PackedModule) (module : ImageModule) : Prop where
  name : asBytes module.name = input.name
  entry : module.record.entryVirtualAddress = input.entry
  segments : List.Forall₂ (ModuleSegmentKept bytes) input.segments module.segments

/-- The image is accepted by the parser and keeps everything that was packed. -/
structure RoundTrips (kernelEntry : VirtualAddress)
    (kernelSegments : List (KernelSegment × List U8)) (modules : List PackedModule)
    (image : SystemImage) : Prop where
  size : image.bytes.length = laidOutSize kernelSegments modules
  accepted : parse image.bytes = .ok image
  kernelSegmentCount : image.header.kernelSegmentCount.toNat = kernelSegments.length
  moduleCount : image.header.moduleCount.toNat = modules.length
  entry : image.header.kernelEntryVaddr = kernelEntry
  kernelSegments : List.Forall₂ (KernelSegmentKept image.bytes) kernelSegments image.kernelSegments
  modules : List.Forall₂ (ModuleKept image.bytes) modules image.modules
  apart : image.spans.Pairwise Span.Apart
  zeros : ∀ place < image.bytes.length, (∀ span ∈ image.spans, place ∉ span.points) →
    image.bytes[place]? = some 0

section Keeping

variable {kernelEntry : VirtualAddress} {kernelSegments : List (KernelSegment × List U8)}
  {modules : List PackedModule}

/-! ### Payloads -/

/-- The payload of a segment that notes its place reads back. -/
theorem payload_slice (packable : Packable kernelEntry kernelSegments modules)
    (short : laidOutSize kernelSegments modules ≤ 0x100_0000) {placed : Nat × Record × List U8}
    {offset : U32} (written : ∀ piece ∈ dataPieces placed,
      piece ∈ regionPieces kernelEntry kernelSegments modules)
    (noted : placed.2.2 ≠ [] → offset.toNat = placed.1) (nonempty : placed.2.2 ≠ []) :
    slice? (imageBytes kernelEntry kernelSegments modules) offset.toNat
      (offset.toNat + placed.2.2.length) = some placed.2.2 := by
  have member : ⟨placed.1, placed.2.2⟩ ∈ dataPieces placed := by
    rw [dataPieces, if_pos nonempty]
    exact .head _
  rw [noted nonempty]
  exact imageBytes_slice packable short (written _ member) rfl

theorem kernelSegments_kept (packable : Packable kernelEntry kernelSegments modules)
    (short : laidOutSize kernelSegments modules ≤ 0x100_0000) :
    List.Forall₂ (KernelSegmentKept (imageBytes kernelEntry kernelSegments modules))
      kernelSegments (packedImage kernelEntry kernelSegments modules).kernelSegments := by
  have known : (kernelData kernelSegments modules).map Prod.snd = kernelSegments :=
    map_snd_layOut _ _ _ _
  have kept : List.Forall₂ (KernelSegmentKept (imageBytes kernelEntry kernelSegments modules))
      ((kernelData kernelSegments modules).map Prod.snd)
      ((kernelData kernelSegments modules).map fun segment => (noteKernelData segment).1) := by
    rw [List.forall₂_map_left_iff, List.forall₂_map_right_iff, List.forall₂_same]
    intro placed member
    have inside := (layout_inside kernelSegments modules).2.2.1 placed member
    refine ⟨noteKernelData_record placed, payload_slice packable short ?_
      (noteKernelData_offset (by omega))⟩
    intro piece part
    exact mem_regionPieces.mpr (.inr (.inr (.inr (.inr (.inr (.inl ⟨placed, member, part⟩))))))
  rwa [known] at kept

theorem moduleSegments_kept (packable : Packable kernelEntry kernelSegments modules)
    (short : laidOutSize kernelSegments modules ≤ 0x100_0000) {placed : PlacedModule}
    (member : placed ∈ placedModules kernelSegments modules) :
    List.Forall₂ (ModuleSegmentKept (imageBytes kernelEntry kernelSegments modules))
      placed.module.segments (packedModule placed).segments := by
  have known : placed.segments.map Prod.snd = placed.module.segments := map_snd_layOut _ _ _ _
  have kept : List.Forall₂ (ModuleSegmentKept (imageBytes kernelEntry kernelSegments modules))
      (placed.segments.map Prod.snd)
      (placed.segments.map fun segment => (noteModuleData segment).1) := by
    rw [List.forall₂_map_left_iff, List.forall₂_map_right_iff, List.forall₂_same]
    intro segment within
    have inside := (PlacedModule.inside member).2.2 segment within
    refine ⟨noteModuleData_record segment, payload_slice packable short ?_
      (noteModuleData_offset (by omega))⟩
    intro piece part
    exact mem_regionPieces.mpr
      (.inr (.inr (.inr (.inr (.inr (.inr ⟨placed, member, segment, within, part⟩))))))
  rwa [known] at kept

theorem modules_kept (packable : Packable kernelEntry kernelSegments modules)
    (short : laidOutSize kernelSegments modules ≤ 0x100_0000) :
    List.Forall₂ (ModuleKept (imageBytes kernelEntry kernelSegments modules))
      modules (packedImage kernelEntry kernelSegments modules).modules := by
  have kept : List.Forall₂ (ModuleKept (imageBytes kernelEntry kernelSegments modules))
      ((placedModules kernelSegments modules).map PlacedModule.module)
      ((placedModules kernelSegments modules).map packedModule) := by
    rw [List.forall₂_map_left_iff, List.forall₂_map_right_iff, List.forall₂_same]
    intro placed member
    have packed := packable.each _ (PlacedModule.mem member)
    exact ⟨asBytes_of_fromUtf8 (packedModule_name packed), rfl,
      moduleSegments_kept packable short member⟩
  rwa [map_module] at kept

/-! ### Bytes in no range -/

theorem mem_regionSpans {span : Span} : span ∈ regionSpans kernelSegments modules ↔
    span = spanAt 0 64 ∨ span = spanAt 64 (kernelSegments.length * 32) ∨
      span = spanAt (moduleTablePlace kernelSegments) (modules.length * 32) ∨
      (∃ placed ∈ placedModules kernelSegments modules,
        span = spanAt placed.tablePlace (segmentTableSize placed.module)) ∨
      (∃ placed ∈ placedModules kernelSegments modules,
        span = spanAt placed.namePlace (nameSize placed.module)) ∨
      (∃ placed ∈ kernelData kernelSegments modules, span ∈ dataSpans placed) ∨
      ∃ placed ∈ placedModules kernelSegments modules, ∃ segment ∈ placed.segments,
        span ∈ dataSpans segment := by
  simp only [regionSpans, List.mem_append, List.mem_singleton, List.mem_flatMap, or_assoc]

/-- A row is inside its table. -/
theorem row_points {piece : Piece U8} {table count index : Nat} (starts : piece.start = table + index * 32)
    (long : piece.data.length = 32) (row : index < count) :
    piece.span.points ⊆ (spanAt table (count * 32)).points := by
  refine Set.Ico_subset_Ico ?_ ?_
  · change table ≤ piece.start
    omega
  · change piece.start + piece.data.length ≤ table + count * 32
    omega

/-- Every piece is inside a range of the image. -/
theorem piece_covered (packable : Packable kernelEntry kernelSegments modules)
    (short : laidOutSize kernelSegments modules ≤ 0x100_0000) {piece : Piece U8}
    (member : piece ∈ regionPieces kernelEntry kernelSegments modules) :
    ∃ span ∈ regionSpans kernelSegments modules, piece.span.points ⊆ span.points := by
  rcases mem_regionPieces.mp member with rfl | ⟨row, inside, rfl⟩ | ⟨row, inside, rfl⟩ |
    ⟨placed, known, row, inside, rfl⟩ | ⟨placed, known, rfl⟩ | ⟨placed, known, part⟩ |
    ⟨placed, known, segment, within, part⟩
  · obtain ⟨_, long, _⟩ := encoded_header (imageHeader_valid packable short)
    refine ⟨_, mem_regionSpans.mpr (.inl rfl), Set.Ico_subset_Ico le_rfl ?_⟩
    exact (congrArg (0 + ·) long).le
  · have index := List.snd_lt_of_mem_zipIdx inside
    have known := List.fst_mem_of_mem_zipIdx inside
    have valid := noteKernelData_valid (KernelSegment.validate_eq_ok.mp
      (packable.segments _ (mem_of_mem_layOut known)).1)
    rw [kernelData, length_layOut] at index
    exact ⟨_, mem_regionSpans.mpr (.inr (.inl rfl)),
      row_points rfl (encoded_kernelSegment valid).2 index⟩
  · have index := List.snd_lt_of_mem_zipIdx inside
    rw [length_placedModules] at index
    exact ⟨_, mem_regionSpans.mpr (.inr (.inr (.inl rfl))),
      row_points rfl (length_moduleRecordPiece _ _) index⟩
  · have index := List.snd_lt_of_mem_zipIdx inside
    have packed := packable.each _ (PlacedModule.mem known)
    have valid := noteModuleData_valid (ModuleSegment.validate_eq_ok.mp
      (packed.segments _ (mem_of_mem_layOut (List.fst_mem_of_mem_zipIdx inside))).1)
    rw [PlacedModule.length_segments] at index
    exact ⟨_, mem_regionSpans.mpr (.inr (.inr (.inr (.inl ⟨placed, known, rfl⟩)))),
      row_points rfl (encoded_moduleSegment valid).2 index⟩
  · exact ⟨_, mem_regionSpans.mpr (.inr (.inr (.inr (.inr (.inl ⟨placed, known, rfl⟩))))),
      subset_rfl⟩
  · exact ⟨_, mem_regionSpans.mpr (.inr (.inr (.inr (.inr (.inr (.inl
      ⟨placed, known, List.mem_map_of_mem part⟩)))))), subset_rfl⟩
  · exact ⟨_, mem_regionSpans.mpr (.inr (.inr (.inr (.inr (.inr (.inr
      ⟨placed, known, segment, within, List.mem_map_of_mem part⟩)))))), subset_rfl⟩

/-- What belongs to no range is zero. -/
theorem zeros_outside (packable : Packable kernelEntry kernelSegments modules)
    (short : laidOutSize kernelSegments modules ≤ 0x100_0000) {place : Nat}
    (inside : place < laidOutSize kernelSegments modules)
    (outside : ∀ span ∈ (packedImage kernelEntry kernelSegments modules).spans,
      place ∉ span.points) :
    (imageBytes kernelEntry kernelSegments modules)[place]? = some 0 := by
  have perm := regionPieces_perm kernelEntry kernelSegments modules
  have fits : ∀ piece ∈ imagePieces kernelEntry kernelSegments modules, piece.span.stop ≤
      (List.replicate (laidOutSize kernelSegments modules) (0 : U8)).length := by
    rw [List.length_replicate]
    exact (laid_pieces packable short).fits perm
  have clear : ∀ piece ∈ imagePieces kernelEntry kernelSegments modules,
      place ∉ piece.span.points := by
    intro piece member covered
    obtain ⟨span, known, contains⟩ := piece_covered packable short (perm.mem_iff.mpr member)
    exact outside span ((regionSpans_perm packable short).mem_iff.mp known) (contains covered)
  rw [imageBytes, getElem?_patchAll fits clear, List.getElem?_replicate, if_pos inside]

/-! ### The packer as a whole -/

theorem roundTrips_packed (packable : Packable kernelEntry kernelSegments modules)
    (short : laidOutSize kernelSegments modules ≤ 0x100_0000) :
    RoundTrips kernelEntry kernelSegments modules
      (packedImage kernelEntry kernelSegments modules) := by
  obtain ⟨_, kernelCount, _, moduleCount⟩ := imageHeader_words kernelEntry short
  have accepted := parse_packed packable short
  refine ⟨length_imageBytes _ _ _, accepted, kernelCount, moduleCount, rfl,
    kernelSegments_kept packable short, modules_kept packable short,
    (parse_eq_ok.mp accepted).2.2, ?_⟩
  intro place inside outside
  exact zeros_outside packable short (inside.trans_eq (length_imageBytes _ _ _)) outside

/-- The packer returns the image of its pieces if it fits the ROM. -/
theorem buildImage_packed (packable : Packable kernelEntry kernelSegments modules)
    (short : laidOutSize kernelSegments modules ≤ 0x100_0000) :
    buildImage kernelEntry kernelSegments modules =
      .ok (packedImage kernelEntry kernelSegments modules) := by
  have placed : place kernelSegments modules = .ok (placement kernelSegments modules) :=
    place_eq_ok.mpr ⟨recordable_of_fits short, rfl⟩
  have fits : ¬ (placement kernelSegments modules).cursor > MemRegion.systemRom.size.toNat :=
    not_lt.mpr short
  rw [buildImage_eq]
  refine bind_eq_ok.mpr ⟨_, placed, bind_eq_ok.mpr ⟨(), require_eq_ok.mpr fits, ?_⟩⟩
  exact (write_eq packable short).trans (parse_packed packable short)

/-- Whatever can be recorded and does not fit the ROM overflows it. -/
theorem buildImage_overflows (recordable : Recordable kernelSegments modules)
    (long : 0x100_0000 < laidOutSize kernelSegments modules) :
    buildImage kernelEntry kernelSegments modules = .error (.returned .romOverflow) := by
  have placed : place kernelSegments modules = .ok (placement kernelSegments modules) :=
    place_eq_ok.mpr ⟨recordable, rfl⟩
  have large : ¬ ¬ (placement kernelSegments modules).cursor > MemRegion.systemRom.size.toNat :=
    not_not.mpr long
  rw [buildImage_eq, placed]
  change (require _ _ >>= _) = _
  rw [require, if_neg large]
  rfl

/-- What cannot be recorded is refused before the size of the image is. -/
theorem buildImage_unrecorded (unrecorded : ¬ Recordable kernelSegments modules) :
    ∃ detail, buildImage kernelEntry kernelSegments modules = .error (invalid detail) := by
  cases placed : place kernelSegments modules with
  | ok placement => exact absurd (place_eq_ok.mp placed).1 unrecorded
  | error failure =>
    have kind := avoids_place kernelSegments modules failure placed
    unfold NotInvalid at kind
    push Not at kind
    obtain ⟨detail, rfl⟩ := kind
    refine ⟨detail, ?_⟩
    rw [buildImage_eq, placed]
    rfl

/-- The packer's round trip: an image that fits the ROM is accepted and keeps all its inputs,
a larger one overflows the ROM, or is invalid where an offset does not fit its record. -/
theorem buildImage_round_trip (packable : Packable kernelEntry kernelSegments modules) :
    (laidOutSize kernelSegments modules ≤ 0x100_0000 →
      ∃ image, buildImage kernelEntry kernelSegments modules = .ok image ∧
        RoundTrips kernelEntry kernelSegments modules image) ∧
    (0x100_0000 < laidOutSize kernelSegments modules → Recordable kernelSegments modules →
      buildImage kernelEntry kernelSegments modules = .error (.returned .romOverflow)) ∧
    (¬ Recordable kernelSegments modules →
      ∃ detail, buildImage kernelEntry kernelSegments modules = .error (invalid detail)) := by
  refine ⟨fun short => ?_, fun long recordable => ?_, fun unrecorded => ?_⟩
  · exact ⟨_, buildImage_packed packable short, roundTrips_packed packable short⟩
  · exact buildImage_overflows recordable long
  · exact buildImage_unrecorded unrecorded

end Keeping

/-! ### Modules of zeros -/

/-- A kernel of one instruction. -/
def wordKernel : KernelSegment × List U8 :=
  (⟨0, ⟨0x4000_8000⟩, ⟨0xc000_8000⟩, 4, 4, 5⟩, [0, 0, 0, 0])

/-- A module with one segment of zeros. -/
def zeroModule (size : U32) (name : String) : PackedModule where
  name := asBytes name
  entry := ⟨0⟩
  segments := [(⟨0, ⟨0⟩, size, size, 5⟩, List.replicate size.toNat 0)]

def zeroModules (size : U32) : List PackedModule :=
  ["init", "ping", "shell"].map (zeroModule size)

theorem zeroModule_packable {size : U32} (long : 4 ≤ size.toNat)
    (below : size.toNat ≤ 0xc000_0000) {name : String} (named : name ≠ "") :
    PackableModule (zeroModule size name) := by
  have flags : (5 : U32).toNat < 8 := by decide
  have valid : ModuleSegment.Valid ⟨0, ⟨0⟩, size, size, 5⟩ :=
    ⟨show 0 < size.toNat by omega, le_rfl, flags⟩
  have rules : ModuleRules [⟨0, ⟨0⟩, size, size, 5⟩] ⟨0⟩ := by
    have executable : (5 : U32).getLsbD 2 = true := by decide
    refine ⟨rfl, ⟨_, .head _, executable, le_rfl, ?_⟩, ?_, ?_, .cons (by simp) .nil⟩
    · change 0 + 4 ≤ 0 + size.toNat
      omega
    · rw [List.forall_mem_singleton]
      change 0 + size.toNat ≤ 2 ^ 32
      omega
    · rw [List.forall_mem_singleton, Span.points, Set.Ico_disjoint_Ico]
      change min (0 + size.toNat) 0xc400_0000 ≤ max 0 0xc000_0000
      omega
  refine ⟨?_, ?_, ?_, ?_⟩
  · rw [zeroModule, List.forall_mem_singleton]
    exact ⟨ModuleSegment.validate_eq_ok.mpr valid, List.length_replicate.symm⟩
  · exact (validateModuleRecords_eq_ok (List.forall_mem_singleton.mpr valid)).mpr rules
  · intro empty
    exact named (asBytes_injective empty)
  · rw [zeroModule, fromUtf8_asBytes]
    rfl

theorem zeroModules_packable {size : U32} (long : 4 ≤ size.toNat)
    (below : size.toNat ≤ 0xc000_0000) :
    Packable ⟨0xc000_8000⟩ [wordKernel] (zeroModules size) := by
  refine ⟨⟨_, rfl⟩, ?_, rfl, ?_, ?_⟩
  · rw [List.forall_mem_singleton]
    exact ⟨rfl, rfl⟩
  · rw [zeroModules, List.forall_mem_map]
    intro name member
    refine zeroModule_packable long below ?_
    rintro rfl
    exact absurd member (by decide)
  · rw [zeroModules, List.map_map]
    exact List.Nodup.map asBytes_injective (by decide)

theorem payloadSize_zeroModule (size : U32) (name : String) :
    payloadSize (zeroModule size name) = size.toNat := by
  simp [payloadSize, zeroModule, dataSize]

theorem buildImage_round_trip_words : ∃ image,
    buildImage ⟨0xc000_8000⟩ [wordKernel] (zeroModules 4) = .ok image ∧
      RoundTrips ⟨0xc000_8000⟩ [wordKernel] (zeroModules 4) image :=
  (buildImage_round_trip (zeroModules_packable (by decide) (by decide))).1 (by decide)

/-- The payload of the third module is behind the other two. -/
theorem zeroModules_unrecorded {size : U32} (large : 0x8000_0000 ≤ size.toNat) :
    ¬ Recordable [wordKernel] (zeroModules size) := by
  intro recordable
  obtain ⟨_, _, _, small⟩ := forall_recordedOffsets.mp recordable.offsets
  have third : (moduleDataPlace [wordKernel] (zeroModules size) +
      payloadSize (zeroModule size "init") + payloadSize (zeroModule size "ping"),
      zeroModule size "shell") ∈ modulePayloads [wordKernel] (zeroModules size) :=
    .tail _ (.tail _ (.head _))
  have nonempty : List.replicate size.toNat (0 : U8) ≠ [] := by
    rw [Ne, List.replicate_eq_nil_iff]
    omega
  have place := small _ third _ (.head _) nonempty
  simp only [payloadSize_zeroModule, id] at place
  omega

/-- Two modules of three gigabytes each push the payload of a third one behind the offsets that
can be recorded: the image is invalid and does not overflow the ROM. -/
theorem large_modules_invalid :
    Packable ⟨0xc000_8000⟩ [wordKernel] (zeroModules 0xc000_0000) ∧
      0x100_0000 < laidOutSize [wordKernel] (zeroModules 0xc000_0000) ∧
      buildImage ⟨0xc000_8000⟩ [wordKernel] (zeroModules 0xc000_0000) ≠
        .error (.returned .romOverflow) := by
  have unrecorded : ¬ Recordable [wordKernel] (zeroModules 0xc000_0000) :=
    zeroModules_unrecorded (by decide)
  refine ⟨zeroModules_packable (by decide) (by decide), ?_, ?_⟩
  · by_contra short
    exact unrecorded (recordable_of_fits (not_lt.mp short))
  · obtain ⟨detail, refused⟩ := buildImage_unrecorded unrecorded
    rw [refused]
    intro overflow
    cases overflow

/-! ### Builds -/

/-- The packer returns no image for an entry outside the direct map. -/
theorem entry_of_buildImage {kernelEntry : VirtualAddress}
    {kernelSegments : List (KernelSegment × List U8)} {modules : List PackedModule}
    {image : SystemImage} (built : buildImage kernelEntry kernelSegments modules = .ok image) :
    ∃ physical, directMapPhysical kernelEntry = .ok physical := by
  rw [buildImage_eq] at built
  obtain ⟨placed, _, rest⟩ := bind_ok built
  obtain ⟨_, _, written⟩ := bind_ok rest
  simp only [write, bind_eq_ok, platform_eq_ok] at written
  obtain ⟨_, _, _, _, _, _, _, _, _, _, _, encoded, _⟩ := written
  obtain ⟨_, legal, _⟩ := bind_ok encoded
  obtain ⟨above, below⟩ := (ImageHeader.validate_eq_ok.mp legal).kernelEntry
  exact ⟨_, if_pos ⟨above, below⟩⟩

section Builds

variable {ObjectError : Type}

theorem elf32_toNat {value : Nat} {detail : String} {word : U32}
    (converted : (elf32 value detail : Built ObjectError _) = .ok word) : word.toNat = value := by
  obtain ⟨_, small, done⟩ := bind_ok converted
  rw [require_eq_ok] at small
  cases done
  exact Nat.mod_eq_of_lt small

theorem packKernelSegment_packed {segment : ElfSegment} {packed : KernelSegment × List U8}
    (done : (packKernelSegment segment : Built ObjectError _) = .ok packed) :
    packed.1.validate = .ok () ∧ packed.1.fileSize.toNat = packed.2.length := by
  unfold packKernelSegment at done
  split at done
  all_goals
    obtain ⟨_, _, rest⟩ := bind_ok done
    obtain ⟨fileSize, sized, rest⟩ := bind_ok rest
    obtain ⟨_, valid, rest⟩ := bind_ok rest
    cases rest
    exact ⟨platform_eq_ok.mp (mapError_ok valid), elf32_toNat sized⟩

theorem packModuleSegment_packed {segment : ElfSegment} {packed : ModuleSegment × List U8}
    (done : (packModuleSegment segment : Built ObjectError _) = .ok packed) :
    packed.1.validate = .ok () ∧ packed.1.fileSize.toNat = packed.2.length := by
  obtain ⟨fileSize, sized, rest⟩ := bind_ok done
  obtain ⟨_, valid, rest⟩ := bind_ok rest
  cases rest
  exact ⟨platform_eq_ok.mp (mapError_ok valid), elf32_toNat sized⟩

variable {fileParse : List U8 → Except ObjectError (ObjectFile ObjectError)}

/-- Every module that a build packs is packable. -/
theorem packModule_packed {input : ModuleInput} {packed : PackedModule}
    (done : packModule fileParse input = .ok packed) : PackableModule packed := by
  obtain ⟨_, named, rest⟩ := bind_ok done
  obtain ⟨⟨entry, segments⟩, _, rest⟩ := bind_ok rest
  obtain ⟨records, all, rest⟩ := bind_ok rest
  obtain ⟨_, valid, rest⟩ := bind_ok rest
  cases rest
  refine ⟨?_, mapError_ok (mapError_ok valid), ?_, ?_⟩
  · intro segment member
    rw [(sortOn_perm _ _).mem_iff] at member
    exact forall₂_right (mapM_eq_ok.mp all) (fun _ _ => packModuleSegment_packed) segment member
  · intro empty
    have same : input.name = "" := asBytes_injective empty
    rw [require_eq_ok, same] at named
    exact absurd named (by decide)
  · rw [fromUtf8_asBytes]
    rfl

/-- An image that the packer returns fits the ROM and keeps its inputs. -/
theorem roundTrips_of_built {kernelEntry : VirtualAddress}
    {kernelSegments : List (KernelSegment × List U8)} {modules : List PackedModule}
    {image : SystemImage} (packable : Packable kernelEntry kernelSegments modules)
    (built : buildImage kernelEntry kernelSegments modules = .ok image) :
    RoundTrips kernelEntry kernelSegments modules image := by
  have recordable : Recordable kernelSegments modules := by
    by_contra unrecorded
    obtain ⟨detail, refused⟩ := buildImage_unrecorded unrecorded
    cases built.symm.trans refused
  have short : laidOutSize kernelSegments modules ≤ 0x100_0000 := by
    by_contra long
    cases built.symm.trans (buildImage_overflows recordable (not_le.mp long))
  cases built.symm.trans (buildImage_packed packable short)
  exact roundTrips_packed packable short

/-- The image of a build keeps the segments of its ELF files, in the order of their addresses,
and its modules, in the order of their names. -/
theorem build_round_trip {kernel : List U8} {modules : List ModuleInput} {image : SystemImage}
    (built : build fileParse kernel modules = .ok image) :
    ∃ entry segments packedKernel packedModules,
      parseElf fileParse kernel = .ok (entry, segments) ∧
      segments.mapM packKernelSegment = (.ok packedKernel : Built ObjectError _) ∧
      List.Forall₂ (fun input packed => packModule fileParse input = .ok packed) modules
        packedModules ∧
      RoundTrips ⟨entry⟩ (sortOn (fun segment => segment.1.virtualAddress.get.toNat) packedKernel)
        (sortOn nameKey packedModules) image := by
  obtain ⟨entry, segments, packedKernel, packedModules, parsed, packed, valid, all, names, done⟩ :=
    (build_eq_ok fileParse).mp built
  refine ⟨entry, segments, packedKernel, packedModules, parsed, packed, all,
    roundTrips_of_built ⟨entry_of_buildImage done, ?_, valid, ?_, ?_⟩ done⟩
  · intro segment member
    rw [(sortOn_perm _ _).mem_iff] at member
    exact forall₂_right (mapM_eq_ok.mp packed) (fun _ _ => packKernelSegment_packed) segment member
  · intro module member
    rw [(sortOn_perm _ _).mem_iff] at member
    exact forall₂_right all (fun _ _ => packModule_packed) module member
  · have keys : packedModules.map nameKey =
        (packedModules.map PackedModule.name).map (List.map BitVec.toNat) := by
      rw [List.map_map]
      rfl
    rw [keys] at names
    exact ((sortOn_perm nameKey packedModules).map PackedModule.name).nodup_iff.mpr names.of_map

end Builds

end Minemu.Image
