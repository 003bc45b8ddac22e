import Minemu.Image.Parsing

/-! The parser against the version-1 format: it never panics, what it accepts conforms, and
what conforms is accepted unless an empty module table lies inside another range. -/

namespace Minemu.Image

open Library Platform

variable {bytes : List U8}

/-- A conforming image: the string stores its records under their rules, and its ranges are
inside the image and have no byte in common. Empty ranges have no bytes. -/
structure Conforms (bytes : List U8) (image : SystemImage) : Prop where
  stores : Stores bytes image
  inside : ∀ span ∈ image.spans, span.points ⊆ Set.Iio bytes.length
  disjoint : image.spans.Pairwise fun span other => Disjoint span.points other.points

/-! ### No panic -/

theorem avoids_platform (result : Except PlatformError α) :
    Avoids Failure.Panics (platform result) :=
  avoids_mapError fun _ panics => panics

theorem avoids_invalid {condition : Prop} [Decidable condition] (detail : String) :
    Avoids Failure.Panics (require condition (invalid detail)) :=
  avoids_require fun panics => panics

theorem avoids_sliced {start stop : Nat} (ordered : start ≤ stop) (fits : stop ≤ bytes.length) :
    Avoids Failure.Panics (sliced bytes start stop) := by
  rw [sliced, slice?_of_fits bytes ordered fits]
  exact avoids_ok _

theorem avoids_occupy (imageMap : ImageMap) (candidate : Span) (imageSize : Nat)
    (detail : String) : Avoids Failure.Panics (imageMap.occupy candidate imageSize detail) :=
  (avoids_invalid _).bind fun _ _ => (avoids_invalid _).bind fun _ _ => avoids_ok _

theorem avoids_occupyData (imageMap : ImageMap) (dataOffset fileSize : U32) (imageSize : Nat) :
    Avoids Failure.Panics (imageMap.occupyData dataOffset fileSize imageSize) := by
  unfold ImageMap.occupyData
  split
  · rw [Span.fromOffsetLength_eq]
    exact (avoids_ok _).bind fun _ _ => avoids_occupy _ _ _ _
  · exact avoids_ok _

theorem occupy_inside {imageMap after : ImageMap} {candidate : Span} {imageSize : Nat}
    {detail : String} (occupied : imageMap.occupy candidate imageSize detail = .ok after) :
    candidate.stop ≤ imageSize :=
  (ImageMap.occupy_eq_ok.mp occupied).1.fits candidate (by simp)

theorem avoids_parseKernelSegment {header : ImageHeader} {index : Nat}
    (inside : header.kernelSegmentTableOffset.toNat + index * 32 + 32 ≤ bytes.length)
    (state : ImageMap × List KernelSegment) :
    Avoids Failure.Panics (parseKernelSegment bytes header state index) := by
  refine (avoids_sliced (Nat.le_add_right _ _) inside).bind fun _ _ => ?_
  refine (avoids_platform _).bind fun _ _ => ?_
  exact (avoids_occupyData _ _ _ _).bind fun _ _ => avoids_ok _

theorem avoids_parseModuleSegment {record : ModuleRecord} {index : Nat}
    (inside : record.segmentTableOffset.toNat + index * 32 + 32 ≤ bytes.length)
    (state : ImageMap × List ModuleSegment) :
    Avoids Failure.Panics (parseModuleSegment bytes record state index) := by
  refine (avoids_sliced (Nat.le_add_right _ _) inside).bind fun _ _ => ?_
  refine (avoids_platform _).bind fun _ _ => ?_
  exact (avoids_occupyData _ _ _ _).bind fun _ _ => avoids_ok _

theorem avoids_parseModule {header : ImageHeader} {index : Nat}
    (inside : header.moduleTableOffset.toNat + index * 32 + 32 ≤ bytes.length)
    (state : ImageMap × List String × List ImageModule) :
    Avoids Failure.Panics (parseModule bytes header state index) := by
  refine (avoids_sliced (Nat.le_add_right _ _) inside).bind fun _ _ => ?_
  refine (avoids_platform _).bind fun record _ => ?_
  rw [Span.fromOffsetLength_eq, moduleSegmentSize, Span.newChecked_eq]
  refine (avoids_ok _).bind fun nameSpan same => ?_
  cases same
  refine (avoids_ok _).bind fun segmentTable same => ?_
  cases same
  refine (avoids_occupy _ _ _ _).bind fun _ occupied => ?_
  refine (avoids_occupy _ _ _ _).bind fun _ tableOccupied => ?_
  have nameInside := occupy_inside occupied
  have tableInside := occupy_inside tableOccupied
  refine (avoids_sliced (Nat.le_add_right _ _) nameInside).bind fun part _ => ?_
  refine Avoids.bind ?_ fun name _ => ?_
  · unfold moduleName
    split
    · exact avoids_ok _
    · exact avoids_error fun panics => panics
  refine (avoids_invalid _).bind fun _ _ => ?_
  refine (avoids_foldlM _ (fun state segmentIndex member => ?_) _).bind fun _ _ => ?_
  · have bound := List.mem_range.mp member
    simp only [spanAt] at tableInside
    exact avoids_parseModuleSegment (by omega) state
  exact (avoids_mapError fun _ panics => panics).bind fun _ _ => avoids_ok _

/-- Every slice the parser takes is inside the string. -/
theorem avoids_parse (bytes : List U8) : Avoids Failure.Panics (parse bytes) := by
  refine (avoids_platform _).bind fun header _ => ?_
  refine (avoids_invalid _).bind fun _ _ => ?_
  rw [ImageMap.new_eq, kernelSegmentSize, moduleRecordSize, Span.newChecked_eq, Span.newChecked_eq]
  refine (avoids_ok _).bind fun imageMap _ => ?_
  refine (avoids_ok _).bind fun kernelTable same => ?_
  cases same
  refine (avoids_ok _).bind fun moduleTable same => ?_
  cases same
  refine (avoids_occupy _ _ _ _).bind fun _ occupied => ?_
  refine (avoids_occupy _ _ _ _).bind fun _ moduleOccupied => ?_
  have tableInside := occupy_inside occupied
  have moduleInside := occupy_inside moduleOccupied
  simp only [spanAt] at tableInside moduleInside
  refine (avoids_foldlM _ (fun state index member => ?_) _).bind fun _ _ => ?_
  · have bound := List.mem_range.mp member
    exact avoids_parseKernelSegment (by omega) state
  refine (avoids_mapError fun _ panics => panics).bind fun _ _ => ?_
  refine (avoids_foldlM _ (fun state index member => ?_) _).bind fun _ _ => avoids_ok _
  have bound := List.mem_range.mp member
  exact avoids_parseModule (by omega) state

/-! ### Soundness -/

theorem Conforms.of_parse {image : SystemImage} (parsed : parse bytes = .ok image) :
    Conforms bytes image := by
  obtain ⟨stores, fits, apart⟩ := parse_eq_ok.mp parsed
  refine ⟨stores, fun span member => ?_, apart.imp fun apart => (Span.apart_iff.mp apart).1⟩
  exact Span.points_subset_iff.mpr (.inr (fits span member))

/-- The parser never panics, and accepts only strings that obey every rule of the format,
with all their tables, names and payloads inside. -/
theorem parse_sound (bytes : List U8) : Avoids Failure.Panics (parse bytes) ∧
    ∀ image, parse bytes = .ok image →
      Conforms bytes image ∧ ∀ span ∈ image.spans, span.stop ≤ bytes.length := by
  refine ⟨avoids_parse bytes, fun image parsed => ⟨.of_parse parsed, ?_⟩⟩
  exact (parse_eq_ok.mp parsed).2.1

/-- An image with one kernel segment and two modules of one instruction each. -/
def modularImage : List U8 :=
  ([0x4d45_4d55, 0x0040_0001, 244, 64, 1, 96, 2, 0x4000_8000, 0xc000_8000, 0x4000_7000, 0, 0, 0, 0,
    0, 0, 232, 0x4000_8000, 0xc000_8000, 4, 4, 5, 0, 0, 224, 4, 160, 1, 0x0040_0000, 0, 0, 0, 228,
    4, 192, 1, 0x0040_0000, 0, 0, 0, 236, 0x0040_0000, 4, 4, 5, 0, 0, 0, 240, 0x0040_0000, 4, 4, 5,
    0, 0, 0, 0x7469_6e69, 0x7367_6f6c, 0x0403_0201, 0xef00_0000, 0xe1a0_0000] : List U32).flatMap
      fun word => toBytes 4 word.toNat

def modularDecoded : SystemImage :=
  ⟨modularImage, ⟨244, 64, 1, 96, 2, ⟨0x4000_8000⟩, ⟨0xc000_8000⟩, ⟨0x4000_7000⟩⟩,
    [⟨232, ⟨0x4000_8000⟩, ⟨0xc000_8000⟩, 4, 4, 5⟩],
    [⟨"init", ⟨224, 4, 160, 1, ⟨0x0040_0000⟩⟩, [⟨236, ⟨0x0040_0000⟩, 4, 4, 5⟩]⟩,
      ⟨"logs", ⟨228, 4, 192, 1, ⟨0x0040_0000⟩⟩, [⟨240, ⟨0x0040_0000⟩, 4, 4, 5⟩]⟩]⟩

set_option maxRecDepth 8000 in
theorem parse_sound_modular : Conforms modularImage modularDecoded ∧
    ∀ span ∈ modularDecoded.spans, span.stop ≤ modularImage.length :=
  (parse_sound modularImage).2 modularDecoded rfl

/-! ### Completeness -/

theorem storesModule_unique {table : U32} {index : Nat} {first second : ImageModule}
    (stores : StoresModule bytes table index first)
    (stores' : StoresModule bytes table index second) : first = second := by
  obtain ⟨name, record, segments⟩ := first
  obtain ⟨name', record', segments'⟩ := second
  have records : record = record' := stores.fields.trans stores'.fields.symm
  subst records
  obtain ⟨part, read, named⟩ := stores.name
  obtain ⟨part', read', named'⟩ := stores'.name
  cases read.symm.trans read'
  cases named.symm.trans named'
  have same : segments = segments' := List.right_unique_forall₂'
    (fun _ _ _ first second => first.fields.trans second.fields.symm) stores.segments
    stores'.segments
  rw [same]

/-- A string stores at most one image. -/
theorem Stores.unique {first second : SystemImage} (stores : Stores bytes first)
    (stores' : Stores bytes second) : first = second := by
  obtain ⟨whole, header, kernelSegments, modules⟩ := first
  obtain ⟨whole', header', kernelSegments', modules'⟩ := second
  have wholes : whole = whole' := stores.whole.trans stores'.whole.symm
  have headers : header = header' := stores.header.trans stores'.header.symm
  subst wholes headers
  have segments : kernelSegments = kernelSegments' := List.right_unique_forall₂'
    (fun _ _ _ first second => first.fields.trans second.fields.symm) stores.kernelSegments
    stores'.kernelSegments
  have unique : Relator.RightUnique (StoresModule bytes header.moduleTableOffset) :=
    fun _ _ _ => storesModule_unique
  have same : modules = modules' :=
    List.right_unique_forall₂' unique stores.modules stores'.modules
  rw [segments, same]

theorem payload_occupied {dataOffset fileSize : U32} :
    ∀ span ∈ payload dataOffset fileSize, span.start < span.stop := by
  intro span member
  unfold payload at member
  split at member
  · rename_i nonzero
    have positive : fileSize.toNat ≠ 0 := fun zero => nonzero (BitVec.eq_of_toNat_eq zero)
    cases List.mem_singleton.mp member
    simp only [spanAt]
    omega
  · cases member

/-- No range of a stored module is empty. -/
theorem moduleSpans_occupied {table : U32} {index : Nat} {module : ImageModule}
    (stores : StoresModule bytes table index module) :
    ∀ span ∈ moduleSpans module, span.start < span.stop := by
  intro span member
  rcases List.mem_cons.mp member with rfl | member
  · obtain ⟨part, read, named⟩ := stores.name
    have length := length_of_slice? read
    by_contra empty
    simp only [spanAt, not_lt] at empty
    cases List.eq_nil_of_length_eq_zero (length.trans (by omega : _ = 0))
    exact stores.named (Option.some.inj named).symm
  · rcases List.mem_cons.mp member with rfl | member
    · obtain ⟨segment, inside, _⟩ := stores.rules.entryCode
      have count := stores.segments.length_eq
      rw [List.length_range] at count
      have positive := List.length_pos_of_mem inside
      simp only [spanAt]
      omega
    · obtain ⟨segment, _, member⟩ := List.mem_flatMap.mp member
      exact payload_occupied span member

/-- The module table is the only range of an image that can be empty. -/
theorem Stores.occupied {image : SystemImage} (stores : Stores bytes image) :
    ∀ span ∈ image.spans, span = image.moduleTable ∨ span.start < span.stop := by
  intro span member
  simp only [SystemImage.spans, List.mem_cons, List.mem_append, List.mem_flatMap] at member
  rcases member with rfl | rfl | same | ⟨segment, _, member⟩ | ⟨module, member, inside⟩
  · exact .inr (show 0 < 0 + 64 by omega)
  · obtain ⟨segment, inside, _⟩ := stores.kernelRules.entryCode
    have count := stores.kernelSegments.length_eq
    rw [List.length_range] at count
    have positive := List.length_pos_of_mem inside
    right
    simp only [SystemImage.kernelTable, spanAt]
    omega
  · exact .inl same
  · exact .inr (payload_occupied span member)
  · right
    have each : ∀ module ∈ image.modules, ∀ span ∈ moduleSpans module, span.start < span.stop :=
      forall₂_right stores.modules fun _ _ stores => moduleSpans_occupied stores
    exact each module member span inside

/-- A conforming string is accepted exactly when its module table is not an empty range
strictly inside another one. -/
theorem conforming_accepted_iff (bytes : List U8) (image : SystemImage)
    (conforms : Conforms bytes image) :
    (∃ accepted, parse bytes = .ok accepted) ↔
      ∀ span ∈ image.spans, ¬ image.moduleTable.Within span := by
  obtain ⟨stores, inside, disjoint⟩ := conforms
  have table : image.moduleTable ∈ image.spans := by simp [SystemImage.spans]
  constructor
  · rintro ⟨accepted, parsed⟩ span member within
    obtain ⟨stores', _, apart⟩ := parse_eq_ok.mp parsed
    cases stores.unique stores'
    by_cases same : image.moduleTable = span
    · have strict := within.2.1
      rw [same] at strict
      omega
    · have clear := apart.forall table member same
      exact (Span.apart_iff.mp clear).2.1 within
  · intro outside
    refine ⟨image, parse_eq_ok.mpr ⟨stores, fun span member => ?_, ?_⟩⟩
    · rcases Span.points_subset_iff.mp (inside span member) with empty | fits
      · rcases stores.occupied span member with rfl | occupied
        · have bound := stores.headerValid.moduleTable
          rw [stores.size]
          exact bound
        · omega
      · exact fits
    · refine disjoint.imp_of_mem fun {span other} member member' disjoint => ?_
      refine Span.apart_iff.mpr ⟨disjoint, fun within => ?_, fun within => ?_⟩
      · rcases stores.occupied span member with rfl | occupied
        · exact outside other member' within
        · have empty := within.1
          omega
      · rcases stores.occupied other member' with rfl | occupied
        · exact outside span member within
        · have empty := within.1
          omega

/-- An image with one segment of one instruction and no module; its empty module table is
at the given offset. -/
def tinyImage (moduleTableOffset : U32) : List U8 :=
  [0x4d45_4d55, 0x0040_0001, 100, 64, 1, moduleTableOffset, 0, 0x4000_8000, 0xc000_8000,
    0x4000_7000, 0, 0, 0, 0, 0, 0, 96, 0x4000_8000, 0xc000_8000, 4, 4, 5, 0, 0,
    0x0403_0201].flatMap fun word : U32 => toBytes 4 word.toNat

def tinyDecoded (moduleTableOffset : U32) : SystemImage :=
  ⟨tinyImage moduleTableOffset,
    ⟨100, 64, 1, moduleTableOffset, 0, ⟨0x4000_8000⟩, ⟨0xc000_8000⟩, ⟨0x4000_7000⟩⟩,
    [⟨96, ⟨0x4000_8000⟩, ⟨0xc000_8000⟩, 4, 4, 5⟩], []⟩

/-- The image whose empty module table lies inside its header conforms. -/
theorem tinyImage_conforms : Conforms (tinyImage 8) (tinyDecoded 8) := by
  have ranges : (tinyDecoded 8).spans = [spanAt 0 64, spanAt 64 32, spanAt 8 0, spanAt 96 4] := rfl
  have segment : StoresKernelSegment (tinyImage 8) 64 0
      ⟨96, ⟨0x4000_8000⟩, ⟨0xc000_8000⟩, 4, 4, 5⟩ :=
    ⟨by decide, by decide, rfl, ⟨by decide, by decide, by decide, by decide, by decide, by decide⟩⟩
  have rules : KernelRules (tinyDecoded 8).kernelSegments ⟨0xc000_8000⟩ := by
    refine ⟨by decide, ⟨_, .head _, by decide⟩, ⟨_, .head _, by decide⟩, ?_, .cons (by simp) .nil⟩
    intro segment member
    cases List.mem_singleton.mp member
    rw [Span.points, Set.Ico_disjoint_Ico]
    decide
  refine ⟨⟨rfl, ⟨rfl, rfl, rfl, rfl, by decide⟩, rfl, ?_, rfl, .cons segment .nil, rules, .nil,
    .nil⟩, ?_, ?_⟩
  · exact ⟨by decide, by decide, rfl, rfl, by decide, by decide, by decide⟩
  · rw [ranges]
    intro span member
    refine Span.points_subset_iff.mpr (.inr ?_)
    revert span
    decide
  · rw [ranges]
    simp only [Span.points, Set.Ico_disjoint_Ico]
    decide

/-- It is refused all the same. -/
theorem empty_module_table_refused : Conforms (tinyImage 8) (tinyDecoded 8) ∧
    ¬ ∃ accepted, parse (tinyImage 8) = .ok accepted := by
  refine ⟨tinyImage_conforms, ?_⟩
  rintro ⟨accepted, parsed⟩
  have refused : parse (tinyImage 8) = .error (invalid "overlapping image tables") := by rfl
  rw [refused] at parsed
  cases parsed

theorem conforming_accepted_iff_tiny :
    (∃ accepted, parse (tinyImage 8) = .ok accepted) ↔
      ∀ span ∈ (tinyDecoded 8).spans, ¬ (tinyDecoded 8).moduleTable.Within span :=
  conforming_accepted_iff (tinyImage 8) (tinyDecoded 8) tinyImage_conforms

end Minemu.Image
