import Minemu.Image.Validation
import Minemu.Library.Spans

/-! The validity rules on segment records, and that the checks decide them. -/

namespace Minemu.Image

open Library Platform

/-- A complete instruction at an address inside the initialized part of an executable range. -/
def HoldsCode (flags : U32) (start fileSize address : Nat) : Prop :=
  flags.getLsbD 2 = true ∧ start ≤ address ∧ address + 4 ≤ start + fileSize

instance (flags : U32) (start fileSize address : Nat) :
    Decidable (HoldsCode flags start fileSize address) :=
  inferInstanceAs (Decidable (flags.getLsbD 2 = true ∧ _ ∧ _))

def physicalSpan (segment : KernelSegment) : Span :=
  ⟨segment.physicalAddress.get.toNat, segment.physicalAddress.get.toNat + segment.memorySize.toNat,
    by omega⟩

def virtualSpan (segment : KernelSegment) : Span :=
  ⟨segment.virtualAddress.get.toNat, segment.virtualAddress.get.toNat + segment.memorySize.toNat,
    by omega⟩

def moduleSpan (segment : ModuleSegment) : Span :=
  ⟨segment.virtualAddress.get.toNat, segment.virtualAddress.get.toNat + segment.memorySize.toNat,
    by omega⟩

/-- The rules on the kernel segments together. -/
structure KernelRules (segments : List KernelSegment) (entry : VirtualAddress) : Prop where
  entryAligned : entry.get.toNat % 4 = 0
  entryCode : ∃ segment ∈ segments, HoldsCode segment.flags segment.virtualAddress.get.toNat
    segment.fileSize.toNat entry.get.toNat
  bootstrapCode : ∃ segment ∈ segments, HoldsCode segment.flags
    segment.physicalAddress.get.toNat segment.fileSize.toNat 0x4000_8000
  workspace : ∀ segment ∈ segments,
    Disjoint (physicalSpan segment).points (Set.Ico 0x4000_6000 0x4000_7040)
  apart : segments.Pairwise fun segment other =>
    Disjoint (physicalSpan segment).points (physicalSpan other).points ∧
      Disjoint (virtualSpan segment).points (virtualSpan other).points

/-- The rules on the segments of a module together. -/
structure ModuleRules (segments : List ModuleSegment) (entry : VirtualAddress) : Prop where
  entryAligned : entry.get.toNat % 4 = 0
  entryCode : ∃ segment ∈ segments, HoldsCode segment.flags segment.virtualAddress.get.toNat
    segment.fileSize.toNat entry.get.toNat
  unwrapped : ∀ segment ∈ segments,
    segment.virtualAddress.get.toNat + segment.memorySize.toNat ≤ 2 ^ 32
  outsideDirectMap : ∀ segment ∈ segments,
    Disjoint (moduleSpan segment).points (Set.Ico 0xc000_0000 0xc400_0000)
  apart : segments.Pairwise fun segment other =>
    Disjoint (moduleSpan segment).points (moduleSpan other).points

/-! ### Ranges -/

theorem AddressRange.new_eq_ok {start : VirtualAddress} {length : U32} {range : AddressRange} :
    AddressRange.new start length = .ok range ↔
      start.get.toNat + length.toNat ≤ 2 ^ 32 ∧
        range = ⟨start.get, start.get.toNat + length.toNat⟩ := by
  simp only [AddressRange.new, bind_eq_ok, require_eq_ok, exists_const, not_lt, gt_iff_lt, pure,
    Except.pure, Except.ok.injEq]
  rw [@eq_comm _ range]

theorem validateA32Entry_eq_ok {entry : VirtualAddress} {detail : String} {done : Unit} :
    validateA32Entry entry detail = .ok done ↔ entry.get.toNat % 4 = 0 := by
  have low := toNat_and_low entry.get 2 (by decide)
  rw [validateA32Entry, require_eq_ok, ← BitVec.toNat_inj]
  change (entry.get &&& BitVec.ofNat 32 (2 ^ 2 - 1)).toNat = 0 ↔ _
  rw [low]
  rfl

theorem executable_iff (flags : U32) : flags &&& executable ≠ 0 ↔ flags.getLsbD 2 = true :=
  and_bit_ne_zero flags (by decide)

/-- A test on an initialized executable range. -/
theorem initializedExecutable_any {flags : U32} {range : Except ε Range} {test : Range → Bool} :
    (initializedExecutable flags range).any test = true ↔
      flags.getLsbD 2 = true ∧ ∃ found, range = .ok found ∧ test found = true := by
  rw [← executable_iff, initializedExecutable]
  cases range with
  | error error => split <;> simp [Except.toOption]
  | ok found => split <;> simp_all [Except.toOption]

/-! ### Kernel segments -/

theorem physicalRange_eq_ok {segment : KernelSegment} {range : PhysicalRange} :
    physicalRange segment = .ok range ↔
      range.start = segment.physicalAddress ∧ range.length = segment.memorySize := by
  rw [physicalRange, mapError_eq_ok, PhysicalRange.new_eq_ok]

/-- The overlap test on two half-open ranges of numbers. -/
theorem not_overlap_iff {start stop start' stop' : Nat} (ordered : start < stop)
    (ordered' : start' < stop') : decide (start < stop' ∧ start' < stop) = false ↔
      Disjoint (Set.Ico start stop) (Set.Ico start' stop') := by
  rw [decide_eq_false_iff_not, Set.Ico_disjoint_Ico]
  omega

/-- The range check on a valid segment succeeds with its load range. -/
theorem physicalRange_of_valid {segment : KernelSegment} (valid : segment.Valid) :
    ∃ range, physicalRange segment = .ok range ∧
      Set.Ico range.start.get.toNat range.endExclusive = (physicalSpan segment).points ∧
      range.start.get.toNat < range.endExclusive := by
  obtain ⟨nonempty, _, _, _, below, _⟩ := valid
  obtain ⟨range, built⟩ := PhysicalRange.exists_new.mpr ⟨nonempty,
    show segment.physicalAddress.get.toNat + segment.memorySize.toNat ≤ 2 ^ 32 by omega⟩
  obtain ⟨start, length⟩ := PhysicalRange.new_eq_ok.mp built
  refine ⟨range, physicalRange_eq_ok.mpr ⟨start, length⟩, ?_, ?_⟩
  · rw [PhysicalRange.endExclusive, start, length]
    rfl
  · rw [PhysicalRange.endExclusive, start, length]
    omega

/-- The virtual range of a valid segment does not wrap. -/
theorem virtualRange_of_valid {segment : KernelSegment} (valid : segment.Valid) :
    AddressRange.new segment.virtualAddress segment.memorySize =
      .ok ⟨segment.virtualAddress.get,
        segment.virtualAddress.get.toNat + segment.memorySize.toNat⟩ := by
  obtain ⟨_, _, _, _, below, mapping⟩ := valid
  exact AddressRange.new_eq_ok.mpr ⟨by omega, rfl⟩

/-- The two ranges of one segment against those of another. -/
def KernelApart (segment other : KernelSegment) : Prop :=
  Disjoint (physicalSpan segment).points (physicalSpan other).points ∧
    Disjoint (virtualSpan segment).points (virtualSpan other).points

theorem validateKernelPair_eq_ok {segment other : KernelSegment} (valid : segment.Valid)
    (valid' : other.Valid) {physical : PhysicalRange}
    (built : physicalRange segment = .ok physical) {done : Unit} :
    validateKernelPair physical ⟨segment.virtualAddress.get,
        segment.virtualAddress.get.toNat + segment.memorySize.toNat⟩ other = .ok done ↔
      KernelApart segment other := by
  obtain ⟨range, found, points, nonempty⟩ := physicalRange_of_valid valid
  obtain ⟨range', found', points', nonempty'⟩ := physicalRange_of_valid valid'
  cases built.symm.trans found
  have size := valid.nonempty
  have size' := valid'.nonempty
  simp only [validateKernelPair, bind_eq_ok, require_eq_ok, found', virtualRange_of_valid valid',
    Except.ok.injEq, exists_eq_left', exists_const]
  refine and_congr ?_ ?_
  · rw [physicalRangesOverlap, not_overlap_iff nonempty nonempty', points, points']
  · rw [AddressRange.overlaps, not_overlap_iff (by simp only; omega) (by simp only; omega)]
    rfl

theorem validateKernelRanges_eq_ok {segments : List KernelSegment}
    (valid : ∀ segment ∈ segments, segment.Valid) {done : Unit} :
    validateKernelRanges segments = .ok done ↔
      (∀ segment ∈ segments,
        Disjoint (physicalSpan segment).points (Set.Ico 0x4000_6000 0x4000_7040)) ∧
      segments.Pairwise KernelApart := by
  induction segments with
  | nil => simp [validateKernelRanges, pure, Except.pure]
  | cons segment others ih =>
    rw [List.forall_mem_cons] at valid
    obtain ⟨range, found, points, nonempty⟩ := physicalRange_of_valid valid.1
    have workspace : physicalRangesOverlap range bootWorkspace = false ↔
        Disjoint (physicalSpan segment).points (Set.Ico 0x4000_6000 0x4000_7040) := by
      rw [physicalRangesOverlap, not_overlap_iff nonempty (by decide), points]
      rfl
    have pairs : others.forM (validateKernelPair range ⟨segment.virtualAddress.get,
          segment.virtualAddress.get.toNat + segment.memorySize.toNat⟩) = .ok () ↔
        ∀ other ∈ others, KernelApart segment other := by
      rw [forM_eq_ok]
      refine forall₂_congr fun other member => ?_
      exact validateKernelPair_eq_ok valid.1 (valid.2 other member) found
    simp only [validateKernelRanges, bind_eq_ok, require_eq_ok, found,
      virtualRange_of_valid valid.1, Except.ok.injEq, exists_eq_left', exists_const, workspace,
      pairs, ih valid.2, List.forall_mem_cons, List.pairwise_cons]
    tauto

/-- The entry test on a range that does not wrap. -/
theorem contains_entry_iff {flags fileSize : U32} {start entry : VirtualAddress}
    (fits : start.get.toNat + fileSize.toNat ≤ 2 ^ 32) :
    ((initializedExecutable flags (AddressRange.new start fileSize)).any fun range =>
        range.contains entry) = true ↔
      HoldsCode flags start.get.toNat fileSize.toNat entry.get.toNat := by
  rw [initializedExecutable_any]
  refine and_congr_right fun _ => ?_
  simp only [AddressRange.new_eq_ok, fits, true_and, exists_eq_left, AddressRange.contains]
  exact decide_eq_true_iff

theorem contains_bootstrap_iff {segment : KernelSegment} (valid : segment.Valid) :
    ((initializedExecutablePhysicalRange segment).any fun range =>
        range.containsRange bootstrapInstruction) = true ↔
      HoldsCode segment.flags segment.physicalAddress.get.toNat segment.fileSize.toNat
        0x4000_8000 := by
  obtain ⟨_, initialized, _, _, below, _⟩ := valid
  rw [initializedExecutablePhysicalRange, initializedExecutable_any]
  refine and_congr_right fun _ => ?_
  constructor
  · rintro ⟨range, built, contained⟩
    obtain ⟨start, length⟩ := PhysicalRange.new_eq_ok.mp built
    obtain ⟨before, after⟩ := PhysicalRange.containsRange_iff.mp contained
    rw [PhysicalRange.endExclusive, PhysicalRange.endExclusive, start, length] at after
    rw [start] at before
    exact ⟨before, after⟩
  · rintro ⟨before, after⟩
    obtain ⟨range, built⟩ := PhysicalRange.exists_new.mpr ⟨show 0 < segment.fileSize.toNat by omega,
      show segment.physicalAddress.get.toNat + segment.fileSize.toNat ≤ 2 ^ 32 by omega⟩
    obtain ⟨start, length⟩ := PhysicalRange.new_eq_ok.mp built
    refine ⟨range, built, PhysicalRange.containsRange_iff.mpr ⟨?_, ?_⟩⟩
    · rw [start]
      exact before
    · rw [PhysicalRange.endExclusive, PhysicalRange.endExclusive, start, length]
      exact after

/-- The checks on valid kernel segments decide the rules. -/
theorem validateKernelRecords_eq_ok {segments : List KernelSegment} {entry : VirtualAddress}
    (valid : ∀ segment ∈ segments, segment.Valid) {done : Unit} :
    validateKernelRecords segments entry = .ok done ↔ KernelRules segments entry := by
  have entryCode (segment : KernelSegment) (member : segment ∈ segments) :
      ((initializedExecutableVirtualRange segment).any fun range => range.contains entry) = true ↔
        HoldsCode segment.flags segment.virtualAddress.get.toNat segment.fileSize.toNat
          entry.get.toNat := by
    obtain ⟨_, initialized, _, _, below, mapping⟩ := valid segment member
    exact contains_entry_iff (by omega)
  have bootstrapCode (segment : KernelSegment) (member : segment ∈ segments) :=
    contains_bootstrap_iff (valid segment member)
  simp only [validateKernelRecords, bind_eq_ok, require_eq_ok, exists_const,
    validateA32Entry_eq_ok, validateKernelRanges_eq_ok valid, List.any_eq_true]
  constructor
  · rintro ⟨aligned, ⟨first, member, code⟩, ⟨second, member', code'⟩, workspace, apart⟩
    exact ⟨aligned, ⟨first, member, (entryCode first member).mp code⟩,
      ⟨second, member', (bootstrapCode second member').mp code'⟩, workspace, apart⟩
  · rintro ⟨aligned, ⟨first, member, code⟩, ⟨second, member', code'⟩, workspace, apart⟩
    exact ⟨aligned, ⟨first, member, (entryCode first member).mpr code⟩,
      ⟨second, member', (bootstrapCode second member').mpr code'⟩, workspace, apart⟩

/-! ### Module segments -/

theorem validateModulePair_eq_ok {segment other : ModuleSegment} (valid : segment.Valid)
    (valid' : other.Valid) {done : Unit} :
    validateModulePair ⟨segment.virtualAddress.get,
        segment.virtualAddress.get.toNat + segment.memorySize.toNat⟩ other = .ok done ↔
      other.virtualAddress.get.toNat + other.memorySize.toNat ≤ 2 ^ 32 ∧
        Disjoint (moduleSpan segment).points (moduleSpan other).points := by
  have size := valid.nonempty
  have size' := valid'.nonempty
  simp only [validateModulePair, bind_eq_ok, require_eq_ok, AddressRange.new_eq_ok, and_assoc,
    exists_and_left, exists_eq_left]
  refine and_congr_right fun _ => ?_
  rw [AddressRange.overlaps, not_overlap_iff (by simp only; omega) (by simp only; omega)]
  rfl

theorem validateModuleRanges_eq_ok {segments : List ModuleSegment}
    (valid : ∀ segment ∈ segments, segment.Valid) {done : Unit} :
    validateModuleRanges segments = .ok done ↔
      (∀ segment ∈ segments,
        segment.virtualAddress.get.toNat + segment.memorySize.toNat ≤ 2 ^ 32) ∧
      (∀ segment ∈ segments,
        Disjoint (moduleSpan segment).points (Set.Ico 0xc000_0000 0xc400_0000)) ∧
      segments.Pairwise fun segment other =>
        Disjoint (moduleSpan segment).points (moduleSpan other).points := by
  induction segments with
  | nil => simp [validateModuleRanges, pure, Except.pure]
  | cons segment others ih =>
    rw [List.forall_mem_cons] at valid
    have size := valid.1.nonempty
    have directMap : AddressRange.overlapsKernelDirectMap ⟨segment.virtualAddress.get,
          segment.virtualAddress.get.toNat + segment.memorySize.toNat⟩ = false ↔
        Disjoint (moduleSpan segment).points (Set.Ico 0xc000_0000 0xc400_0000) := by
      rw [AddressRange.overlapsKernelDirectMap, not_overlap_iff (by simp only; omega) (by decide)]
      rfl
    have pairs : others.forM (validateModulePair ⟨segment.virtualAddress.get,
          segment.virtualAddress.get.toNat + segment.memorySize.toNat⟩) = .ok () ↔
        ∀ other ∈ others, other.virtualAddress.get.toNat + other.memorySize.toNat ≤ 2 ^ 32 ∧
          Disjoint (moduleSpan segment).points (moduleSpan other).points := by
      rw [forM_eq_ok]
      refine forall₂_congr fun other member => ?_
      exact validateModulePair_eq_ok valid.1 (valid.2 other member)
    simp only [validateModuleRanges, bind_eq_ok, require_eq_ok, AddressRange.new_eq_ok, and_assoc,
      exists_and_left, exists_eq_left, exists_const, directMap, pairs, ih valid.2,
      List.forall_mem_cons, List.pairwise_cons]
    constructor
    · rintro ⟨fits, outside, pairs, unwrapped, directMaps, apart⟩
      exact ⟨fits, unwrapped, outside, directMaps, fun other member => (pairs other member).2,
        apart⟩
    · rintro ⟨fits, unwrapped, outside, directMaps, first, apart⟩
      exact ⟨fits, outside, fun other member => ⟨unwrapped other member, first other member⟩,
        unwrapped, directMaps, apart⟩

/-- The checks on valid module segments decide the rules. -/
theorem validateModuleRecords_eq_ok {segments : List ModuleSegment} {entry : VirtualAddress}
    (valid : ∀ segment ∈ segments, segment.Valid) {done : Unit} :
    validateModuleRecords segments entry = .ok done ↔ ModuleRules segments entry := by
  simp only [validateModuleRecords, bind_eq_ok, require_eq_ok, exists_const,
    validateA32Entry_eq_ok, validateModuleRanges_eq_ok valid, List.any_eq_true]
  constructor
  · rintro ⟨aligned, ⟨segment, member, code⟩, unwrapped, directMap, apart⟩
    have fits : segment.virtualAddress.get.toNat + segment.fileSize.toNat ≤ 2 ^ 32 := by
      have := (valid segment member).initialized
      have := unwrapped segment member
      omega
    exact ⟨aligned, ⟨segment, member, (contains_entry_iff fits).mp code⟩, unwrapped, directMap,
      apart⟩
  · rintro ⟨aligned, ⟨segment, member, code⟩, unwrapped, directMap, apart⟩
    have fits : segment.virtualAddress.get.toNat + segment.fileSize.toNat ≤ 2 ^ 32 := by
      have := (valid segment member).initialized
      have := unwrapped segment member
      omega
    exact ⟨aligned, ⟨segment, member, (contains_entry_iff fits).mpr code⟩, unwrapped, directMap,
      apart⟩

end Minemu.Image
