import Minemu.Image.Boot

/-! What the reference boot of an accepted image leaves in memory. -/

namespace Minemu.Image

open Library Platform Minemu.Core

variable {bytes bytes' : List U8} {image image' : SystemImage} {before middle after after' : PhysicalMemory}

/-- Memory with pieces laid over its RAM; the ROMs are untouched. -/
structure Laid (before after : PhysicalMemory) (pieces : List (Piece U8)) : Prop where
  bootRom : after.bootRom = before.bootRom
  systemRom : after.systemRom = before.systemRom
  ram : Overlay before.ramByte after.ramByte pieces

namespace Laid

variable {first second : List (Piece U8)}

theorem of_stored {address : Nat} {data : List U8}
    (stored : PhysicalMemory.Stored before after address data) :
    Laid before after [⟨address, data⟩] := by
  refine ⟨stored.bootRom, stored.systemRom, fun piece member index bound => ?_,
    fun place clear => ?_⟩
  · cases List.mem_singleton.mp member
    exact stored.inside index bound
  · refine stored.outside place ?_
    have away := clear ⟨address, data⟩ (.head _)
    rw [Piece.mem_places] at away
    simp only at away
    omega

theorem nothing (memory : PhysicalMemory) (address : Nat) : Laid memory memory [⟨address, []⟩] := by
  refine ⟨rfl, rfl, fun piece member index bound => ?_, fun _ _ => rfl⟩
  cases List.mem_singleton.mp member
  cases bound

theorem join {address : Nat} {left right : List U8} (lower : Laid before middle [⟨address, left⟩])
    (upper : Laid middle after [⟨address + left.length, right⟩]) :
    Laid before after [⟨address, left ++ right⟩] :=
  ⟨upper.bootRom.trans lower.bootRom, upper.systemRom.trans lower.systemRom,
    lower.ram.join upper.ram⟩

theorem append (lower : Laid before middle first) (upper : Laid middle after second)
    (apart : ∀ piece ∈ first, ∀ other ∈ second, Disjoint piece.places other.places) :
    Laid before after (first ++ second) :=
  ⟨upper.bootRom.trans lower.bootRom, upper.systemRom.trans lower.systemRom,
    lower.ram.append upper.ram apart⟩

/-- The pieces alone determine the memory. -/
theorem unique (laid : Laid before after first) (laid' : Laid before after' second)
    (same : ∀ piece, piece ∈ first ↔ piece ∈ second) : after = after' := by
  have bytes : after.ramByte = after'.ramByte := laid.ram.unique laid'.ram same
  exact PhysicalMemory.ext_ramByte (laid.bootRom.trans laid'.bootRom.symm)
    (laid.systemRom.trans laid'.systemRom.symm) fun address => congrFun bytes address

end Laid

/-! ### One step of the application -/

theorem write_laid (memory : PhysicalMemory) (address : PhysicalAddress) (data : List U8)
    (inside : 0x4000_0000 ≤ address.get.toNat ∧ address.get.toNat < 0x4400_0000)
    (fits : address.get.toNat + data.length ≤ 0x4400_0000) :
    ∃ after, memory.writeRange address data = .ok after ∧
      Laid memory after [⟨address.get.toNat, data⟩] := by
  obtain ⟨after, written, stored⟩ := memory.regionSliceMut_ram address data inside fits
  exact ⟨after, written, .of_stored stored⟩

theorem advance_eq (address : U32) (length : Nat) (fits : address.toNat + length < 2 ^ 32) :
    ∃ next, (advance address length : Except (ApplyFailure CoreError) U32) = .ok next ∧
      next.toNat = address.toNat + length := by
  have small : (BitVec.ofNat 32 length).toNat = length := by
    rw [BitVec.toNat_ofNat]
    exact Nat.mod_eq_of_lt (by omega)
  refine ⟨address + BitVec.ofNat 32 length, ?_, ?_⟩
  · exact bind_eq_ok.mpr ⟨(), require_eq_ok.mpr (by omega), rfl⟩
  · rw [BitVec.toNat_add, small]
    exact Nat.mod_eq_of_lt fits

/-- Clearing up to a page at a time lays zeros over the whole range. -/
theorem clear_laid (memory : PhysicalMemory) (address : U32) (remaining : Nat)
    (inside : 0x4000_0000 ≤ address.toNat) (fits : address.toNat + remaining ≤ 0x4400_0000) :
    ∃ after, clear PhysicalMemory.writeRange memory address remaining = .ok after ∧
      Laid memory after [⟨address.toNat, List.replicate remaining 0⟩] := by
  induction remaining using Nat.strong_induction_on generalizing memory address with
  | _ remaining ih =>
    rw [clear]
    by_cases done : remaining = 0
    · subst done
      exact ⟨memory, rfl, .nothing memory _⟩
    · rw [if_neg done]
      have positive : 0 < min remaining 4096 := by omega
      have bound : min remaining 4096 ≤ remaining := Nat.min_le_left _ _
      generalize min remaining 4096 = count at positive bound
      obtain ⟨middle, written, lower⟩ := write_laid memory ⟨address⟩ (List.replicate count 0)
        ⟨inside, by simp only; omega⟩ (by simp only [List.length_replicate]; omega)
      obtain ⟨next, advanced, place⟩ := advance_eq address count (by omega)
      obtain ⟨after, cleared, upper⟩ := ih (remaining - count) (by omega) middle next (by omega)
        (by omega)
      refine ⟨after, ?_, ?_⟩
      · exact bind_eq_ok.mpr ⟨middle, mapError_eq_ok.mpr written,
          bind_eq_ok.mpr ⟨next, advanced, cleared⟩⟩
      · have whole : List.replicate remaining (0 : U8) =
            List.replicate count 0 ++ List.replicate (remaining - count) 0 := by
          rw [List.replicate_append_replicate, Nat.add_sub_cancel' bound]
        rw [whole]
        refine lower.join ?_
        rw [List.length_replicate, ← place]
        exact upper

/-- What a segment puts into memory: its payload and then zeros. -/
def segmentPiece (bytes : List U8) (segment : KernelSegment) : Piece U8 :=
  ⟨segment.physicalAddress.get.toNat,
    (bytes.take (segment.dataOffset.toNat + segment.fileSize.toNat)).drop segment.dataOffset.toNat ++
      List.replicate (segment.memorySize.toNat - segment.fileSize.toNat) 0⟩

section Copies

variable {segment : KernelSegment} {copy : BootCopy}

theorem Copies.piece_eq (copied : Copies bytes segment copy) : segmentPiece bytes segment =
    ⟨copy.physicalAddress.get.toNat, copy.bytes ++ List.replicate copy.zeroedLength.toNat 0⟩ := by
  obtain ⟨address, payload, zeroed⟩ := copied
  obtain ⟨_, _, same⟩ := slice?_eq_some.mp payload
  rw [segmentPiece, ← same, ← zeroed, Nat.add_sub_cancel_left, address]

theorem Copies.length_bytes (copied : Copies bytes segment copy) :
    copy.bytes.length = segment.fileSize.toNat := by
  rw [length_of_slice? copied.payload, Nat.add_sub_cancel_left]

theorem Copies.places (copied : Copies bytes segment copy) :
    (segmentPiece bytes segment).places = (physicalSpan segment).points := by
  have length := copied.length_bytes
  have zeroed := copied.zeroed
  rw [copied.piece_eq, Piece.places, Span.points, physicalSpan, copied.address]
  simp only [List.length_append, List.length_replicate]
  congr 1
  omega

/-- Applying a copy lays the piece of its segment. -/
theorem applyCopy_laid (copied : Copies bytes segment copy) (valid : segment.Valid)
    (memory : PhysicalMemory) :
    ∃ after, applyCopy PhysicalMemory.writeRange memory copy = .ok after ∧
      Laid memory after [segmentPiece bytes segment] := by
  have length := copied.length_bytes
  have zeroed := copied.zeroed
  obtain ⟨nonempty, _, _, above, below, _⟩ := valid
  rw [copied.piece_eq]
  obtain ⟨address, part, zeroedLength⟩ := copy
  cases copied.address
  simp only at length zeroed
  obtain ⟨middle, written, lower⟩ := write_laid memory segment.physicalAddress part
    ⟨above, by omega⟩ (by omega)
  obtain ⟨next, advanced, place⟩ := advance_eq segment.physicalAddress.get part.length
    (by omega)
  obtain ⟨after, cleared, upper⟩ := clear_laid middle next zeroedLength.toNat (by omega) (by omega)
  refine ⟨after, ?_, lower.join (place ▸ upper)⟩
  exact bind_eq_ok.mpr ⟨middle, mapError_eq_ok.mpr written, bind_eq_ok.mpr ⟨next, advanced, cleared⟩⟩

/-- The loop over the copies lays the pieces of all segments. -/
theorem applyCopies_laid {segments : List KernelSegment} {copies : List BootCopy}
    (copied : List.Forall₂ (Copies bytes) segments copies)
    (valid : ∀ segment ∈ segments, segment.Valid)
    (apart : segments.Pairwise fun segment other =>
      Disjoint (physicalSpan segment).points (physicalSpan other).points)
    (memory : PhysicalMemory) :
    ∃ after, copies.foldlM (applyCopy PhysicalMemory.writeRange) memory = .ok after ∧
      Laid memory after (segments.map (segmentPiece bytes)) := by
  induction copied generalizing memory with
  | nil => exact ⟨memory, rfl, rfl, rfl, .refl _⟩
  | @cons segment copy segments copies first rest ih =>
    rw [List.forall_mem_cons] at valid
    rw [List.pairwise_cons] at apart
    obtain ⟨middle, applied, lower⟩ := applyCopy_laid first valid.1 memory
    obtain ⟨after, looped, upper⟩ := ih valid.2 apart.2 middle
    refine ⟨after, ?_, lower.append upper fun piece member piece' member' => ?_⟩
    · rw [List.foldlM_cons]
      exact bind_eq_ok.mpr ⟨middle, applied, looped⟩
    · cases List.mem_singleton.mp member
      obtain ⟨other, inside, rfl⟩ := List.mem_map.mp member'
      obtain ⟨copy', _, copied'⟩ := forall₂_left rest other inside
      rw [first.places, copied'.places]
      exact apart.1 other inside

end Copies

/-! ### The whole plan -/

/-- What the reference boot puts into memory. -/
def bootPieces (bytes : List U8) (image : SystemImage) (bootInfo : List U8) : List (Piece U8) :=
  image.kernelSegments.map (segmentPiece bytes) ++ [⟨0x4000_7000, bootInfo⟩]

theorem apply_laid (parsed : parse bytes = .ok image)
    (placed : ∀ segment ∈ image.kernelSegments, segment.fileSize = 0 →
      segment.dataOffset.toNat ≤ bytes.length) (memory : PhysicalMemory) :
    ∃ plan after, image.bootPlan = .ok plan ∧
      List.Forall₂ (Copies bytes) image.kernelSegments plan.copies ∧
      BootInfo.encode ⟨MemRegion.systemRom.base, image.header.imageSize,
        image.header.moduleTableOffset, image.header.moduleCount⟩ = .ok plan.bootInfo ∧
      plan.apply PhysicalMemory.writeRange memory = .ok after ∧
      Laid memory after (bootPieces bytes image plan.bootInfo) := by
  obtain ⟨plan, planned, copies⟩ := (boot_plan_total_iff bytes image parsed).mpr placed
  obtain ⟨_, encoded, address, _⟩ := bootPlan_eq_ok.mp planned
  have stores := (parse_eq_ok.mp parsed).1
  have place : plan.bootInfoPaddr.get = 0x4000_7000 := by
    rw [address]
    exact stores.headerValid.bootInfo
  obtain ⟨length, _⟩ := BootInfo.encode_inv encoded
  obtain ⟨middle, looped, lower⟩ := applyCopies_laid copies
    (fun segment member => parsed_valid parsed member)
    (stores.kernelRules.apart.imp fun apart => apart.1) memory
  obtain ⟨after, written, upper⟩ := write_laid middle plan.bootInfoPaddr plan.bootInfo
    (by rw [place]; decide) (by rw [place, length]; decide)
  rw [place] at upper
  refine ⟨plan, after, planned, copies, encoded, ?_, lower.append upper ?_⟩
  · exact bind_eq_ok.mpr ⟨middle, looped, mapError_eq_ok.mpr written⟩
  · intro piece member info member'
    cases List.mem_singleton.mp member'
    obtain ⟨segment, inside, rfl⟩ := List.mem_map.mp member
    obtain ⟨copy, _, copied⟩ := forall₂_left copies segment inside
    refine (stores.kernelRules.workspace segment inside).mono ?_ ?_
    · rw [copied.places]
    · rintro place ⟨above, below⟩
      simp only [length] at above below
      exact ⟨by omega, below⟩

/-- Memory after the reference boot: every segment loaded and cleared, the boot-info record in
its place, and nothing else touched. -/
structure Booted (bytes : List U8) (image : SystemImage) (before after : PhysicalMemory) :
    Prop where
  loaded : ∀ segment ∈ image.kernelSegments, ∀ index < segment.fileSize.toNat,
    bytes[segment.dataOffset.toNat + index]? =
      some (after.ramByte (segment.physicalAddress.get.toNat + index))
  cleared : ∀ segment ∈ image.kernelSegments, ∀ index, segment.fileSize.toNat ≤ index →
    index < segment.memorySize.toNat →
      after.ramByte (segment.physicalAddress.get.toNat + index) = 0
  bootInfo : BootInfo.decode ((List.range 64).map fun index => after.ramByte (0x4000_7000 + index))
    = .ok ⟨MemRegion.systemRom.base, image.header.imageSize, image.header.moduleTableOffset,
      image.header.moduleCount⟩
  elsewhere : ∀ address, (∀ segment ∈ image.kernelSegments, address ∉ (physicalSpan segment).points) →
    address ∉ Set.Ico 0x4000_7000 0x4000_7040 → after.ramByte address = before.ramByte address
  bootRom : after.bootRom = before.bootRom
  systemRom : after.systemRom = before.systemRom

theorem Booted.of_laid {bootInfo : List U8} {copies : List BootCopy}
    (copied : List.Forall₂ (Copies bytes) image.kernelSegments copies)
    (length : bootInfo.length = 64)
    (decoded : BootInfo.decode bootInfo = .ok ⟨MemRegion.systemRom.base, image.header.imageSize,
      image.header.moduleTableOffset, image.header.moduleCount⟩)
    (laid : Laid before after (bootPieces bytes image bootInfo)) : Booted bytes image before after := by
  have segmentInside (segment : KernelSegment) (member : segment ∈ image.kernelSegments) :
      ∃ copy, Copies bytes segment copy ∧ ∀ index,
        (bound : index < (copy.bytes ++ List.replicate copy.zeroedLength.toNat 0).length) →
        after.ramByte (segment.physicalAddress.get.toNat + index) =
          (copy.bytes ++ List.replicate copy.zeroedLength.toNat 0)[index] := by
    obtain ⟨copy, _, copied⟩ := forall₂_left copied segment member
    refine ⟨copy, copied, ?_⟩
    rw [← copied.address]
    have laidPiece := List.mem_append_left [⟨0x4000_7000, bootInfo⟩]
      (List.mem_map_of_mem (f := segmentPiece bytes) member)
    rw [copied.piece_eq] at laidPiece
    exact laid.ram.inside _ laidPiece
  refine ⟨?_, ?_, ?_, ?_, laid.bootRom, laid.systemRom⟩
  · intro segment member index bound
    obtain ⟨copy, copied, inside⟩ := segmentInside segment member
    have length := copied.length_bytes
    have cell := getElem?_slice copied.payload index
    rw [Nat.add_sub_cancel_left, if_pos bound] at cell
    rw [← cell, inside index (by rw [List.length_append]; omega),
      List.getElem_append_left (by omega), List.getElem?_eq_getElem]
  · intro segment member index initialized bound
    obtain ⟨copy, copied, inside⟩ := segmentInside segment member
    have length := copied.length_bytes
    have zeroed := copied.zeroed
    rw [inside index (by rw [List.length_append, List.length_replicate]; omega),
      List.getElem_append_right (by omega), List.getElem_replicate]
  · have record : (List.range 64).map (fun index => after.ramByte (0x4000_7000 + index)) =
        bootInfo := by
      refine List.ext_getElem (by simp [length]) fun index _ bound => ?_
      rw [List.getElem_map, List.getElem_range]
      exact laid.ram.inside ⟨0x4000_7000, bootInfo⟩ (List.mem_append_right _ (.head _)) index bound
    rw [record]
    exact decoded
  · intro address outside away
    refine laid.ram.outside address fun piece member => ?_
    rcases List.mem_append.mp member with segments | info
    · obtain ⟨segment, inside, rfl⟩ := List.mem_map.mp segments
      obtain ⟨copy, _, copied⟩ := forall₂_left copied segment inside
      rw [copied.places]
      exact outside segment inside
    · cases List.mem_singleton.mp info
      rw [Piece.places, length]
      exact away

/-- A payload lies outside the segment table, so another table over it changes no piece. -/
theorem segmentPiece_congr (parsed : parse bytes = .ok image)
    (same : ∀ index, index ∉ image.kernelTable.points → bytes'[index]? = bytes[index]?)
    {segment : KernelSegment} (member : segment ∈ image.kernelSegments) :
    segmentPiece bytes' segment = segmentPiece bytes segment := by
  rw [segmentPiece, segmentPiece]
  congr 2
  refine List.ext_getElem? fun index => ?_
  rw [List.getElem?_drop, List.getElem?_drop, List.getElem?_take, List.getElem?_take]
  split
  · rename_i bound
    have occupied : segment.fileSize ≠ 0 := by
      rintro empty
      rw [empty] at bound
      exact absurd bound (by simp)
    obtain ⟨_, _, apart⟩ := parse_eq_ok.mp parsed
    have table := (List.pairwise_cons.mp (List.pairwise_cons.mp apart).2).1
    have clear := table (spanAt segment.dataOffset.toNat segment.fileSize.toNat)
      (List.mem_cons_of_mem _ (List.mem_append_left _ (payload_mem member occupied)))
    refine same _ fun inside => ?_
    exact Set.disjoint_left.mp (Span.apart_iff.mp clear).1 inside ⟨Nat.le_add_right _ _, bound⟩
  · rfl

/-- The reference boot leaves memory as the image says, whatever was in it, and the order of
the records in the segment table does not matter. -/
theorem boot_memory (bytes : List U8) (image : SystemImage) (parsed : parse bytes = .ok image)
    (placed : ∀ segment ∈ image.kernelSegments, segment.fileSize = 0 →
      segment.dataOffset.toNat ≤ image.header.imageSize.toNat) (before : PhysicalMemory) :
    ∃ plan after, image.bootPlan = .ok plan ∧
      plan.apply PhysicalMemory.writeRange before = .ok after ∧ Booted bytes image before after ∧
      ∀ bytes' image', parse bytes' = .ok image' → image'.header = image.header →
        image'.kernelSegments.Perm image.kernelSegments →
        (∀ index, index ∉ image.kernelTable.points → bytes'[index]? = bytes[index]?) →
        ∃ plan', image'.bootPlan = .ok plan' ∧
          plan'.apply PhysicalMemory.writeRange before = .ok after := by
  have stores := (parse_eq_ok.mp parsed).1
  rw [← stores.size] at placed
  obtain ⟨plan, after, planned, copies, encoded, applied, laid⟩ := apply_laid parsed placed before
  obtain ⟨length, decoded⟩ := BootInfo.encode_inv encoded
  refine ⟨plan, after, planned, applied, .of_laid copies length decoded laid, ?_⟩
  intro bytes' image' parsed' header permuted same
  have stores' := (parse_eq_ok.mp parsed').1
  have placed' : ∀ segment ∈ image'.kernelSegments, segment.fileSize = 0 →
      segment.dataOffset.toNat ≤ bytes'.length := by
    intro segment member empty
    rw [stores'.size, header, ← stores.size]
    exact placed segment (permuted.mem_iff.mp member) empty
  obtain ⟨plan', after', planned', copies', encoded', applied', laid'⟩ :=
    apply_laid parsed' placed' before
  refine ⟨plan', planned', ?_⟩
  rw [header, encoded] at encoded'
  have info : plan'.bootInfo = plan.bootInfo := (Except.ok.inj encoded').symm
  have pieces : ∀ piece, piece ∈ bootPieces bytes image plan.bootInfo ↔
      piece ∈ bootPieces bytes' image' plan'.bootInfo := by
    intro piece
    rw [bootPieces, bootPieces, info, List.mem_append, List.mem_append]
    refine or_congr_left ?_
    have table : image'.kernelSegments.map (segmentPiece bytes') =
        image'.kernelSegments.map (segmentPiece bytes) :=
      List.map_congr_left fun segment member =>
        segmentPiece_congr parsed same (permuted.mem_iff.mp member)
    rw [table]
    exact (permuted.map (segmentPiece bytes)).mem_iff.symm
  rw [laid.unique laid' pieces]
  exact applied'

set_option maxRecDepth 10000 in
theorem boot_memory_cleared : ∃ plan after, (clearedDecoded 0).bootPlan = .ok plan ∧
    plan.apply PhysicalMemory.writeRange .empty = .ok after ∧
    Booted (clearedImage 0) (clearedDecoded 0) .empty after := by
  obtain ⟨plan, after, planned, applied, booted, _⟩ := boot_memory (clearedImage 0)
    (clearedDecoded 0) rfl (by decide) .empty
  exact ⟨plan, after, planned, applied, booted⟩

end Minemu.Image
