import Minemu.Core.Memory
import Minemu.Image.Conformance
import Minemu.Library.Overlay

/-! The reference boot of an accepted image: its plan and what the plan does to memory. -/

namespace Minemu.Image

open Library Platform Minemu.Core

variable {bytes : List U8} {image : SystemImage}

/-- One initialized kernel copy plus its trailing BSS zeroing requirement. -/
structure BootCopy where
  physicalAddress : PhysicalAddress
  bytes : List U8
  zeroedLength : U32
deriving DecidableEq

/-- Host-side reference model of the actions performed by the guest boot ROM. -/
structure BootPlan where
  copies : List BootCopy
  bootInfo : List U8
  bootInfoPaddr : PhysicalAddress
  bootstrapEntryPaddr : PhysicalAddress
  bootInfoVaddr : VirtualAddress
  kernelEntryVaddr : VirtualAddress
deriving DecidableEq

/-- `left - right` on unsigned words. -/
def checkedSub (left right : U32) : Outcome U32 := do
  require (right.toNat ≤ left.toNat) .arithmeticOverflow
  return left - right

/-- One turn of the loop over the kernel segments. -/
def bootCopy (bytes : List U8) (segment : KernelSegment) : Outcome BootCopy := do
  let start := segment.dataOffset.toNat
  let stop := start + segment.fileSize.toNat
  return { physicalAddress := segment.physicalAddress
           bytes := ← sliced bytes start stop
           zeroedLength := ← checkedSub segment.memorySize segment.fileSize }

/-- The expected data movements and handoff values. -/
def SystemImage.bootPlan (image : SystemImage) : Outcome BootPlan := do
  let copies ← image.kernelSegments.mapM (bootCopy image.bytes)
  let bootInfo : BootInfo :=
    { systemRomBase := MemRegion.systemRom.base
      imageSize := image.header.imageSize
      moduleTableOffset := image.header.moduleTableOffset
      moduleCount := image.header.moduleCount }
  return { copies
           bootInfo := ← platform bootInfo.encode
           bootInfoPaddr := image.header.bootInfoPaddr
           bootstrapEntryPaddr := image.header.bootstrapEntryPaddr
           bootInfoVaddr := ⟨0xc000_7000⟩
           kernelEntryVaddr := image.header.kernelEntryVaddr }

/-- How applying a plan can end other than by finishing: with an error of the writer, or with
a panic. -/
inductive ApplyFailure (Error : Type) where
  | returned (error : Error)
  | arithmeticOverflow

section Apply

variable {World Error : Type}

/-- `address + length as u32`. -/
def advance (address : U32) (length : Nat) : Except (ApplyFailure Error) U32 := do
  require (address.toNat + (BitVec.ofNat 32 length).toNat < 2 ^ 32) .arithmeticOverflow
  return address + BitVec.ofNat 32 length

/-- The loop that clears `remaining` bytes, at most a page at a time. -/
def clear (write : World → PhysicalAddress → List U8 → Except Error World) (world : World)
    (address : U32) (remaining : Nat) : Except (ApplyFailure Error) World :=
  if remaining = 0 then return world
  else do
    let count := min remaining 4096
    let world ← (write world ⟨address⟩ (List.replicate count 0)).mapError .returned
    let address ← advance address count
    clear write world address (remaining - count)
termination_by remaining

/-- One turn of the loop over the copies. -/
def applyCopy (write : World → PhysicalAddress → List U8 → Except Error World) (world : World)
    (copy : BootCopy) : Except (ApplyFailure Error) World := do
  let world ← (write world copy.physicalAddress copy.bytes).mapError .returned
  let address ← advance copy.physicalAddress.get copy.bytes.length
  clear write world address copy.zeroedLength.toNat

/-- Applies the reference kernel copies, BSS clearing, and boot-info write. -/
def BootPlan.apply (plan : BootPlan)
    (write : World → PhysicalAddress → List U8 → Except Error World) (world : World) :
    Except (ApplyFailure Error) World := do
  let world ← plan.copies.foldlM (applyCopy write) world
  (write world plan.bootInfoPaddr plan.bootInfo).mapError .returned

end Apply

/-! ### Planning -/

/-- A copy carries out a segment: its payload, then zeros up to its memory size. -/
structure Copies (bytes : List U8) (segment : KernelSegment) (copy : BootCopy) : Prop where
  address : copy.physicalAddress = segment.physicalAddress
  payload : slice? bytes segment.dataOffset.toNat
    (segment.dataOffset.toNat + segment.fileSize.toNat) = some copy.bytes
  zeroed : segment.fileSize.toNat + copy.zeroedLength.toNat = segment.memorySize.toNat

theorem bootCopy_eq_ok {segment : KernelSegment} {copy : BootCopy} :
    bootCopy bytes segment = .ok copy ↔ Copies bytes segment copy := by
  simp only [bootCopy, checkedSub, bind_eq_ok, sliced_eq_ok, require_eq_ok, exists_const, pure,
    Except.pure, Except.ok.injEq]
  constructor
  · rintro ⟨part, read, _, ⟨initialized, rfl⟩, rfl⟩
    refine ⟨rfl, read, ?_⟩
    simp only
    bv_omega
  · obtain ⟨address, part, zeroedLength⟩ := copy
    rintro ⟨rfl, read, zeroed⟩
    simp only at zeroed
    exact ⟨part, read, zeroedLength, ⟨by omega, by bv_omega⟩, rfl⟩

/-- The plan of an image, with one copy per kernel segment in table order. -/
structure Plans (image : SystemImage) (plan : BootPlan) : Prop where
  copies : List.Forall₂ (Copies image.bytes) image.kernelSegments plan.copies
  bootInfo : BootInfo.encode ⟨MemRegion.systemRom.base, image.header.imageSize,
    image.header.moduleTableOffset, image.header.moduleCount⟩ = .ok plan.bootInfo
  bootInfoPaddr : plan.bootInfoPaddr = image.header.bootInfoPaddr
  bootstrapEntryPaddr : plan.bootstrapEntryPaddr = image.header.bootstrapEntryPaddr
  bootInfoVaddr : plan.bootInfoVaddr = ⟨0xc000_7000⟩
  kernelEntryVaddr : plan.kernelEntryVaddr = image.header.kernelEntryVaddr

theorem bootPlan_eq_ok {plan : BootPlan} : image.bootPlan = .ok plan ↔ Plans image plan := by
  simp only [SystemImage.bootPlan, bind_eq_ok, mapM_eq_ok, bootCopy_eq_ok, platform_eq_ok, pure,
    Except.pure, Except.ok.injEq]
  constructor
  · rintro ⟨copies, copied, bootInfo, encoded, rfl⟩
    exact ⟨copied, encoded, rfl, rfl, rfl, rfl⟩
  · obtain ⟨copies, bootInfo, _, _, _, _⟩ := plan
    rintro ⟨copied, encoded, rfl, rfl, rfl, rfl⟩
    exact ⟨copies, copied, bootInfo, encoded, rfl⟩

theorem payload_mem {segment : KernelSegment} (member : segment ∈ image.kernelSegments)
    (occupied : segment.fileSize ≠ 0) : spanAt segment.dataOffset.toNat segment.fileSize.toNat ∈
      image.kernelSegments.flatMap kernelPayload := by
  refine List.mem_flatMap.mpr ⟨segment, member, ?_⟩
  rw [kernelPayload, payload, if_pos occupied]
  exact .head _

/-- The one thing the parser leaves open: an empty payload may be placed anywhere. -/
theorem parsed_payload (parsed : parse bytes = .ok image) {segment : KernelSegment}
    (member : segment ∈ image.kernelSegments) (occupied : segment.fileSize ≠ 0) :
    segment.dataOffset.toNat + segment.fileSize.toNat ≤ bytes.length := by
  obtain ⟨_, fits, _⟩ := parse_eq_ok.mp parsed
  refine fits (spanAt segment.dataOffset.toNat segment.fileSize.toNat) ?_
  simp [SystemImage.spans, payload_mem member occupied]

theorem parsed_valid (parsed : parse bytes = .ok image) {segment : KernelSegment}
    (member : segment ∈ image.kernelSegments) : segment.Valid :=
  forall₂_right (parse_eq_ok.mp parsed).1.kernelSegments (fun _ _ stores => stores.valid)
    segment member

theorem exists_copies {segment : KernelSegment} (valid : segment.Valid) :
    (∃ copy, Copies bytes segment copy) ↔
      segment.dataOffset.toNat + segment.fileSize.toNat ≤ bytes.length := by
  constructor
  · rintro ⟨copy, copied⟩
    obtain ⟨_, fits, _⟩ := slice?_eq_some.mp copied.payload
    exact fits
  · intro fits
    have read := slice?_of_fits bytes
      (Nat.le_add_right segment.dataOffset.toNat segment.fileSize.toNat) fits
    refine ⟨⟨segment.physicalAddress, _, segment.memorySize - segment.fileSize⟩, rfl, read, ?_⟩
    have initialized := valid.initialized
    simp only
    bv_omega

/-- Planning an accepted image succeeds exactly when no empty payload is placed beyond the end
of the image. -/
theorem boot_plan_total_iff (bytes : List U8) (image : SystemImage)
    (parsed : parse bytes = .ok image) :
    (∃ plan, image.bootPlan = .ok plan ∧
        List.Forall₂ (Copies bytes) image.kernelSegments plan.copies) ↔
      ∀ segment ∈ image.kernelSegments, segment.fileSize = 0 →
        segment.dataOffset.toNat ≤ bytes.length := by
  have whole := (parse_eq_ok.mp parsed).1.whole
  have header := (parse_eq_ok.mp parsed).1.headerValid
  constructor
  · rintro ⟨plan, _, copies⟩ segment member empty
    obtain ⟨copy, _, copied⟩ := forall₂_left copies segment member
    have fits := (exists_copies (parsed_valid parsed member)).mp ⟨copy, copied⟩
    omega
  · intro placed
    have each : ∀ segment ∈ image.kernelSegments, ∃ copy, Copies bytes segment copy := by
      intro segment member
      refine (exists_copies (parsed_valid parsed member)).mpr ?_
      by_cases empty : segment.fileSize = 0
      · have bound := placed segment member empty
        rw [empty]
        exact bound
      · exact parsed_payload parsed member empty
    obtain ⟨copies, copied⟩ := exists_forall₂ each
    obtain ⟨bootInfo, encoded, _⟩ : ∃ bytes, BootInfo.encode ⟨MemRegion.systemRom.base,
        image.header.imageSize, image.header.moduleTableOffset, image.header.moduleCount⟩ =
          .ok bytes ∧ _ :=
      BootInfo.exists_encode rfl header.short
    refine ⟨⟨copies, bootInfo, _, _, _, _⟩, bootPlan_eq_ok.mpr ⟨?_, encoded, rfl, rfl, rfl, rfl⟩,
      copied⟩
    rw [whole]
    exact copied

/-- An image whose second segment has no payload, and names the given offset for it. -/
def clearedImage (dataOffset : U32) : List U8 :=
  [0x4d45_4d55, 0x0040_0001, 132, 64, 2, 132, 0, 0x4000_8000, 0xc000_8000, 0x4000_7000, 0, 0, 0,
    0, 0, 0, 128, 0x4000_8000, 0xc000_8000, 4, 4, 5, 0, 0,
    dataOffset, 0x4000_a000, 0x4000_a000, 0, 4, 6, 0, 0,
    0x0403_0201].flatMap fun word : U32 => toBytes 4 word.toNat

def clearedDecoded (dataOffset : U32) : SystemImage :=
  ⟨clearedImage dataOffset,
    ⟨132, 64, 2, 132, 0, ⟨0x4000_8000⟩, ⟨0xc000_8000⟩, ⟨0x4000_7000⟩⟩,
    [⟨128, ⟨0x4000_8000⟩, ⟨0xc000_8000⟩, 4, 4, 5⟩,
      ⟨dataOffset, ⟨0x4000_a000⟩, ⟨0x4000_a000⟩, 0, 4, 6⟩], []⟩

set_option maxRecDepth 10000 in
theorem boot_plan_total_iff_cleared :
    (∃ plan, (clearedDecoded 0).bootPlan = .ok plan ∧
        List.Forall₂ (Copies (clearedImage 0)) (clearedDecoded 0).kernelSegments plan.copies) ↔
      ∀ segment ∈ (clearedDecoded 0).kernelSegments, segment.fileSize = 0 →
        segment.dataOffset.toNat ≤ (clearedImage 0).length :=
  boot_plan_total_iff (clearedImage 0) (clearedDecoded 0) rfl

set_option maxRecDepth 10000 in
/-- The parser accepts an offset beyond the image, and planning then panics. -/
theorem empty_payload_offset_panics :
    parse (clearedImage 0xffff_ffff) = .ok (clearedDecoded 0xffff_ffff) ∧
      (clearedDecoded 0xffff_ffff).bootPlan = .error .sliceOutOfRange :=
  ⟨rfl, rfl⟩

end Minemu.Image
