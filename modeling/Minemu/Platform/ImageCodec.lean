import Minemu.Platform.Image

/-! What the decoders accept: the fields stored at fixed offsets, under the validity rules
of each record; and that decoding inverts encoding. -/

namespace Minemu.Platform

open Library

variable {bytes part : List U8}

/-- The `u32` stored at an offset. -/
def u32At (bytes : List U8) (offset : Nat) : U32 := BitVec.ofNat 32 (field bytes offset 4)

/-- The `u16` stored at an offset. -/
def u16At (bytes : List U8) (offset : Nat) : U16 := BitVec.ofNat 16 (field bytes offset 2)

instance (bytes : List U8) (offset length : Nat) : Decidable (Zeros bytes offset length) :=
  inferInstanceAs (Decidable (∀ index < length, bytes[offset + index]? = some 0))

/-! ### Reading and writing fields -/

/-- A reader succeeds exactly inside the string, on the bytes that are there. -/
theorem readBytes_eq_ok {value : α} (view : List U8 → α) :
    (readBytes bytes offset width).map view = .ok value ↔
      offset + width ≤ bytes.length ∧ value = view ((bytes.take (offset + width)).drop offset) := by
  unfold readBytes
  cases read : slice? bytes offset (offset + width) with
  | none =>
    have short := (slice?_eq_none (Nat.le_add_right offset width)).mp read
    simp only [Except.map, reduceCtorEq, false_iff, not_and]
    omega
  | some found =>
    obtain ⟨_, fits, rfl⟩ := slice?_eq_some.mp read
    simp [Except.map, fits, eq_comm]

@[simp] theorem readU32_eq_ok {value : U32} : readU32 bytes offset = .ok value ↔
    offset + 4 ≤ bytes.length ∧ value = u32At bytes offset := readBytes_eq_ok _

@[simp] theorem readU16_eq_ok {value : U16} : readU16 bytes offset = .ok value ↔
    offset + 2 ≤ bytes.length ∧ value = u16At bytes offset := readBytes_eq_ok _

@[simp] theorem reservedZero_eq_ok {empty : Bool} : reservedZero bytes offset length = .ok empty ↔
    offset + length ≤ bytes.length ∧ empty = decide (Zeros bytes offset length) := by
  rw [reservedZero, readBytes_eq_ok]
  refine and_congr_right fun fits => ?_
  have same : (((bytes.take (offset + length)).drop offset).all (· == 0)) =
      decide (Zeros bytes offset length) := by
    rw [Bool.eq_iff_iff, List.all_eq_true, decide_eq_true_iff]
    constructor
    · intro clear index inside
      have bound : offset + index < bytes.length := by omega
      have member : bytes[offset + index] ∈ (bytes.take (offset + length)).drop offset := by
        refine List.mem_iff_getElem?.mpr ⟨index, ?_⟩
        rw [List.getElem?_drop, List.getElem?_take, if_pos (by omega), List.getElem?_eq_getElem bound]
      rw [List.getElem?_eq_getElem bound, beq_iff_eq.mp (clear _ member)]
    · intro zeros byte member
      obtain ⟨index, found⟩ := List.mem_iff_getElem?.mp member
      rw [List.getElem?_drop, List.getElem?_take] at found
      split at found
      · rw [zeros index (by omega)] at found
        exact beq_iff_eq.mpr (Option.some.inj found).symm
      · cases found
  rw [same]

@[simp] theorem requireLength_eq_ok {expected : Nat} {done : Unit} :
    requireLength bytes expected = .ok done ↔ expected ≤ bytes.length := by
  rw [requireLength, require_eq_ok, not_lt]

theorem u32At_slice (read : slice? bytes start stop = some part) (fits : offset + 4 ≤ stop - start) :
    u32At part offset = u32At bytes (start + offset) := by
  rw [u32At, field_slice read fits]
  rfl

@[simp] theorem validateTable_eq_ok {offset count imageSize : U32} {recordSize : Nat} {done : Unit} :
    validateTable offset count recordSize imageSize = .ok done ↔
      offset.toNat + count.toNat * recordSize ≤ imageSize.toNat := by
  rw [validateTable, require_eq_ok, not_lt]

theorem flags_legal (flags : U32) : flags &&& ~~~segmentFlagsMask = 0 ↔ flags.toNat < 8 := by
  have mask : ~~~segmentFlagsMask = BitVec.allOnes 32 <<< 3 := by decide
  have high := toNat_and_high flags 3
  rw [mask, ← BitVec.toNat_inj, high]
  change flags.toNat / 2 ^ 3 * 2 ^ 3 = 0 ↔ _
  omega

/-! ### Fields of an encoded record -/

@[simp] theorem length_writeU16 (bytes : List U8) (offset : Nat) (value : U16) :
    (writeU16 bytes offset value).length = bytes.length := length_patch _ _ _

@[simp] theorem length_writeU32 (bytes : List U8) (offset : Nat) (value : U32) :
    (writeU32 bytes offset value).length = bytes.length := length_patch _ _ _

theorem u32At_writeU32_same {value : U32} (fits : offset + 4 ≤ bytes.length) :
    u32At (writeU32 bytes offset value) offset = value := by
  have inside : offset + (toBytes 4 value.toNat).length ≤ bytes.length := by simpa using fits
  have read := field_patch_same inside
  rw [length_toBytes, littleEndian_toBytes _ _ (by simpa using value.isLt)] at read
  rw [u32At, writeU32, read, BitVec.ofNat_toNat, BitVec.setWidth_eq]

theorem u16At_writeU16_same {value : U16} (fits : offset + 2 ≤ bytes.length) :
    u16At (writeU16 bytes offset value) offset = value := by
  have inside : offset + (toBytes 2 value.toNat).length ≤ bytes.length := by simpa using fits
  have read := field_patch_same inside
  rw [length_toBytes, littleEndian_toBytes _ _ (by simpa using value.isLt)] at read
  rw [u16At, writeU16, read, BitVec.ofNat_toNat, BitVec.setWidth_eq]

section Apart

variable {word : U32} {half : U16} {start : Nat}

theorem u32At_writeU32_apart (fits : offset + 4 ≤ bytes.length)
    (apart : start + 4 ≤ offset ∨ offset + 4 ≤ start) :
    u32At (writeU32 bytes offset word) start = u32At bytes start := by
  rw [u32At, writeU32, field_patch_apart (by simpa using fits) (by simpa using apart)]
  rfl

theorem u32At_writeU16_apart (fits : offset + 2 ≤ bytes.length)
    (apart : start + 4 ≤ offset ∨ offset + 2 ≤ start) :
    u32At (writeU16 bytes offset half) start = u32At bytes start := by
  rw [u32At, writeU16, field_patch_apart (by simpa using fits) (by simpa using apart)]
  rfl

theorem u16At_writeU32_apart (fits : offset + 4 ≤ bytes.length)
    (apart : start + 2 ≤ offset ∨ offset + 4 ≤ start) :
    u16At (writeU32 bytes offset word) start = u16At bytes start := by
  rw [u16At, writeU32, field_patch_apart (by simpa using fits) (by simpa using apart)]
  rfl

theorem u16At_writeU16_apart (fits : offset + 2 ≤ bytes.length)
    (apart : start + 2 ≤ offset ∨ offset + 2 ≤ start) :
    u16At (writeU16 bytes offset half) start = u16At bytes start := by
  rw [u16At, writeU16, field_patch_apart (by simpa using fits) (by simpa using apart)]
  rfl

theorem zeros_writeU32_apart (fits : offset + 4 ≤ bytes.length)
    (apart : start + length ≤ offset ∨ offset + 4 ≤ start) :
    Zeros (writeU32 bytes offset word) start length ↔ Zeros bytes start length :=
  zeros_patch_apart (by simpa using fits) (by simpa using apart)

theorem zeros_writeU16_apart (fits : offset + 2 ≤ bytes.length)
    (apart : start + length ≤ offset ∨ offset + 2 ≤ start) :
    Zeros (writeU16 bytes offset half) start length ↔ Zeros bytes start length :=
  zeros_patch_apart (by simpa using fits) (by simpa using apart)

end Apart

theorem u32At_replicate (fits : offset + 4 ≤ size) :
    u32At (List.replicate size (0 : U8)) offset = 0 := by
  have zeros : ((List.replicate size (0 : U8)).take (offset + 4)).drop offset = [0, 0, 0, 0] := by
    rw [List.take_replicate, List.drop_replicate, show min (offset + 4) size - offset = 4 by omega]
    rfl
  rw [u32At, field, zeros]
  rfl

/-! ### Kernel segments -/

namespace KernelSegment

/-- The record stored at an offset. -/
def stored (bytes : List U8) (offset : Nat) : KernelSegment where
  dataOffset := u32At bytes offset
  physicalAddress := ⟨u32At bytes (offset + 4)⟩
  virtualAddress := ⟨u32At bytes (offset + 8)⟩
  fileSize := u32At bytes (offset + 12)
  memorySize := u32At bytes (offset + 16)
  flags := u32At bytes (offset + 20)

/-- The validity rules of a kernel segment on its own. -/
structure Valid (segment : KernelSegment) : Prop where
  nonempty : 0 < segment.memorySize.toNat
  initialized : segment.fileSize.toNat ≤ segment.memorySize.toNat
  flags : segment.flags.toNat < 8
  above : 0x4000_0000 ≤ segment.physicalAddress.get.toNat
  below : segment.physicalAddress.get.toNat + segment.memorySize.toNat ≤ 0x4400_0000
  mapping : segment.virtualAddress.get.toNat = segment.physicalAddress.get.toNat ∨
    segment.virtualAddress.get.toNat = segment.physicalAddress.get.toNat + 0x8000_0000

theorem highHalfMatches_iff {segment : KernelSegment} : segment.highHalfMatches = true ↔
    (0xc000_0000 ≤ segment.virtualAddress.get.toNat ∧
      segment.virtualAddress.get.toNat < 0xc400_0000) ∧
      segment.virtualAddress.get.toNat = segment.physicalAddress.get.toNat + 0x8000_0000 := by
  rw [← directMapPhysical_eq_ok, highHalfMatches]
  cases directMapPhysical segment.virtualAddress <;> simp

/-- A load range in RAM is one that can be built and that RAM contains. -/
theorem loads_iff {segment : KernelSegment} :
    (∃ range, PhysicalRange.new segment.physicalAddress segment.memorySize = .ok range ∧
        MemRegion.ram.range.containsRange range = true) ↔
      0 < segment.memorySize.toNat ∧ 0x4000_0000 ≤ segment.physicalAddress.get.toNat ∧
        segment.physicalAddress.get.toNat + segment.memorySize.toNat ≤ 0x4400_0000 := by
  constructor
  · rintro ⟨range, built, contained⟩
    obtain ⟨nonempty, _⟩ := PhysicalRange.exists_new.mp ⟨range, built⟩
    obtain ⟨start, length⟩ := PhysicalRange.new_eq_ok.mp built
    obtain ⟨above, below⟩ := MemRegion.ram_containsRange.mp contained
    rw [PhysicalRange.endExclusive, start, length] at below
    exact ⟨nonempty, start ▸ above, below⟩
  · rintro ⟨nonempty, above, below⟩
    obtain ⟨range, built⟩ := PhysicalRange.exists_new.mpr ⟨nonempty,
      show segment.physicalAddress.get.toNat + segment.memorySize.toNat ≤ 2 ^ 32 by omega⟩
    obtain ⟨start, length⟩ := PhysicalRange.new_eq_ok.mp built
    refine ⟨range, built, MemRegion.ram_containsRange.mpr ⟨start ▸ above, ?_⟩⟩
    rw [PhysicalRange.endExclusive, start, length]
    exact below

theorem validate_eq_ok {segment : KernelSegment} {done : Unit} :
    segment.validate = .ok done ↔ segment.Valid := by
  simp only [validate, bind_eq_ok, require_eq_ok, flags_legal, exists_const]
  have sizes : ¬(segment.memorySize = 0 ∨ segment.fileSize.toNat > segment.memorySize.toNat) ↔
      0 < segment.memorySize.toNat ∧ segment.fileSize.toNat ≤ segment.memorySize.toNat := by
    rw [← BitVec.toNat_inj]
    change ¬(segment.memorySize.toNat = 0 ∨ _) ↔ _
    omega
  have aliases : ¬(segment.virtualAddress.get ≠ segment.physicalAddress.get ∧
        segment.highHalfMatches = false) ↔
      segment.virtualAddress.get.toNat = segment.physicalAddress.get.toNat ∨
        segment.highHalfMatches = true := by
    rw [← BitVec.toNat_inj.ne, not_and_or, not_ne_iff, Bool.not_eq_false]
  rw [sizes, aliases, highHalfMatches_iff]
  constructor
  · rintro ⟨⟨nonempty, initialized⟩, flags, range, built, contained, mapping⟩
    obtain ⟨_, above, below⟩ := loads_iff.mp ⟨range, built, contained⟩
    exact ⟨nonempty, initialized, flags, above, below, mapping.imp id And.right⟩
  · rintro ⟨nonempty, initialized, flags, above, below, mapping⟩
    obtain ⟨range, built, contained⟩ := loads_iff.mpr ⟨nonempty, above, below⟩
    refine ⟨⟨nonempty, initialized⟩, flags, range, built, contained, mapping.imp id fun same => ?_⟩
    exact ⟨by omega, same⟩

theorem decode_eq_ok {segment : KernelSegment} : decode bytes = .ok segment ↔
    32 ≤ bytes.length ∧ Zeros bytes 24 8 ∧ segment = stored bytes 0 ∧ segment.Valid := by
  simp only [decode, bind_eq_ok, requireLength_eq_ok, reservedZero_eq_ok, readU32_eq_ok,
    require_eq_ok, kernelSegmentSize, and_assoc, exists_and_left, exists_eq_left, exists_const,
    decide_eq_true_iff, validate_eq_ok, pure, Except.pure, Except.ok.injEq]
  constructor
  · rintro ⟨long, _, zeros, _, _, _, _, _, _, valid, rfl⟩
    exact ⟨long, zeros, rfl, valid⟩
  · rintro ⟨long, zeros, rfl, valid⟩
    exact ⟨long, by omega, zeros, by omega, by omega, by omega, by omega, by omega, by omega,
      valid, rfl⟩

/-- A valid segment encodes to a record of its fields. -/
theorem encode_stored {segment : KernelSegment} (valid : segment.Valid) :
    ∃ bytes, segment.encode = .ok bytes ∧ bytes.length = 32 ∧ Zeros bytes 24 8 ∧
      stored bytes 0 = segment := by
  have legal : segment.validate = .ok () := validate_eq_ok.mpr valid
  refine ⟨_, by rw [encode, legal]; rfl, by simp [kernelSegmentSize], ?_, ?_⟩
  · simp (disch := simp [kernelSegmentSize]) only [zeros_writeU32_apart]
    exact zeros_replicate (by decide)
  · simp (disch := simp [kernelSegmentSize]) only [stored, zero_add, u32At_writeU32_same,
      u32At_writeU32_apart]

/-- A record decoded out of the whole image. -/
theorem decode_slice {segment : KernelSegment} {start : Nat}
    (read : slice? bytes start (start + 32) = some part) : decode part = .ok segment ↔
      Zeros bytes (start + 24) 8 ∧ segment = stored bytes start ∧ segment.Valid := by
  have long : 32 ≤ part.length := by
    rw [length_of_slice? read]
    omega
  have same : stored part 0 = stored bytes start := by
    simp (disch := omega) only [stored, zero_add, u32At_slice read, add_zero]
  rw [decode_eq_ok, zeros_slice read (by omega), same]
  exact and_iff_right long

end KernelSegment

/-! ### Modules -/

namespace ModuleRecord

/-- The record stored at an offset. -/
def stored (bytes : List U8) (offset : Nat) : ModuleRecord where
  nameOffset := u32At bytes offset
  nameLength := u32At bytes (offset + 4)
  segmentTableOffset := u32At bytes (offset + 8)
  segmentCount := u32At bytes (offset + 12)
  entryVirtualAddress := ⟨u32At bytes (offset + 16)⟩

theorem decode_eq_ok {record : ModuleRecord} : decode bytes = .ok record ↔
    32 ≤ bytes.length ∧ u32At bytes 20 = 0 ∧ Zeros bytes 24 8 ∧ record = stored bytes 0 := by
  simp only [decode, bind_eq_ok, requireLength_eq_ok, reservedZero_eq_ok, readU32_eq_ok,
    require_eq_ok, moduleRecordSize, and_assoc, exists_and_left, exists_eq_left, exists_const,
    decide_eq_true_iff, pure, Except.pure, Except.ok.injEq]
  constructor
  · rintro ⟨long, _, _, flags, zeros, _, _, _, _, _, rfl⟩
    exact ⟨long, flags, zeros, rfl⟩
  · rintro ⟨long, flags, zeros, rfl⟩
    exact ⟨long, by omega, by omega, flags, zeros, by omega, by omega, by omega, by omega,
      by omega, rfl⟩

/-- A module encodes to a record of its fields. -/
theorem encode_stored (record : ModuleRecord) :
    record.encode.length = 32 ∧ u32At record.encode 20 = 0 ∧ Zeros record.encode 24 8 ∧
      stored record.encode 0 = record := by
  unfold encode
  refine ⟨by simp [moduleRecordSize], ?_, ?_, ?_⟩
  · simp (disch := simp [moduleRecordSize]) only [u32At_writeU32_apart]
    exact u32At_replicate (by decide)
  · simp (disch := simp [moduleRecordSize]) only [zeros_writeU32_apart]
    exact zeros_replicate (by decide)
  · simp (disch := simp [moduleRecordSize]) only [stored, zero_add, u32At_writeU32_same,
      u32At_writeU32_apart]

/-- A record decoded out of the whole image. -/
theorem decode_slice {record : ModuleRecord} {start : Nat}
    (read : slice? bytes start (start + 32) = some part) : decode part = .ok record ↔
      u32At bytes (start + 20) = 0 ∧ Zeros bytes (start + 24) 8 ∧ record = stored bytes start := by
  have long : 32 ≤ part.length := by
    rw [length_of_slice? read]
    omega
  have same : stored part 0 = stored bytes start := by
    simp (disch := omega) only [stored, zero_add, u32At_slice read, add_zero]
  rw [decode_eq_ok, zeros_slice read (by omega), u32At_slice read (by omega), same]
  exact and_iff_right long

end ModuleRecord

namespace ModuleSegment

/-- The record stored at an offset. -/
def stored (bytes : List U8) (offset : Nat) : ModuleSegment where
  dataOffset := u32At bytes offset
  virtualAddress := ⟨u32At bytes (offset + 4)⟩
  fileSize := u32At bytes (offset + 8)
  memorySize := u32At bytes (offset + 12)
  flags := u32At bytes (offset + 16)

/-- The validity rules of a module segment on its own. -/
structure Valid (segment : ModuleSegment) : Prop where
  nonempty : 0 < segment.memorySize.toNat
  initialized : segment.fileSize.toNat ≤ segment.memorySize.toNat
  flags : segment.flags.toNat < 8

theorem validate_eq_ok {segment : ModuleSegment} {done : Unit} :
    segment.validate = .ok done ↔ segment.Valid := by
  rw [validate, require_eq_ok, Ne, flags_legal, ← BitVec.toNat_inj]
  change ¬(segment.memorySize.toNat = 0 ∨ _) ↔ _
  constructor
  · intro legal
    exact ⟨by omega, by omega, by omega⟩
  · rintro ⟨nonempty, initialized, flags⟩
    omega

theorem decode_eq_ok {segment : ModuleSegment} : decode bytes = .ok segment ↔
    32 ≤ bytes.length ∧ Zeros bytes 20 12 ∧ segment = stored bytes 0 ∧ segment.Valid := by
  simp only [decode, bind_eq_ok, requireLength_eq_ok, reservedZero_eq_ok, readU32_eq_ok,
    require_eq_ok, moduleSegmentSize, and_assoc, exists_and_left, exists_eq_left, exists_const,
    decide_eq_true_iff, validate_eq_ok, pure, Except.pure, Except.ok.injEq]
  constructor
  · rintro ⟨long, _, zeros, _, _, _, _, _, valid, rfl⟩
    exact ⟨long, zeros, rfl, valid⟩
  · rintro ⟨long, zeros, rfl, valid⟩
    exact ⟨long, by omega, zeros, by omega, by omega, by omega, by omega, by omega, valid, rfl⟩

/-- A valid segment encodes to a record of its fields. -/
theorem encode_stored {segment : ModuleSegment} (valid : segment.Valid) :
    ∃ bytes, segment.encode = .ok bytes ∧ bytes.length = 32 ∧ Zeros bytes 20 12 ∧
      stored bytes 0 = segment := by
  have legal : segment.validate = .ok () := validate_eq_ok.mpr valid
  refine ⟨_, by rw [encode, legal]; rfl, by simp [moduleSegmentSize], ?_, ?_⟩
  · simp (disch := simp [moduleSegmentSize]) only [zeros_writeU32_apart]
    exact zeros_replicate (by decide)
  · simp (disch := simp [moduleSegmentSize]) only [stored, zero_add, u32At_writeU32_same,
      u32At_writeU32_apart]

/-- A record decoded out of the whole image. -/
theorem decode_slice {segment : ModuleSegment} {start : Nat}
    (read : slice? bytes start (start + 32) = some part) : decode part = .ok segment ↔
      Zeros bytes (start + 20) 12 ∧ segment = stored bytes start ∧ segment.Valid := by
  have long : 32 ≤ part.length := by
    rw [length_of_slice? read]
    omega
  have same : stored part 0 = stored bytes start := by
    simp (disch := omega) only [stored, zero_add, u32At_slice read, add_zero]
  rw [decode_eq_ok, zeros_slice read (by omega), same]
  exact and_iff_right long

end ModuleSegment

/-! ### The header -/

namespace ImageHeader

/-- The header stored at the start of an image. -/
def stored (bytes : List U8) : ImageHeader where
  imageSize := u32At bytes 8
  kernelSegmentTableOffset := u32At bytes 12
  kernelSegmentCount := u32At bytes 16
  moduleTableOffset := u32At bytes 20
  moduleCount := u32At bytes 24
  bootstrapEntryPaddr := ⟨u32At bytes 28⟩
  kernelEntryVaddr := ⟨u32At bytes 32⟩
  bootInfoPaddr := ⟨u32At bytes 36⟩

/-- The fixed values around the fields of a header. -/
structure Framed (bytes : List U8) : Prop where
  magic : u32At bytes 0 = imageMagic
  version : u16At bytes 4 = abiVersion
  headerSize : u16At bytes 6 = 64
  flags : u32At bytes 40 = 0
  reserved : Zeros bytes 44 20

/-- The validity rules of a header on its own. -/
structure Valid (header : ImageHeader) : Prop where
  long : 64 ≤ header.imageSize.toNat
  short : header.imageSize.toNat ≤ 0x100_0000
  bootstrapEntry : header.bootstrapEntryPaddr.get = 0x4000_8000
  bootInfo : header.bootInfoPaddr.get = 0x4000_7000
  kernelEntry : 0xc000_0000 ≤ header.kernelEntryVaddr.get.toNat ∧
    header.kernelEntryVaddr.get.toNat < 0xc400_0000
  kernelTable : header.kernelSegmentTableOffset.toNat + header.kernelSegmentCount.toNat * 32 ≤
    header.imageSize.toNat
  moduleTable : header.moduleTableOffset.toNat + header.moduleCount.toNat * 32 ≤
    header.imageSize.toNat

theorem validate_eq_ok {header : ImageHeader} {done : Unit} :
    header.validate = .ok done ↔ header.Valid := by
  have mapped : (∃ physical, directMapPhysical header.kernelEntryVaddr = .ok physical) ↔
      0xc000_0000 ≤ header.kernelEntryVaddr.get.toNat ∧
        header.kernelEntryVaddr.get.toNat < 0xc400_0000 := by
    unfold directMapPhysical
    split <;> simp [*]
  simp only [validate, bind_eq_ok, require_eq_ok, validateTable_eq_ok, exists_const,
    exists_and_right, mapped]
  change ¬(header.imageSize.toNat < 64 ∨ header.imageSize.toNat > 0x100_0000) ∧ _ ↔ _
  constructor
  · rintro ⟨size, entry, info, mapped, kernelTable, moduleTable⟩
    exact ⟨by omega, by omega, entry, info, mapped, kernelTable, moduleTable⟩
  · rintro ⟨long, short, entry, info, mapped, kernelTable, moduleTable⟩
    exact ⟨by omega, entry, info, mapped, kernelTable, moduleTable⟩

theorem decode_eq_ok {header : ImageHeader} : decode bytes = .ok header ↔
    64 ≤ bytes.length ∧ Framed bytes ∧ header = stored bytes ∧ header.Valid := by
  simp only [decode, bind_eq_ok, requireLength_eq_ok, reservedZero_eq_ok, readU32_eq_ok,
    readU16_eq_ok, require_eq_ok, and_assoc, exists_and_left, exists_eq_left,
    exists_const, decide_eq_true_iff, validate_eq_ok, pure, Except.pure, Except.ok.injEq]
  constructor
  · rintro ⟨long, _, magic, _, version, _, size, _, _, flags, zeros, _, _, _, _, _, _, _, _, valid,
      rfl⟩
    exact ⟨long, ⟨magic, version, size, flags, zeros⟩, rfl, valid⟩
  · rintro ⟨long, ⟨magic, version, size, flags, zeros⟩, rfl, valid⟩
    exact ⟨long, by omega, magic, by omega, version, by omega, size, by omega, by omega, flags,
      zeros, by omega, by omega, by omega, by omega, by omega, by omega, by omega, by omega, valid,
      rfl⟩

/-- A valid header encodes to its fields between the fixed values. -/
theorem encode_stored {header : ImageHeader} (valid : header.Valid) :
    ∃ bytes, header.encode = .ok bytes ∧ bytes.length = 64 ∧ Framed bytes ∧
      stored bytes = header := by
  have legal : header.validate = .ok () := validate_eq_ok.mpr valid
  refine ⟨_, by rw [encode, legal]; rfl, by simp [imageHeaderSize], ⟨?_, ?_, ?_, ?_, ?_⟩, ?_⟩
  · simp (disch := simp [imageHeaderSize]) only [u32At_writeU32_same, u32At_writeU32_apart,
      u32At_writeU16_apart]
  · simp (disch := simp [imageHeaderSize]) only [u16At_writeU32_apart, u16At_writeU16_apart,
      u16At_writeU16_same]
  · simp (disch := simp [imageHeaderSize]) only [u16At_writeU32_apart, u16At_writeU16_same]
    rfl
  · simp (disch := simp [imageHeaderSize]) only [u32At_writeU32_apart, u32At_writeU16_apart]
    exact u32At_replicate (by decide)
  · simp (disch := simp [imageHeaderSize]) only [zeros_writeU32_apart, zeros_writeU16_apart]
    exact zeros_replicate (by decide)
  · simp (disch := simp [imageHeaderSize]) only [stored, u32At_writeU32_same, u32At_writeU32_apart]

/-- The fixed values of a header at the start of the image. -/
theorem Framed.of_slice (read : slice? bytes 0 64 = some part) (framed : Framed part) :
    Framed bytes := by
  have word {offset : Nat} (fits : offset + 4 ≤ 64) : u32At bytes offset = u32At part offset := by
    rw [u32At_slice read fits, zero_add]
  have half {offset : Nat} (fits : offset + 2 ≤ 64) : u16At bytes offset = u16At part offset := by
    rw [u16At, u16At, field_slice read fits, zero_add]
  obtain ⟨magic, version, size, flags, reserved⟩ := framed
  refine ⟨(word (by decide)).trans magic, (half (by decide)).trans version,
    (half (by decide)).trans size, (word (by decide)).trans flags, ?_⟩
  exact (zeros_slice read (by decide)).mp reserved

theorem stored_slice (read : slice? bytes 0 64 = some part) : stored part = stored bytes := by
  simp (disch := decide) only [stored, u32At_slice read, zero_add]

end ImageHeader

/-! ### Boot info -/

namespace BootInfo

/-- The record stored at the start of a string. -/
def stored (bytes : List U8) : BootInfo where
  systemRomBase := ⟨u32At bytes 8⟩
  imageSize := u32At bytes 12
  moduleTableOffset := u32At bytes 16
  moduleCount := u32At bytes 20

/-- The fixed values around the fields of a record. -/
structure Framed (bytes : List U8) : Prop where
  magic : u32At bytes 0 = bootInfoMagic
  version : u16At bytes 4 = abiVersion
  size : u16At bytes 6 = 64
  flags : u32At bytes 36 = 0
  reserved : Zeros bytes 40 24
  directMap : u32At bytes 24 = 0xc000_0000
  ramBase : u32At bytes 28 = 0x4000_0000
  ramSize : u32At bytes 32 = 0x400_0000

theorem decode_eq_ok {info : BootInfo} : decode bytes = .ok info ↔
    64 ≤ bytes.length ∧ Framed bytes ∧ info = stored bytes ∧
      info.systemRomBase = MemRegion.systemRom.base := by
  simp only [decode, bind_eq_ok, requireLength_eq_ok, reservedZero_eq_ok, readU32_eq_ok,
    readU16_eq_ok, require_eq_ok, and_assoc, exists_and_left, exists_eq_left, exists_const,
    decide_eq_true_iff, pure, Except.pure, Except.ok.injEq]
  constructor
  · rintro ⟨long, _, _, _, _, _, magic, version, size, flags, zeros, _, _, _, _, _, _, _, base,
      directMap, ramBase, ramSize, rfl⟩
    exact ⟨long, ⟨magic, version, size, flags, zeros, directMap, ramBase, ramSize⟩, rfl, base⟩
  · rintro ⟨long, ⟨magic, version, size, flags, zeros, directMap, ramBase, ramSize⟩, rfl, base⟩
    exact ⟨long, by omega, by omega, by omega, by omega, by omega, magic, version, size, flags,
      zeros, by omega, by omega, by omega, by omega, by omega, by omega, by omega, base, directMap,
      ramBase, ramSize, rfl⟩

/-- The record of an image that fits the ROM encodes. -/
theorem exists_encode {info : BootInfo} (base : info.systemRomBase = MemRegion.systemRom.base)
    (size : info.imageSize.toNat ≤ 0x100_0000) :
    ∃ bytes, info.encode = .ok bytes ∧ bytes.length = 64 ∧ decode bytes = .ok info := by
  have legal : ¬ (info.systemRomBase ≠ MemRegion.systemRom.base ∨
      info.imageSize.toNat > MemRegion.systemRom.size.toNat) := by
    change ¬ (info.systemRomBase ≠ MemRegion.systemRom.base ∨ info.imageSize.toNat > 0x100_0000)
    simp [base, size]
  refine ⟨_, by rw [encode, require, if_pos legal]; rfl, by simp [bootInfoSize], ?_⟩
  refine decode_eq_ok.mpr ⟨by simp [bootInfoSize], ⟨?_, ?_, ?_, ?_, ?_, ?_, ?_, ?_⟩, ?_, base⟩
  · simp (disch := simp [bootInfoSize]) only [u32At_writeU32_same, u32At_writeU32_apart,
      u32At_writeU16_apart]
  · simp (disch := simp [bootInfoSize]) only [u16At_writeU32_apart, u16At_writeU16_apart,
      u16At_writeU16_same]
  · simp (disch := simp [bootInfoSize]) only [u16At_writeU32_apart, u16At_writeU16_same]
    rfl
  · simp (disch := simp [bootInfoSize]) only [u32At_writeU32_apart, u32At_writeU16_apart]
    exact u32At_replicate (by decide)
  · simp (disch := simp [bootInfoSize]) only [zeros_writeU32_apart, zeros_writeU16_apart]
    exact zeros_replicate (by decide)
  · simp (disch := simp [bootInfoSize]) only [u32At_writeU32_same, u32At_writeU32_apart]
  · simp (disch := simp [bootInfoSize]) only [u32At_writeU32_same, u32At_writeU32_apart]
    rfl
  · simp (disch := simp [bootInfoSize]) only [u32At_writeU32_same]
    rfl
  · simp (disch := simp [bootInfoSize]) only [stored, u32At_writeU32_same, u32At_writeU32_apart]

/-- Decoding inverts encoding. -/
theorem encode_inv {info : BootInfo} (encoded : info.encode = .ok bytes) :
    bytes.length = 64 ∧ decode bytes = .ok info := by
  obtain ⟨_, legal, _⟩ := bind_ok encoded
  rw [require_eq_ok, not_or, not_not, not_lt] at legal
  obtain ⟨bytes', encoded', length, decoded⟩ := exists_encode legal.1 legal.2
  cases encoded.symm.trans encoded'
  exact ⟨length, decoded⟩

end BootInfo

end Minemu.Platform
