import Minemu.Platform.ImageCodec

/-! The five wire records: a decoder inverts its encoder, and up to one field of the boot info
an encoder gives back the bytes its decoder accepted. -/

namespace Minemu.Platform

open Library

variable {bytes other : List U8}

/-! ### Fields of two strings -/

theorem field_of_u32At (same : u32At bytes offset = u32At other offset) :
    field bytes offset 4 = field other offset 4 := by
  have bound : field bytes offset 4 < 2 ^ 32 := field_lt bytes offset 4
  have bound' : field other offset 4 < 2 ^ 32 := field_lt other offset 4
  have numbers := congrArg BitVec.toNat same
  rwa [u32At, u32At, BitVec.toNat_ofNat, BitVec.toNat_ofNat, Nat.mod_eq_of_lt bound,
    Nat.mod_eq_of_lt bound'] at numbers

theorem field_of_u16At (same : u16At bytes offset = u16At other offset) :
    field bytes offset 2 = field other offset 2 := by
  have bound : field bytes offset 2 < 2 ^ 16 := field_lt bytes offset 2
  have bound' : field other offset 2 < 2 ^ 16 := field_lt other offset 2
  have numbers := congrArg BitVec.toNat same
  rwa [u16At, u16At, BitVec.toNat_ofNat, BitVec.toNat_ofNat, Nat.mod_eq_of_lt bound,
    Nat.mod_eq_of_lt bound'] at numbers

theorem field_of_reserved (zeros : Zeros bytes offset length) (zeros' : Zeros other offset length) :
    field bytes offset length = field other offset length :=
  (field_of_zeros zeros).trans (field_of_zeros zeros').symm

/-- A record as long as its fields is the front of any string with the same fields. -/
theorem eq_take_of_fields {size : Nat} (widths : List Nat) (same : SameFields bytes other 0 widths)
    (all : widths.sum = size) (long : bytes.length = size) (fits : size ≤ other.length) :
    bytes = other.take size := by
  have fronts := same.take_eq rfl (by omega) (by omega)
  rw [Nat.zero_add, all] at fronts
  rw [← fronts, List.take_of_length_le long.le]

/-! ### Codecs -/

/-- The two directions of a record format. -/
structure WireCodec (Record : Type) where
  size : Nat
  decode : List U8 → Except PlatformError Record
  encode : Record → Except PlatformError (List U8)

namespace WireCodec

variable {Record : Type} (codec : WireCodec Record)

/-- What is encoded decodes to the same record. -/
def Inverts : Prop :=
  ∀ record bytes, codec.encode record = .ok bytes → codec.decode bytes = .ok record

/-- What is decoded encodes to the front of the string it was decoded from. -/
def Reencodes (bytes : List U8) : Prop :=
  ∀ record, codec.decode bytes = .ok record → codec.encode record = .ok (bytes.take codec.size)

end WireCodec

namespace ImageHeader

def codec : WireCodec ImageHeader := ⟨imageHeaderSize, decode, encode⟩

theorem codec_inverts : codec.Inverts := by
  intro record bytes encoded
  obtain ⟨_, legal, _⟩ := bind_ok encoded
  have valid := validate_eq_ok.mp legal
  obtain ⟨written, encoded', long, framed, fields⟩ := encode_stored valid
  cases encoded.symm.trans encoded'
  exact decode_eq_ok.mpr ⟨long.ge, framed, fields.symm, valid⟩

theorem codec_reencodes (bytes : List U8) : codec.Reencodes bytes := by
  intro record decoded
  obtain ⟨fits, framed, rfl, valid⟩ := decode_eq_ok.mp decoded
  obtain ⟨written, encoded, long, framed', fields⟩ := encode_stored valid
  simp only [stored, ImageHeader.mk.injEq, PhysicalAddress.mk.injEq, VirtualAddress.mk.injEq]
    at fields
  obtain ⟨size, kernelTable, kernelCount, moduleTable, moduleCount, bootstrap, entry, info⟩ := fields
  refine encoded.trans (congrArg Except.ok (eq_take_of_fields
    [4, 2, 2, 4, 4, 4, 4, 4, 4, 4, 4, 4, 20] ?_ rfl long fits))
  exact ⟨field_of_u32At (framed'.magic.trans framed.magic.symm),
    field_of_u16At (framed'.version.trans framed.version.symm),
    field_of_u16At (framed'.headerSize.trans framed.headerSize.symm), field_of_u32At size,
    field_of_u32At kernelTable, field_of_u32At kernelCount, field_of_u32At moduleTable,
    field_of_u32At moduleCount, field_of_u32At bootstrap, field_of_u32At entry,
    field_of_u32At info, field_of_u32At (framed'.flags.trans framed.flags.symm),
    field_of_reserved framed'.reserved framed.reserved, trivial⟩

end ImageHeader

namespace KernelSegment

def codec : WireCodec KernelSegment := ⟨kernelSegmentSize, decode, encode⟩

theorem codec_inverts : codec.Inverts := by
  intro record bytes encoded
  obtain ⟨_, legal, _⟩ := bind_ok encoded
  have valid := validate_eq_ok.mp legal
  obtain ⟨written, encoded', long, reserved, fields⟩ := encode_stored valid
  cases encoded.symm.trans encoded'
  exact decode_eq_ok.mpr ⟨long.ge, reserved, fields.symm, valid⟩

theorem codec_reencodes (bytes : List U8) : codec.Reencodes bytes := by
  intro record decoded
  obtain ⟨fits, reserved, rfl, valid⟩ := decode_eq_ok.mp decoded
  obtain ⟨written, encoded, long, reserved', fields⟩ := encode_stored valid
  simp only [stored, zero_add, KernelSegment.mk.injEq, PhysicalAddress.mk.injEq,
    VirtualAddress.mk.injEq] at fields
  obtain ⟨dataOffset, physical, virtual, fileSize, memorySize, flags⟩ := fields
  refine encoded.trans (congrArg Except.ok (eq_take_of_fields
    [4, 4, 4, 4, 4, 4, 8] ?_ rfl long fits))
  exact ⟨field_of_u32At dataOffset, field_of_u32At physical, field_of_u32At virtual,
    field_of_u32At fileSize, field_of_u32At memorySize, field_of_u32At flags,
    field_of_reserved reserved' reserved, trivial⟩

end KernelSegment

namespace ModuleRecord

def codec : WireCodec ModuleRecord := ⟨moduleRecordSize, decode, fun record => .ok record.encode⟩

theorem codec_inverts : codec.Inverts := by
  intro record bytes encoded
  obtain rfl : record.encode = bytes := Except.ok.inj encoded
  obtain ⟨long, flags, reserved, fields⟩ := encode_stored record
  exact decode_eq_ok.mpr ⟨long.ge, flags, reserved, fields.symm⟩

theorem codec_reencodes (bytes : List U8) : codec.Reencodes bytes := by
  intro record decoded
  obtain ⟨fits, flags, reserved, rfl⟩ := decode_eq_ok.mp decoded
  obtain ⟨long, flags', reserved', fields⟩ := encode_stored (stored bytes 0)
  simp only [stored, zero_add, ModuleRecord.mk.injEq, VirtualAddress.mk.injEq] at fields
  obtain ⟨nameOffset, nameLength, segmentTable, segmentCount, entry⟩ := fields
  refine congrArg Except.ok (eq_take_of_fields [4, 4, 4, 4, 4, 4, 8] ?_ rfl long fits)
  exact ⟨field_of_u32At nameOffset, field_of_u32At nameLength, field_of_u32At segmentTable,
    field_of_u32At segmentCount, field_of_u32At entry, field_of_u32At (flags'.trans flags.symm),
    field_of_reserved reserved' reserved, trivial⟩

end ModuleRecord

namespace ModuleSegment

def codec : WireCodec ModuleSegment := ⟨moduleSegmentSize, decode, encode⟩

theorem codec_inverts : codec.Inverts := by
  intro record bytes encoded
  obtain ⟨_, legal, _⟩ := bind_ok encoded
  have valid := validate_eq_ok.mp legal
  obtain ⟨written, encoded', long, reserved, fields⟩ := encode_stored valid
  cases encoded.symm.trans encoded'
  exact decode_eq_ok.mpr ⟨long.ge, reserved, fields.symm, valid⟩

theorem codec_reencodes (bytes : List U8) : codec.Reencodes bytes := by
  intro record decoded
  obtain ⟨fits, reserved, rfl, valid⟩ := decode_eq_ok.mp decoded
  obtain ⟨written, encoded, long, reserved', fields⟩ := encode_stored valid
  simp only [stored, zero_add, ModuleSegment.mk.injEq, VirtualAddress.mk.injEq] at fields
  obtain ⟨dataOffset, virtual, fileSize, memorySize, flags⟩ := fields
  refine encoded.trans (congrArg Except.ok (eq_take_of_fields
    [4, 4, 4, 4, 4, 12] ?_ rfl long fits))
  exact ⟨field_of_u32At dataOffset, field_of_u32At virtual, field_of_u32At fileSize,
    field_of_u32At memorySize, field_of_u32At flags, field_of_reserved reserved' reserved, trivial⟩

end ModuleSegment

namespace BootInfo

def codec : WireCodec BootInfo := ⟨bootInfoSize, decode, encode⟩

theorem codec_inverts : codec.Inverts := by
  intro record bytes encoded
  exact (encode_inv encoded).2

/-- Only the encoder bounds the size of the image. -/
theorem codec_reencodes_iff (bytes : List U8) : codec.Reencodes bytes ↔
    ∀ record, decode bytes = .ok record → (u32At bytes 12).toNat ≤ 0x100_0000 := by
  constructor
  · intro reencodes record decoded
    obtain ⟨_, legal, _⟩ := bind_ok (reencodes record decoded)
    obtain ⟨_, _, rfl, _⟩ := decode_eq_ok.mp decoded
    rw [require_eq_ok, not_or, not_not, not_lt] at legal
    exact legal.2
  · intro small record decoded
    have size := small record decoded
    obtain ⟨fits, framed, rfl, base⟩ := decode_eq_ok.mp decoded
    obtain ⟨written, encoded, long, decoded'⟩ := exists_encode base size
    obtain ⟨_, framed', fields, _⟩ := decode_eq_ok.mp decoded'
    simp only [stored, BootInfo.mk.injEq, PhysicalAddress.mk.injEq] at fields
    obtain ⟨rom, size, moduleTable, moduleCount⟩ := fields
    refine encoded.trans (congrArg Except.ok (eq_take_of_fields
      [4, 2, 2, 4, 4, 4, 4, 4, 4, 4, 4, 24] ?_ rfl long fits))
    exact ⟨field_of_u32At (framed'.magic.trans framed.magic.symm),
      field_of_u16At (framed'.version.trans framed.version.symm),
      field_of_u16At (framed'.size.trans framed.size.symm), field_of_u32At rom.symm,
      field_of_u32At size.symm, field_of_u32At moduleTable.symm, field_of_u32At moduleCount.symm,
      field_of_u32At (framed'.directMap.trans framed.directMap.symm),
      field_of_u32At (framed'.ramBase.trans framed.ramBase.symm),
      field_of_u32At (framed'.ramSize.trans framed.ramSize.symm),
      field_of_u32At (framed'.flags.trans framed.flags.symm),
      field_of_reserved framed'.reserved framed.reserved, trivial⟩

end BootInfo

/-! ### All records -/

inductive WireRecord where
  | imageHeader
  | kernelSegment
  | moduleRecord
  | moduleSegment
  | bootInfo
deriving DecidableEq

namespace WireRecord

abbrev Record : WireRecord → Type
  | imageHeader => ImageHeader
  | kernelSegment => KernelSegment
  | moduleRecord => ModuleRecord
  | moduleSegment => ModuleSegment
  | bootInfo => BootInfo

def codec : (kind : WireRecord) → WireCodec kind.Record
  | imageHeader => ImageHeader.codec
  | kernelSegment => KernelSegment.codec
  | moduleRecord => ModuleRecord.codec
  | moduleSegment => ModuleSegment.codec
  | bootInfo => BootInfo.codec

/-- A boot info that its decoder accepts, for an image larger than the system ROM. -/
def Oversized (kind : WireRecord) (bytes : List U8) : Prop :=
  kind = bootInfo ∧ (∃ record, BootInfo.decode bytes = .ok record) ∧
    0x100_0000 < (u32At bytes 12).toNat

/-- Every record format round-trips both ways, except that a boot info for an oversized image
decodes and does not encode. -/
theorem records_round_trip (kind : WireRecord) : kind.codec.Inverts ∧
    ∀ bytes, kind.codec.Reencodes bytes ↔ ¬ kind.Oversized bytes := by
  have plain (different : kind ≠ bootInfo) (bytes : List U8)
      (reencodes : kind.codec.Reencodes bytes) :
      kind.codec.Reencodes bytes ↔ ¬ kind.Oversized bytes :=
    iff_of_true reencodes fun oversized => different oversized.1
  cases kind with
  | imageHeader =>
    exact ⟨ImageHeader.codec_inverts, fun bytes =>
      plain (by decide) bytes (ImageHeader.codec_reencodes bytes)⟩
  | kernelSegment =>
    exact ⟨KernelSegment.codec_inverts, fun bytes =>
      plain (by decide) bytes (KernelSegment.codec_reencodes bytes)⟩
  | moduleRecord =>
    exact ⟨ModuleRecord.codec_inverts, fun bytes =>
      plain (by decide) bytes (ModuleRecord.codec_reencodes bytes)⟩
  | moduleSegment =>
    exact ⟨ModuleSegment.codec_inverts, fun bytes =>
      plain (by decide) bytes (ModuleSegment.codec_reencodes bytes)⟩
  | bootInfo =>
    refine ⟨BootInfo.codec_inverts, fun bytes => (BootInfo.codec_reencodes_iff bytes).trans ?_⟩
    simp only [Oversized, true_and, not_and, not_lt, forall_exists_index]

/-- A boot info for an image of 16 MiB and one byte. -/
def oversizedBootInfo : List U8 :=
  [0x4d42_4f4f, 0x0040_0001, 0x0800_0000, 0x0100_0001, 96, 1, 0xc000_0000, 0x4000_0000, 0x0400_0000,
    0, 0, 0, 0, 0, 0, 0].flatMap fun word : U32 => toBytes 4 word.toNat

theorem oversizedBootInfo_not_reencoded : ¬ bootInfo.codec.Reencodes oversizedBootInfo := by
  intro reencodes
  have decoded : BootInfo.decode oversizedBootInfo =
      .ok ⟨MemRegion.systemRom.base, 0x0100_0001, 96, 1⟩ := by rfl
  have refused : BootInfo.encode ⟨MemRegion.systemRom.base, 0x0100_0001, 96, 1⟩ =
      .error (.invalidImageField "boot info") := by rfl
  have encoded : BootInfo.encode ⟨MemRegion.systemRom.base, 0x0100_0001, 96, 1⟩ =
      .ok (oversizedBootInfo.take bootInfoSize) := reencodes _ decoded
  cases refused.symm.trans encoded

end WireRecord

end Minemu.Platform
