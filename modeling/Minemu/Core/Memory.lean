import Minemu.Platform.Mmu

/-! Physical memory: two immutable ROMs and RAM behind one address map. -/

namespace Minemu.Core

open Library Platform

/-- A host I/O failure, as far as the core carries it. -/
structure IoError where
  message : String
deriving DecidableEq

/-- Errors produced by the backend-independent machine state. -/
inductive CoreError where
  | platform (error : PlatformError)
  | unmappedPhysicalAddress (address : U32)
  | immutablePhysicalAddress (address : U32)
  | physicalAccessOutOfBounds (address : U32) (needed : Nat)
  | invalidEoi (expected actual : U32)
  | invalidBlockUnit (unit : U32)
  | invalidBlockMedia (unit : U32)
  | blockBusy
  | blockFlush (unit : U32) (source : IoError)
deriving DecidableEq

/-- Immutable boot/system ROM and mutable RAM backing for the physical map. -/
structure PhysicalMemory where
  bootRom : Storage 0x1_0000 U8
  systemRom : Storage 0x100_0000 U8
  ram : Storage 0x400_0000 U8

namespace PhysicalMemory

/-- Zero-filled ROM images and RAM. -/
def empty : PhysicalMemory := ⟨fun _ => 0, fun _ => 0, fun _ => 0⟩

/-- Memory whose boot ROM starts with a program. -/
def programmed (words : List U32) : PhysicalMemory :=
  { empty with
    bootRom := fun index => (words.flatMap fun word => toBytes 4 word.toNat).getD index.val 0 }

def regionOffset (address : PhysicalAddress) : Except CoreError (MemRegion × Nat) :=
  match MemRegion.ofAddress address with
  | none => .error (.unmappedPhysicalAddress address.get)
  | some region => .ok (region, (address.get - region.base.get).toNat)

/-- The bytes backing part of one region, and `none` for a device region. -/
def regionBytes (memory : PhysicalMemory) (offset length : Nat) : MemRegion → Option (Option (List U8))
  | .bootRom => some (memory.bootRom.slice offset length)
  | .systemRom => some (memory.systemRom.slice offset length)
  | .ram => some (memory.ram.slice offset length)
  | _ => none

/-- The bytes of one mapped region; a range leaving the region is refused. -/
def regionSlice (memory : PhysicalMemory) (address : PhysicalAddress) (length : Nat) :
    Except CoreError (List U8) := do
  let (region, offset) ← regionOffset address
  match memory.regionBytes offset length region with
  | none => throw (.unmappedPhysicalAddress address.get)
  | some none => throw (.physicalAccessOutOfBounds address.get length)
  | some (some bytes) => return bytes

/-- `region_slice_mut` followed by the caller's copy of `values` into the slice. -/
def regionSliceMut (memory : PhysicalMemory) (address : PhysicalAddress) (values : List U8) :
    Except CoreError PhysicalMemory := do
  let (region, offset) ← regionOffset address
  if region ≠ .ram then throw (.immutablePhysicalAddress address.get)
  match memory.ram.splice offset values with
  | some ram => return { memory with ram }
  | none => throw (.physicalAccessOutOfBounds address.get values.length)

def readU8 (memory : PhysicalMemory) (address : PhysicalAddress) : Except CoreError U8 := do
  let bytes ← memory.regionSlice address 1
  return bytes.headD 0

def readU32 (memory : PhysicalMemory) (address : PhysicalAddress) : Except CoreError U32 := do
  let bytes ← memory.regionSlice address 4
  return BitVec.ofNat 32 (littleEndian bytes)

def writeU8 (memory : PhysicalMemory) (address : PhysicalAddress) (value : U8) :
    Except CoreError PhysicalMemory := memory.regionSliceMut address [value]

def writeU32 (memory : PhysicalMemory) (address : PhysicalAddress) (value : U32) :
    Except CoreError PhysicalMemory := memory.regionSliceMut address (toBytes 4 value.toNat)

/-- The bytes copied into a destination of the given length. -/
def readRange (memory : PhysicalMemory) (range : PhysicalRange) (destination : Nat) :
    Except CoreError (List U8) :=
  if destination ≠ range.length.toNat then
    .error (.physicalAccessOutOfBounds range.start.get destination)
  else memory.regionSlice range.start destination

def writeRange (memory : PhysicalMemory) (address : PhysicalAddress) (bytes : List U8) :
    Except CoreError PhysicalMemory := memory.regionSliceMut address bytes

/-- The RAM byte at a physical address, zero outside RAM. -/
def ramByte (memory : PhysicalMemory) (address : Nat) : U8 :=
  if inside : 0x4000_0000 ≤ address ∧ address < 0x4400_0000 then
    memory.ram ⟨address - 0x4000_0000, by omega⟩
  else 0

/-- The little-endian RAM word at a physical address. -/
def ramWord (memory : PhysicalMemory) (address : Nat) : U32 :=
  BitVec.ofNat 32 (littleEndian ((List.range 4).map fun index => memory.ramByte (address + index)))

/-- `after` is `before` with `bytes` stored at one RAM address and nothing else changed. -/
structure Stored (before after : PhysicalMemory) (address : Nat) (bytes : List U8) : Prop where
  bootRom : after.bootRom = before.bootRom
  systemRom : after.systemRom = before.systemRom
  inside : ∀ index, (bound : index < bytes.length) → after.ramByte (address + index) = bytes[index]
  outside : ∀ other, other < address ∨ address + bytes.length ≤ other →
    after.ramByte other = before.ramByte other

/-- Memories with the same ROMs and the same RAM bytes are the same. -/
theorem ext_ramByte {first second : PhysicalMemory} (bootRom : first.bootRom = second.bootRom)
    (systemRom : first.systemRom = second.systemRom)
    (bytes : ∀ address, first.ramByte address = second.ramByte address) : first = second := by
  have cells : first.ram = second.ram := by
    funext index
    have cell := bytes (0x4000_0000 + index.val)
    have inside : 0x4000_0000 ≤ 0x4000_0000 + index.val ∧ 0x4000_0000 + index.val < 0x4400_0000 :=
      ⟨by omega, by omega⟩
    simpa only [ramByte, dif_pos inside, Nat.add_sub_cancel_left, Fin.eta] using cell
  obtain ⟨firstBoot, firstSystem, firstRam⟩ := first
  obtain ⟨secondBoot, secondSystem, secondRam⟩ := second
  cases bootRom
  cases systemRom
  cases cells
  rfl

theorem regionOffset_ram {address : PhysicalAddress}
    (inside : 0x4000_0000 ≤ address.get.toNat ∧ address.get.toNat < 0x4400_0000) :
    regionOffset address = .ok (.ram, address.get.toNat - 0x4000_0000) := by
  have region := MemRegion.ofAddress_eq_some.mpr (MemRegion.ram_contains.mpr inside)
  have offset : (address.get - MemRegion.ram.base.get).toNat = address.get.toNat - 0x4000_0000 := by
    have base : MemRegion.ram.base.get = 0x4000_0000#32 := by decide
    rw [base]
    bv_omega
  simp only [regionOffset, region, offset]

theorem regionOffset_eq_ram {address : PhysicalAddress} {offset : Nat}
    (found : regionOffset address = .ok (.ram, offset)) :
    0x4000_0000 ≤ address.get.toNat ∧ address.get.toNat < 0x4400_0000 := by
  unfold regionOffset at found
  split at found
  · cases found
  · rename_i region located
    have same := congrArg Prod.fst (Except.ok.inj found)
    rw [show region = .ram from same] at located
    exact MemRegion.ram_contains.mp (MemRegion.ofAddress_eq_some.mp located)

theorem ramByte_of_stored {memory : PhysicalMemory} {ram : Storage 0x400_0000 U8}
    {bytes : List U8} {start : Nat} (window : 0x4000_0000 ≤ start)
    (written : memory.ram.splice (start - 0x4000_0000) bytes = some ram) :
    Stored memory { memory with ram } start bytes := by
  have fits := Storage.splice_isSome memory.ram (start - 0x4000_0000) bytes
  rw [written] at fits
  have bound := fits.mp rfl
  refine ⟨rfl, rfl, fun index inside => ?_, fun other outside => ?_⟩
  · have member : 0x4000_0000 ≤ start + index ∧ start + index < 0x4400_0000 := by omega
    have position : start + index - 0x4000_0000 - (start - 0x4000_0000) = index := by omega
    simp only [ramByte, member, and_self, ↓reduceDIte]
    rw [Storage.splice_apply written, if_pos (by simp only; omega)]
    simp [position, List.getElem?_eq_getElem inside]
  · unfold ramByte
    split
    · exact Storage.splice_outside written _ (by simp only; omega)
    · rfl

/-- A store succeeds exactly inside RAM, and then stores exactly its bytes. -/
theorem regionSliceMut_ram (memory : PhysicalMemory) (address : PhysicalAddress) (bytes : List U8)
    (inside : 0x4000_0000 ≤ address.get.toNat ∧ address.get.toNat < 0x4400_0000)
    (fits : address.get.toNat + bytes.length ≤ 0x4400_0000) :
    ∃ after, memory.regionSliceMut address bytes = .ok after ∧
      Stored memory after address.get.toNat bytes := by
  have room := Storage.splice_isSome memory.ram (address.get.toNat - 0x4000_0000) bytes
  obtain ⟨ram, written⟩ := Option.isSome_iff_exists.mp (room.mpr (by omega))
  refine ⟨{ memory with ram }, ?_, ramByte_of_stored inside.1 written⟩
  simp [regionSliceMut, regionOffset_ram inside, written, bind, Except.bind, pure, Except.pure]

theorem regionSliceMut_inv {memory after : PhysicalMemory} {address : PhysicalAddress}
    {bytes : List U8} (stored : memory.regionSliceMut address bytes = .ok after) :
    (0x4000_0000 ≤ address.get.toNat ∧ address.get.toNat < 0x4400_0000) ∧
      address.get.toNat + bytes.length ≤ 0x4400_0000 ∧
      Stored memory after address.get.toNat bytes := by
  cases located : regionOffset address with
  | error error => simp [regionSliceMut, located, bind, Except.bind] at stored
  | ok found =>
    obtain ⟨region, offset⟩ := found
    by_cases isRam : region = .ram
    · subst isRam
      have inside := regionOffset_eq_ram located
      rw [regionOffset_ram inside] at located
      cases written : memory.ram.splice (address.get.toNat - 0x4000_0000) bytes with
      | none =>
        simp [regionSliceMut, regionOffset_ram inside, written, bind, Except.bind, throw,
          throwThe, MonadExceptOf.throw] at stored
      | some ram =>
        have same : { memory with ram } = after := by
          simpa [regionSliceMut, regionOffset_ram inside, written, bind, Except.bind, pure,
            Except.pure] using stored
        have room := Storage.splice_isSome memory.ram (address.get.toNat - 0x4000_0000) bytes
        rw [written] at room
        have bound := room.mp rfl
        exact ⟨inside, by omega, same ▸ ramByte_of_stored inside.1 written⟩
    · simp [regionSliceMut, located, isRam, bind, Except.bind, throw, throwThe,
        MonadExceptOf.throw] at stored

/-- A slice of the RAM storage, as bytes at physical addresses. -/
theorem slice_ram (memory : PhysicalMemory) {address length : Nat}
    (inside : 0x4000_0000 ≤ address) (fits : address + length ≤ 0x4400_0000) :
    memory.ram.slice (address - 0x4000_0000) length =
      some ((List.range length).map fun index => memory.ramByte (address + index)) := by
  refine Storage.slice_eq_some.mpr ⟨by omega, by simp, fun index bound => ?_⟩
  rw [List.getElem?_map, List.getElem?_range bound, Option.map_some, ramByte, dif_pos (by omega)]
  refine congrArg some (congrArg memory.ram (Fin.ext ?_))
  simp only
  omega

theorem regionSlice_of_offset (memory : PhysicalMemory) {address : PhysicalAddress}
    {length offset : Nat} {bytes : List U8} (located : regionOffset address = .ok (.ram, offset))
    (read : memory.ram.slice offset length = some bytes) :
    memory.regionSlice address length = .ok bytes := by
  simp only [regionSlice, located, regionBytes, read, bind, Except.bind, pure, Except.pure]

theorem regionSlice_ram (memory : PhysicalMemory) {address : PhysicalAddress} {length : Nat}
    (inside : 0x4000_0000 ≤ address.get.toNat ∧ address.get.toNat < 0x4400_0000)
    (fits : address.get.toNat + length ≤ 0x4400_0000) :
    memory.regionSlice address length =
      .ok ((List.range length).map fun index => memory.ramByte (address.get.toNat + index)) :=
  regionSlice_of_offset memory (regionOffset_ram inside) (slice_ram memory inside.1 fits)

/-- A successful read returns as many bytes as it was asked for. -/
theorem length_regionSlice {memory : PhysicalMemory} {address : PhysicalAddress} {length : Nat}
    {bytes : List U8} (read : memory.regionSlice address length = .ok bytes) :
    bytes.length = length := by
  cases located : regionOffset address with
  | error error => simp [regionSlice, located, bind, Except.bind] at read
  | ok found =>
    obtain ⟨region, offset⟩ := found
    simp only [regionSlice, located, bind, Except.bind] at read
    split at read
    · cases read
    · cases read
    · rename_i cells found
      cases read
      cases region <;> first | exact Storage.length_of_slice (Option.some.inj found) | cases found

theorem length_readRange {memory : PhysicalMemory} {range : PhysicalRange} {destination : Nat}
    {bytes : List U8} (read : memory.readRange range destination = .ok bytes) :
    bytes.length = destination := by
  unfold readRange at read
  split at read
  · cases read
  · exact length_regionSlice read

/-- A word read inside RAM returns the RAM word. -/
theorem readU32_ram (memory : PhysicalMemory) {address : PhysicalAddress}
    (inside : 0x4000_0000 ≤ address.get.toNat) (fits : address.get.toNat + 4 ≤ 0x4400_0000) :
    memory.readU32 address = .ok (memory.ramWord address.get.toNat) := by
  simp only [readU32, regionSlice_ram memory ⟨inside, by omega⟩ fits, bind, Except.bind, pure,
    Except.pure, ramWord]

theorem ramWord_congr {before after : PhysicalMemory} {address : Nat}
    (same : ∀ index < 4, after.ramByte (address + index) = before.ramByte (address + index)) :
    after.ramWord address = before.ramWord address := by
  unfold ramWord
  congr 2
  exact List.map_congr_left fun index member => same index (List.mem_range.mp member)

/-- The bytes of a RAM word are the bytes it is read from. -/
theorem toBytes_ramWord (memory : PhysicalMemory) (address : Nat) :
    toBytes 4 (memory.ramWord address).toNat =
      (List.range 4).map fun index => memory.ramByte (address + index) := by
  have cells := toBytes_littleEndian
    ((List.range 4).map fun index => memory.ramByte (address + index))
  have small := littleEndian_lt
    ((List.range 4).map fun index => memory.ramByte (address + index))
  simp only [List.length_map, List.length_range] at cells small
  have word : (memory.ramWord address).toNat =
      littleEndian ((List.range 4).map fun index => memory.ramByte (address + index)) := by
    rw [ramWord, BitVec.toNat_ofNat]
    exact Nat.mod_eq_of_lt small
  rw [word, cells]

namespace Stored

variable {before after : PhysicalMemory} {address : Nat} {bytes : List U8}

/-- Storing the word that is already there changes nothing. -/
theorem refl (memory : PhysicalMemory) (address : Nat) :
    Stored memory memory address (toBytes 4 (memory.ramWord address).toNat) := by
  refine ⟨rfl, rfl, fun index bound => ?_, fun _ _ => rfl⟩
  simp only [toBytes_ramWord, List.getElem_map, List.getElem_range]

/-- What is stored decides the memory. -/
theorem unique {other : PhysicalMemory} (first : Stored before after address bytes)
    (second : Stored before other address bytes) : after = other := by
  apply ext_ramByte (first.bootRom.trans second.bootRom.symm)
    (first.systemRom.trans second.systemRom.symm)
  intro position
  by_cases inside : address ≤ position ∧ position < address + bytes.length
  · obtain ⟨index, rfl⟩ := Nat.exists_eq_add_of_le inside.1
    have bound : index < bytes.length := by omega
    rw [first.inside index bound, second.inside index bound]
  · rw [first.outside position (by omega), second.outside position (by omega)]

/-- A stored word reads back. -/
theorem ramWord_same {value : U32} (stored : Stored before after address (toBytes 4 value.toNat)) :
    after.ramWord address = value := by
  have cells : (List.range 4).map (fun index => after.ramByte (address + index)) =
      toBytes 4 value.toNat := by
    refine List.ext_getElem (by simp) fun index left right => ?_
    simpa using stored.inside index right
  rw [ramWord, cells, littleEndian_toBytes _ _ (by simpa using value.isLt), BitVec.ofNat_toNat,
    BitVec.setWidth_eq]

/-- Words that do not meet the stored range keep their value. -/
theorem ramWord_apart (stored : Stored before after address bytes) {other : Nat}
    (apart : other + 4 ≤ address ∨ address + bytes.length ≤ other) :
    after.ramWord other = before.ramWord other :=
  ramWord_congr fun index bound => stored.outside _ (by omega)

end Stored

end PhysicalMemory

end Minemu.Core
