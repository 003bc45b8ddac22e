import Minemu.Library.Storage

/-! Addresses, checked physical ranges and the fixed physical memory map. -/

namespace Minemu.Platform

abbrev U8 := BitVec 8
abbrev U16 := BitVec 16
abbrev U32 := BitVec 32

/-- Errors returned while validating a platform ABI value. -/
inductive PlatformError where
  | emptyRange
  | addressRangeOverflow (start length : U32)
  | addressOutsideRam (address : U32)
  | addressOutsideMmuTarget (address : U32)
  | unalignedPage (address : U32)
  | unalignedVectorBase (address : U32)
  | invalidMmioAddress (address : U32)
  | invalidMmioWidth (width : U8)
  | unalignedMmioAddress (address : U32)
  | invalidMmioDirection
  | invalidMmioValue (register : String) (value : U32)
  | invalidPageDirectoryBits (raw : U32)
  | invalidPageTableTarget (address : U32)
  | userDeviceMapping (address : U32)
  | invalidFaultStatus (raw : U32)
  | invalidImageLength (expected actual : Nat)
  | invalidImageField (field : String)
  | imageTableOutsideImage
deriving DecidableEq

/-- A 32-bit physical machine address. -/
structure PhysicalAddress where
  get : U32
deriving DecidableEq

/-- A 32-bit virtual machine address. -/
structure VirtualAddress where
  get : U32
deriving DecidableEq

def PhysicalAddress.isPageAligned (address : PhysicalAddress) : Bool :=
  address.get &&& 0xfff#32 == 0#32

/-- A nonempty physical range whose end is at most `2^32`. -/
structure PhysicalRange where
  start : PhysicalAddress
  length : U32
  nonempty : length ≠ 0#32
  fits : start.get.toNat + length.toNat ≤ 2 ^ 32
deriving DecidableEq

namespace PhysicalRange

def new (start : PhysicalAddress) (length : U32) : Except PlatformError PhysicalRange :=
  if empty : length = 0#32 then .error .emptyRange
  else if overflow : start.get.toNat + length.toNat > 2 ^ 32 then
    .error (.addressRangeOverflow start.get length)
  else .ok ⟨start, length, empty, by omega⟩

def endExclusive (range : PhysicalRange) : Nat := range.start.get.toNat + range.length.toNat

def containsAddress (range : PhysicalRange) (address : PhysicalAddress) : Bool :=
  range.start.get.toNat ≤ address.get.toNat ∧ address.get.toNat < range.endExclusive

def containsRange (range other : PhysicalRange) : Bool :=
  range.start.get.toNat ≤ other.start.get.toNat ∧ other.endExclusive ≤ range.endExclusive

@[simp] theorem containsAddress_iff {range : PhysicalRange} {address : PhysicalAddress} :
    range.containsAddress address = true ↔
      range.start.get.toNat ≤ address.get.toNat ∧ address.get.toNat < range.endExclusive :=
  decide_eq_true_iff

@[simp] theorem containsRange_iff {range other : PhysicalRange} :
    range.containsRange other = true ↔
      range.start.get.toNat ≤ other.start.get.toNat ∧ other.endExclusive ≤ range.endExclusive :=
  decide_eq_true_iff

theorem new_eq_ok {start : PhysicalAddress} {length : U32} {range : PhysicalRange} :
    new start length = .ok range ↔ range.start = start ∧ range.length = length := by
  unfold new
  constructor
  · intro built
    split at built
    · cases built
    · split at built
      · cases built
      · cases built
        exact ⟨rfl, rfl⟩
  · rintro ⟨rfl, rfl⟩
    rw [dif_neg range.nonempty, dif_neg (by have := range.fits; omega)]

/-- A range can be built exactly when it is not empty and does not wrap. -/
theorem exists_new {start : PhysicalAddress} {length : U32} :
    (∃ range, new start length = .ok range) ↔
      0 < length.toNat ∧ start.get.toNat + length.toNat ≤ 2 ^ 32 := by
  have positive : length ≠ 0#32 ↔ 0 < length.toNat := by
    rw [Ne, ← BitVec.toNat_inj, BitVec.toNat_ofNat]
    omega
  constructor
  · rintro ⟨range, built⟩
    obtain ⟨rfl, rfl⟩ := new_eq_ok.mp built
    exact ⟨positive.mp range.nonempty, range.fits⟩
  · rintro ⟨nonempty, fits⟩
    exact ⟨⟨start, length, positive.mpr nonempty, fits⟩, new_eq_ok.mpr ⟨rfl, rfl⟩⟩

end PhysicalRange

def pageSize : U32 := 4096
def bootRomSize : U32 := 0x0001_0000
def systemRomBase : U32 := 0x0800_0000
def systemRomSize : U32 := 0x0100_0000
def ramBase : U32 := 0x4000_0000
def ramSize : U32 := 0x0400_0000
def bootStackBase : U32 := ramBase + 0x6000
def bootStackSize : U32 := pageSize
def bootInfoPaddr : U32 := ramBase + 0x7000
def bootInfoVaddr : U32 := 0xc000_7000
def bootstrapEntryPaddr : U32 := ramBase + 0x8000

/-- A classified physical memory region. -/
inductive MemRegion where
  | bootRom
  | systemRom
  | interruptController
  | sysTick
  | dma
  | rng
  | uart0
  | uart1
  | trace
  | ram
deriving DecidableEq

namespace MemRegion

def range : MemRegion → PhysicalRange
  | bootRom => ⟨⟨0⟩, bootRomSize, by decide, by decide⟩
  | systemRom => ⟨⟨systemRomBase⟩, systemRomSize, by decide, by decide⟩
  | interruptController => ⟨⟨0x1000_0000⟩, pageSize, by decide, by decide⟩
  | sysTick => ⟨⟨0x1000_1000⟩, pageSize, by decide, by decide⟩
  | dma => ⟨⟨0x1000_2000⟩, pageSize, by decide, by decide⟩
  | rng => ⟨⟨0x1000_3000⟩, pageSize, by decide, by decide⟩
  | uart0 => ⟨⟨0x1000_4000⟩, pageSize, by decide, by decide⟩
  | uart1 => ⟨⟨0x1000_5000⟩, pageSize, by decide, by decide⟩
  | trace => ⟨⟨0x1000_f000⟩, pageSize, by decide, by decide⟩
  | ram => ⟨⟨ramBase⟩, ramSize, by decide, by decide⟩

def base (region : MemRegion) : PhysicalAddress := region.range.start

def size (region : MemRegion) : U32 := region.range.length

def isDevice : MemRegion → Bool
  | bootRom | systemRom | ram => false
  | _ => true

/-- The regions in the order address classification tries them. -/
def all : List MemRegion :=
  [bootRom, systemRom, interruptController, sysTick, dma, rng, uart0, uart1, trace, ram]

/-- `Option::<MemRegion>::from`: the region an address belongs to. -/
def ofAddress (address : PhysicalAddress) : Option MemRegion :=
  all.find? fun region => region.range.containsAddress address

theorem mem_all (region : MemRegion) : region ∈ all := by cases region <;> decide

/-- Distinct regions occupy disjoint address ranges. -/
theorem disjoint_ranges (left right : MemRegion) (different : left ≠ right) :
    left.range.endExclusive ≤ right.range.start.get.toNat ∨
      right.range.endExclusive ≤ left.range.start.get.toNat := by
  cases left <;> cases right <;> first | exact absurd rfl different | decide

theorem ofAddress_eq_some {address : PhysicalAddress} {region : MemRegion} :
    ofAddress address = some region ↔ region.range.containsAddress address = true := by
  have claimed {region : MemRegion} (found : ofAddress address = some region) :
      region.range.containsAddress address = true := by
    have selected := List.find?_some found
    exact selected
  constructor
  · intro found
    exact claimed found
  · intro inside
    cases found : ofAddress address with
    | none =>
      have outside := List.find?_eq_none.mp found region (mem_all region)
      exact absurd inside outside
    | some other =>
      have taken := claimed found
      by_contra different
      have apart := disjoint_ranges other region fun same => different (congrArg some same)
      simp only [PhysicalRange.containsAddress_iff] at inside taken
      omega

/-- Every region starts and ends on a page boundary. -/
theorem page_multiple (region : MemRegion) :
    region.range.start.get.toNat % 4096 = 0 ∧ region.range.endExclusive % 4096 = 0 := by
  cases region <;> decide

/-- The RAM window as numbers. -/
theorem ram_contains {address : PhysicalAddress} : ram.range.containsAddress address = true ↔
    0x4000_0000 ≤ address.get.toNat ∧ address.get.toNat < 0x4400_0000 := by
  rw [PhysicalRange.containsAddress_iff]
  exact Iff.rfl

theorem ram_containsRange {range : PhysicalRange} : ram.range.containsRange range = true ↔
    0x4000_0000 ≤ range.start.get.toNat ∧ range.endExclusive ≤ 0x4400_0000 := by
  rw [PhysicalRange.containsRange_iff]
  exact Iff.rfl

end MemRegion

/-- Converts a higher-half direct-map virtual address into physical RAM. -/
def directMapPhysical (address : VirtualAddress) : Except PlatformError PhysicalAddress :=
  if 0xc000_0000 ≤ address.get.toNat ∧ address.get.toNat < 0xc400_0000 then
    .ok ⟨address.get - 0x8000_0000#32⟩
  else .error (.addressOutsideRam address.get)

theorem directMapPhysical_eq_ok {address : VirtualAddress} {physical : PhysicalAddress} :
    directMapPhysical address = .ok physical ↔
      (0xc000_0000 ≤ address.get.toNat ∧ address.get.toNat < 0xc400_0000) ∧
        address.get.toNat = physical.get.toNat + 0x8000_0000 := by
  unfold directMapPhysical
  obtain ⟨physical⟩ := physical
  split
  · rename_i inside
    simp only [inside, and_self, true_and, Except.ok.injEq, PhysicalAddress.mk.injEq]
    constructor
    · rintro rfl
      bv_omega
    · intro same
      bv_omega
  · rename_i outside
    simp only [outside, false_and, reduceCtorEq]

end Minemu.Platform
