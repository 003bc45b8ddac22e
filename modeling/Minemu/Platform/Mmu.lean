import Minemu.Platform.Address

/-! Access rights, page-table records, fault status and the CP15 operations. -/

namespace Minemu.Platform

open Library

/-- Direction of an MMU or MMIO access. -/
inductive Access where
  | fetch
  | read
  | write
deriving DecidableEq

/-- Access rights shared by page mappings and MMIO registers. -/
structure Permissions where
  bits : U8
deriving DecidableEq

namespace Permissions

def read : Permissions := ⟨1#8 <<< 4⟩
def write : Permissions := ⟨1#8 <<< 1⟩
def user : Permissions := ⟨1#8 <<< 2⟩
def execute : Permissions := ⟨1#8 <<< 3⟩

def union (left right : Permissions) : Permissions := ⟨left.bits ||| right.bits⟩

def contains (set other : Permissions) : Bool := set.bits &&& other.bits == other.bits

/-- Whether this permission set admits an attempted access. -/
def permits (set : Permissions) (access : Access) (userMode : Bool) : Bool :=
  if userMode && !set.contains user then false
  else match access with
    | .fetch => set.contains execute
    | .read => set.contains read
    | .write => set.contains write

end Permissions

def pteValid : U32 := 1#32 <<< 0
def pteUser : U32 := Permissions.user.bits.setWidth 32
def pteAccessed : U32 := 1#32 <<< 5
def pteDirty : U32 := 1#32 <<< 6
def ptePageMask : U32 := 0xffff_f000
def pdeAllowedMask : U32 := pteValid ||| ptePageMask

/-- Validates a physical RAM page used as a page directory or page table. -/
def validatePageTablePage (address : PhysicalAddress) : Except PlatformError Unit := do
  if !address.isPageAligned then throw (.unalignedPage address.get)
  let page ← PhysicalRange.new address pageSize
  if !MemRegion.ram.range.containsRange page then throw (.addressOutsideRam address.get)

/-- A supported CP15 operation after instruction decoding and privilege checks. -/
inductive Cp15Operation where
  | setTtbr0 (address : PhysicalAddress)
  | setMmuEnabled (enabled : Bool)
  | invalidateAll
  | setVectorBase (address : VirtualAddress)
  | readFaultStatus
  | readFaultAddress
deriving DecidableEq

namespace Cp15Operation

/-- `Cp15Operation::set_ttbr0`: validates a TTBR0 value. -/
def ofTtbr0 (value : U32) : Except PlatformError Cp15Operation := do
  validatePageTablePage ⟨value⟩
  return .setTtbr0 ⟨value⟩

/-- `Cp15Operation::set_mmu_enabled`: the platform-defined SCTLR bit. -/
def ofSctlr (value : U32) : Cp15Operation := .setMmuEnabled (value &&& 1#32 != 0#32)

/-- `Cp15Operation::set_vector_base`: validates a VBAR value. -/
def ofVbar (value : U32) : Except PlatformError Cp15Operation :=
  if value &&& 0x1f#32 != 0#32 then .error (.unalignedVectorBase value)
  else .ok (.setVectorBase ⟨value⟩)

end Cp15Operation

/-- Whether an aligned physical page can be a valid MMU mapping target. -/
def isMmuTargetPage (address : PhysicalAddress) : Bool :=
  if !address.isPageAligned then false
  else match PhysicalRange.new address pageSize with
    | .error _ => false
    | .ok page => match MemRegion.ofAddress address with
      | none => false
      | some region => region.range.containsRange page

/-- A page-directory entry whose reserved bits are clear. -/
structure PageDirectoryEntry where
  raw : U32
  allowed : raw &&& ~~~pdeAllowedMask = 0#32

namespace PageDirectoryEntry

def new (raw : U32) : Except PlatformError PageDirectoryEntry :=
  if allowed : raw &&& ~~~pdeAllowedMask = 0#32 then .ok ⟨raw, allowed⟩
  else .error (.invalidPageDirectoryBits raw)

def isValid (entry : PageDirectoryEntry) : Bool := entry.raw &&& pteValid != 0#32

/-- The validated page-table physical address of a valid entry. -/
def tableAddress (entry : PageDirectoryEntry) : Except PlatformError (Option PhysicalAddress) :=
  if !entry.isValid then .ok none
  else do
    let address : PhysicalAddress := ⟨entry.raw &&& ptePageMask⟩
    validatePageTablePage address
    return some address

end PageDirectoryEntry

/-- ABI fault causes encoded in the low byte of DFSR. -/
inductive FaultCause where
  | translation
  | readProtection
  | writeProtection
  | executeProtection
  | deviceAccess
deriving DecidableEq

namespace FaultCause

def code : FaultCause → U32
  | translation => 1
  | readProtection => 2
  | writeProtection => 3
  | executeProtection => 4
  | deviceAccess => 5

/-- The protection cause that names a denied access. -/
def protection : Access → FaultCause
  | .fetch => executeProtection
  | .read => readProtection
  | .write => writeProtection

end FaultCause

/-- A raw page-table entry. -/
structure PageTableEntry where
  raw : U32
deriving DecidableEq

namespace PageTableEntry

def isValid (entry : PageTableEntry) : Bool := entry.raw &&& pteValid != 0#32

def permissions (entry : PageTableEntry) : Permissions := ⟨(entry.raw &&& 0x1e#32).setWidth 8⟩

/-- The validated physical target page of a valid entry. -/
def targetAddress (entry : PageTableEntry) : Except PlatformError (Option PhysicalAddress) :=
  if !entry.isValid then .ok none
  else
    let address : PhysicalAddress := ⟨entry.raw &&& ptePageMask⟩
    if !isMmuTargetPage address then .error (.invalidPageTableTarget address.get)
    else if (MemRegion.ofAddress address).any MemRegion.isDevice &&
        entry.permissions.contains .user then
      .error (.userDeviceMapping address.get)
    else .ok (some address)

/-- The failure cause for an attempted access, if any. -/
def authorize (entry : PageTableEntry) (access : Access) (userMode : Bool) :
    Except FaultCause Unit :=
  if !entry.isValid then .error .translation
  else if entry.permissions.permits access userMode then .ok ()
  else .error (.protection access)

/-- Sets MMU-managed access metadata after a successful access. -/
def recordSuccessfulAccess (entry : PageTableEntry) (access : Access) : PageTableEntry :=
  let raw := entry.raw ||| pteAccessed
  ⟨if access = .write then raw ||| pteDirty else raw⟩

end PageTableEntry

/-- Encoded fault status exposed through DFSR. -/
structure FaultStatus where
  raw : U32
deriving DecidableEq

namespace FaultStatus

def new (cause : FaultCause) (userMode : Bool) (access : Access) : FaultStatus :=
  let raw := cause.code
  let raw := if userMode then raw ||| 1#32 <<< 8 else raw
  let raw := if access = .write then raw ||| 1#32 <<< 9 else raw
  ⟨if access = .fetch then raw ||| 1#32 <<< 10 else raw⟩

def cause (status : FaultStatus) : Option FaultCause :=
  match (status.raw &&& 0xff#32).toNat with
  | 1 => some .translation
  | 2 => some .readProtection
  | 3 => some .writeProtection
  | 4 => some .executeProtection
  | 5 => some .deviceAccess
  | _ => none

def fromUser (status : FaultStatus) : Bool := status.raw &&& (1#32 <<< 8) != 0#32

def isWrite (status : FaultStatus) : Bool := status.raw &&& (1#32 <<< 9) != 0#32

def isFetch (status : FaultStatus) : Bool := status.raw &&& (1#32 <<< 10) != 0#32

/-- An encoded status decodes to exactly the cause, origin and access it was built from. -/
theorem new_decodes (fault : FaultCause) (userMode : Bool) (access : Access) :
    (new fault userMode access).cause = some fault ∧
      (new fault userMode access).fromUser = userMode ∧
      (new fault userMode access).isWrite = (access == .write) ∧
      (new fault userMode access).isFetch = (access == .fetch) := by
  cases fault <;> cases userMode <;> cases access <;> decide

end FaultStatus

/-! The masks of the code, read as arithmetic on page numbers and offsets. -/

theorem toNat_pageMask (raw : U32) : (raw &&& ptePageMask).toNat = raw.toNat / 4096 * 4096 :=
  toNat_and_high raw 12

theorem isPageAligned_iff (address : PhysicalAddress) :
    address.isPageAligned = true ↔ address.get.toNat % 4096 = 0 := by
  rw [PhysicalAddress.isPageAligned, beq_iff_eq, ← BitVec.toNat_inj]
  exact iff_of_eq (congrArg (· = 0) (toNat_and_low address.get 12 (by decide)))

/-- A page-table page is exactly an aligned page that lies completely in RAM. -/
theorem validatePageTablePage_ok {address : PhysicalAddress} :
    validatePageTablePage address = .ok () ↔ address.get.toNat % 4096 = 0 ∧
      0x4000_0000 ≤ address.get.toNat ∧ address.get.toNat + 4096 ≤ 0x4400_0000 := by
  unfold validatePageTablePage PhysicalRange.new
  rw [← isPageAligned_iff]
  have bound := address.get.isLt
  cases aligned : address.isPageAligned with
  | false => simp [throw, throwThe, MonadExceptOf.throw, bind, Except.bind]
  | true =>
    have nonempty : pageSize ≠ 0#32 := by decide
    have length : pageSize.toNat = 4096 := by decide
    simp only [nonempty, ↓reduceDIte, length, true_and, Bool.not_true, Bool.false_eq_true,
      ↓reduceIte]
    by_cases overflow : address.get.toNat + 4096 > 2 ^ 32
    · simp only [overflow, ↓reduceDIte]
      constructor
      · intro impossible
        cases impossible
      · intro inside
        omega
    · simp only [overflow, ↓reduceDIte, bind, Except.bind, pure, Except.pure]
      have window : MemRegion.ram.range.containsRange ⟨address, pageSize, nonempty, by omega⟩ =
          true ↔ 0x4000_0000 ≤ address.get.toNat ∧ address.get.toNat + 4096 ≤ 0x4400_0000 := by
        rw [PhysicalRange.containsRange_iff]
        exact Iff.rfl
      rw [← window]
      cases MemRegion.ram.range.containsRange ⟨address, pageSize, nonempty, by omega⟩ <;>
        simp [throw, throwThe, MonadExceptOf.throw]

/-- A mapping target is exactly an aligned page inside one mapped region. -/
theorem isMmuTargetPage_iff {address : PhysicalAddress} :
    isMmuTargetPage address = true ↔ address.get.toNat % 4096 = 0 ∧
      ∃ region, MemRegion.ofAddress address = some region := by
  unfold isMmuTargetPage
  have bound := address.get.isLt
  cases aligned : address.isPageAligned with
  | false =>
    have unaligned : address.get.toNat % 4096 ≠ 0 := by
      rw [Ne, ← isPageAligned_iff, aligned]
      decide
    simp [unaligned]
  | true =>
    have multiple := (isPageAligned_iff address).mp aligned
    have nonempty : pageSize ≠ 0#32 := by decide
    have length : pageSize.toNat = 4096 := by decide
    have fits : ¬ address.get.toNat + 4096 > 2 ^ 32 := by omega
    simp only [PhysicalRange.new, nonempty, ↓reduceDIte, length, fits, Bool.not_true,
      Bool.false_eq_true, ↓reduceIte, multiple, true_and]
    cases found : MemRegion.ofAddress address with
    | none => simp
    | some region =>
      have inside := MemRegion.ofAddress_eq_some.mp found
      have pages := region.page_multiple
      simp only [PhysicalRange.containsAddress_iff, PhysicalRange.containsRange_iff,
        PhysicalRange.endExclusive, length] at inside pages ⊢
      constructor
      · intro _
        exact ⟨region, rfl⟩
      · intro _
        omega

end Minemu.Platform
