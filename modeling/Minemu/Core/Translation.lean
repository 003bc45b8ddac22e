import Minemu.Core.Mmu

/-! What a translation is: the meaning of the two descriptor words, and the
proof that the walker implements it. -/

namespace Minemu.Core.Translation

open Library Platform

/-- The page number field of a descriptor, as the address of its page. -/
def pageOf (raw : U32) : Nat := raw.toNat / 4096 * 4096

/-- A directory word the walk may follow: Valid, nothing reserved, a RAM page. -/
structure NamesTable (pde : U32) : Prop where
  valid : pde.getLsbD 0 = true
  reserved : ∀ bit < 11, pde.getLsbD (bit + 1) = false
  inRam : 0x4000_0000 ≤ pageOf pde ∧ pageOf pde + 4096 ≤ 0x4400_0000

def accessBit : Access → Nat
  | .write => 1
  | .fetch => 3
  | .read => 4

def Grants (pte : U32) (access : Access) (userMode : Bool) : Prop :=
  pte.getLsbD (accessBit access) = true ∧ (userMode = true → pte.getLsbD 2 = true)

/-- A complete page of one mapped region. -/
def WholePage (region : MemRegion) (page : Nat) : Prop :=
  region.base.get.toNat ≤ page ∧ page + 4096 ≤ region.range.endExclusive

def UserDevice (pte : U32) : Prop :=
  pte.getLsbD 2 = true ∧ ∃ region, WholePage region (pageOf pte) ∧ region.isDevice = true

def RomWrite (pte : U32) (access : Access) : Prop :=
  access = .write ∧ ∃ region, WholePage region (pageOf pte) ∧
    (region = .bootRom ∨ region = .systemRom)

/-- The conditions under which an access translates. -/
structure Permitted (pde pte : U32) (access : Access) (userMode : Bool) : Prop where
  table : NamesTable pde
  valid : pte.getLsbD 0 = true
  grants : Grants pte access userMode
  target : ∃ region, WholePage region (pageOf pte)
  notUserDevice : ¬ UserDevice pte
  notRomWrite : ¬ RomWrite pte access

/-- The cause reported for an access that does not translate. -/
inductive Refused (pde pte : U32) (access : Access) (userMode : Bool) : FaultCause → Prop
  | table (bad : ¬ NamesTable pde) : Refused pde pte access userMode .translation
  | invalid (table : NamesTable pde) (bad : pte.getLsbD 0 = false) :
      Refused pde pte access userMode .translation
  | permission (table : NamesTable pde) (valid : pte.getLsbD 0 = true)
      (bad : ¬ Grants pte access userMode) :
      Refused pde pte access userMode (.protection access)
  | userDevice (table : NamesTable pde) (valid : pte.getLsbD 0 = true) (bad : UserDevice pte) :
      Refused pde pte access userMode (.protection access)
  | target (table : NamesTable pde) (valid : pte.getLsbD 0 = true)
      (grants : Grants pte access userMode) (bad : ¬ ∃ region, WholePage region (pageOf pte)) :
      Refused pde pte access userMode .translation
  | rom (table : NamesTable pde) (valid : pte.getLsbD 0 = true)
      (grants : Grants pte access userMode) (fine : ¬ UserDevice pte) (bad : RomWrite pte access) :
      Refused pde pte access userMode .writeProtection

/-- Every access is permitted or refused with a cause. -/
theorem permitted_or_refused (pde pte : U32) (access : Access) (userMode : Bool) :
    Permitted pde pte access userMode ∨ ∃ cause, Refused pde pte access userMode cause := by
  by_cases table : NamesTable pde
  · cases valid : pte.getLsbD 0 with
    | false => exact .inr ⟨_, .invalid table valid⟩
    | true =>
      by_cases grants : Grants pte access userMode
      · by_cases device : UserDevice pte
        · exact .inr ⟨_, .userDevice table valid device⟩
        · by_cases target : ∃ region, WholePage region (pageOf pte)
          · by_cases rom : RomWrite pte access
            · exact .inr ⟨_, .rom table valid grants device rom⟩
            · exact .inl ⟨table, valid, grants, target, device, rom⟩
          · exact .inr ⟨_, .target table valid grants target⟩
      · exact .inr ⟨_, .permission table valid grants⟩
  · exact .inr ⟨_, .table table⟩

/-- The Accessed bit, and the Dirty bit for a write. -/
def metadata (access : Access) : U32 :=
  if access = .write then pteAccessed ||| pteDirty else pteAccessed

/-! ### The masks of the code as bits -/

theorem isValid_iff {raw : U32} : raw &&& pteValid = 0#32 ↔ raw.getLsbD 0 = false := by
  have bit := and_bit_ne_zero raw (by decide : 0 < 32)
  rw [Ne, ← not_iff_not] at bit
  simpa [pteValid] using bit

theorem isValid_ne {raw : U32} (valid : raw.getLsbD 0 = true) : raw &&& pteValid ≠ 0#32 :=
  fun empty => by
    rw [isValid_iff.mp empty] at valid
    cases valid

theorem isUser_iff {raw : U32} : raw &&& pteUser ≠ 0#32 ↔ raw.getLsbD 2 = true := by
  have constant : pteUser = 1#32 <<< 2 := by decide
  rw [constant]
  exact and_bit_ne_zero raw (by decide)

/-- A permission of an entry is the entry's bit of that number. -/
theorem contains_iff {raw : U32} {bit : Nat} (field : 1 ≤ bit ∧ bit ≤ 4) :
    ((⟨raw⟩ : PageTableEntry).permissions.contains ⟨1#8 <<< bit⟩) = raw.getLsbD bit := by
  have through : ((raw &&& 0x1e#32).setWidth 8).getLsbD bit = raw.getLsbD bit := by
    have mask : (0x1e#32).getLsbD bit = true := by
      obtain rfl | rfl | rfl | rfl : bit = 1 ∨ bit = 2 ∨ bit = 3 ∨ bit = 4 := by omega
      all_goals decide
    have small : bit < 8 := by omega
    rw [BitVec.getLsbD_setWidth, BitVec.getLsbD_and, mask]
    simp [small]
  have single : 1#8 <<< bit = BitVec.twoPow 8 bit := rfl
  rw [Permissions.contains, PageTableEntry.permissions, single, BitVec.and_twoPow, through]
  cases raw.getLsbD bit with
  | true => simp
  | false =>
    have nonzero : (0#8 == BitVec.twoPow 8 bit) = false := by
      obtain rfl | rfl | rfl | rfl : bit = 1 ∨ bit = 2 ∨ bit = 3 ∨ bit = 4 := by omega
      all_goals decide
    exact nonzero

theorem permits_iff {raw : U32} {access : Access} {userMode : Bool} :
    (⟨raw⟩ : PageTableEntry).permissions.permits access userMode = true ↔
      Grants raw access userMode := by
  have read : (⟨raw⟩ : PageTableEntry).permissions.contains .read = raw.getLsbD 4 :=
    contains_iff (by decide)
  have write : (⟨raw⟩ : PageTableEntry).permissions.contains .write = raw.getLsbD 1 :=
    contains_iff (by decide)
  have user : (⟨raw⟩ : PageTableEntry).permissions.contains .user = raw.getLsbD 2 :=
    contains_iff (by decide)
  have execute : (⟨raw⟩ : PageTableEntry).permissions.contains .execute = raw.getLsbD 3 :=
    contains_iff (by decide)
  unfold Permissions.permits Grants
  cases access <;> cases userMode <;>
    simp [accessBit, read, write, execute, user, and_comm]

/-- The region classification of a descriptor's page. -/
theorem ofAddress_page {raw : U32} {region : MemRegion} :
    MemRegion.ofAddress ⟨raw &&& ptePageMask⟩ = some region ↔ WholePage region (pageOf raw) := by
  have pages := region.page_multiple
  rw [MemRegion.ofAddress_eq_some, PhysicalRange.containsAddress_iff]
  simp only [toNat_pageMask, WholePage, pageOf, MemRegion.base]
  omega

theorem tableOf_eq_some {raw : U32} {table : PhysicalAddress} :
    Mmu.tableOf raw = some table ↔ NamesTable raw ∧ table = ⟨raw &&& ptePageMask⟩ := by
  have reserved : raw &&& ~~~pdeAllowedMask = 0#32 ↔ ∀ bit < 11, raw.getLsbD (bit + 1) = false := by
    have mask : ∀ bit < 32, (~~~pdeAllowedMask).getLsbD bit = decide (1 ≤ bit ∧ bit ≤ 11) := by
      decide
    rw [and_eq_zero_iff]
    constructor
    · intro clear bit bound
      exact clear (bit + 1) (by omega) (by rw [mask _ (by omega)]; simp; omega)
    · intro clear bit bound set
      rw [mask bit bound, decide_eq_true_iff] at set
      have lower := clear (bit - 1) (by omega)
      rwa [Nat.sub_add_cancel set.1] at lower
  have page : validatePageTablePage ⟨raw &&& ptePageMask⟩ = .ok () ↔
      0x4000_0000 ≤ pageOf raw ∧ pageOf raw + 4096 ≤ 0x4400_0000 := by
    rw [validatePageTablePage_ok]
    simp only [toNat_pageMask, pageOf]
    omega
  unfold Mmu.tableOf PageDirectoryEntry.new PageDirectoryEntry.tableAddress
  by_cases clear : raw &&& ~~~pdeAllowedMask = 0#32
  · by_cases valid : raw &&& pteValid = 0#32
    · have refuted : ¬ NamesTable raw := fun names => by
        have invalid := isValid_iff.mp valid
        rw [names.valid] at invalid
        cases invalid
      simp [clear, PageDirectoryEntry.isValid, valid, refuted, Except.toOption]
    · have names_iff : NamesTable raw ↔ validatePageTablePage ⟨raw &&& ptePageMask⟩ = .ok () :=
        ⟨fun names => page.mpr names.inRam, fun checked =>
          ⟨by simpa using mt isValid_iff.mpr valid, reserved.mp clear, page.mp checked⟩⟩
      rw [names_iff]
      cases checked : validatePageTablePage ⟨raw &&& ptePageMask⟩ with
      | error error =>
        simp [clear, PageDirectoryEntry.isValid, valid, checked, Except.toOption, bind, Except.bind]
      | ok done =>
        simp [clear, PageDirectoryEntry.isValid, valid, checked, Except.toOption, bind, Except.bind,
          pure, Except.pure, eq_comm (a := table)]
  · have refuted : ¬ NamesTable raw := fun names => clear (reserved.mpr names.reserved)
    simp [clear, refuted, Except.toOption]

theorem isDevice_page {raw : U32} :
    (MemRegion.ofAddress ⟨raw &&& ptePageMask⟩).any MemRegion.isDevice = true ↔
      ∃ region, WholePage region (pageOf raw) ∧ region.isDevice = true := by
  rw [Option.any_eq_true]
  exact exists_congr fun region => and_congr_left fun _ => ofAddress_page

theorem isMmuTargetPage_page {raw : U32} :
    isMmuTargetPage ⟨raw &&& ptePageMask⟩ = true ↔ ∃ region, WholePage region (pageOf raw) := by
  have aligned : (raw &&& ptePageMask).toNat % 4096 = 0 := by
    rw [toNat_pageMask]
    omega
  rw [isMmuTargetPage_iff, and_iff_right aligned]
  exact exists_congr fun region => ofAddress_page

/-! ### The checks of an entry -/

variable {raw : U32} {access : Access} {userMode : Bool}

theorem checkEntry_invalid (bad : raw.getLsbD 0 = false) :
    Mmu.checkEntry ⟨raw⟩ access userMode = .error .translation := by
  simp [Mmu.checkEntry, isValid_iff.mpr bad, throw, throwThe, MonadExceptOf.throw, bind, Except.bind]

/-- A valid entry is authorized exactly when its bits grant the access. -/
theorem authorize_valid (valid : raw.getLsbD 0 = true) :
    ((⟨raw⟩ : PageTableEntry).authorize access userMode = .ok () ↔ Grants raw access userMode) ∧
      (¬ Grants raw access userMode → (⟨raw⟩ : PageTableEntry).authorize access userMode =
        .error (.protection access)) := by
  have set := isValid_ne valid
  rw [← permits_iff]
  cases permits : (⟨raw⟩ : PageTableEntry).permissions.permits access userMode <;>
    simp [PageTableEntry.authorize, PageTableEntry.isValid, set, permits]

theorem checkEntry_denied (valid : raw.getLsbD 0 = true) (bad : ¬ Grants raw access userMode) :
    Mmu.checkEntry ⟨raw⟩ access userMode = .error (.protection access) := by
  have set := isValid_ne valid
  simp [Mmu.checkEntry, set, (authorize_valid valid).2 bad, bind, Except.bind]

/-- The checks left once the entry grants the access. -/
theorem checkEntry_granted (valid : raw.getLsbD 0 = true) (grants : Grants raw access userMode) :
    Mmu.checkEntry ⟨raw⟩ access userMode =
      if raw &&& pteUser ≠ 0#32 ∧
          (MemRegion.ofAddress ⟨raw &&& ptePageMask⟩).any MemRegion.isDevice then
        .error (.protection access)
      else Mmu.checkTarget (⟨raw⟩ : PageTableEntry).targetAddress.toOption.join access := by
  have set := isValid_ne valid
  have mask : ~~~0x0fff#32 = ptePageMask := by decide
  simp only [Mmu.checkEntry, set, ↓reduceIte, (authorize_valid valid).1.mpr grants, mask, bind,
    Except.bind, throw, throwThe, MonadExceptOf.throw]

theorem targetAddress_join (valid : raw.getLsbD 0 = true) (fine : ¬ UserDevice raw) :
    (⟨raw⟩ : PageTableEntry).targetAddress.toOption.join =
      if isMmuTargetPage ⟨raw &&& ptePageMask⟩ then some ⟨raw &&& ptePageMask⟩ else none := by
  have set := isValid_ne valid
  have user : (⟨raw⟩ : PageTableEntry).permissions.contains .user = raw.getLsbD 2 :=
    contains_iff (by decide)
  have harmless : ((MemRegion.ofAddress ⟨raw &&& ptePageMask⟩).any MemRegion.isDevice &&
      (⟨raw⟩ : PageTableEntry).permissions.contains .user) = false := by
    rw [Bool.and_eq_false_iff, or_iff_not_imp_left]
    intro device
    rw [user]
    exact Bool.eq_false_iff.mpr fun set =>
      fine ⟨set, isDevice_page.mp (by simpa using device)⟩
  cases page : isMmuTargetPage ⟨raw &&& ptePageMask⟩ <;>
    simp [PageTableEntry.targetAddress, PageTableEntry.isValid, set, page, harmless,
      Except.toOption]

/-- What the checks decide for an entry of a walk that reached it. -/
theorem checkEntry_refused {cause : FaultCause} (table : NamesTable pde)
    (refused : Refused pde raw access userMode cause) :
    Mmu.checkEntry ⟨raw⟩ access userMode = .error cause := by
  cases refused with
  | table bad => exact absurd table bad
  | invalid _ bad => exact checkEntry_invalid bad
  | permission _ valid bad => exact checkEntry_denied valid bad
  | userDevice _ valid bad =>
    by_cases grants : Grants raw access userMode
    · rw [checkEntry_granted valid grants, if_pos ⟨isUser_iff.mpr bad.1, isDevice_page.mpr bad.2⟩]
    · exact checkEntry_denied valid grants
  | target _ valid grants bad =>
    have fine : ¬ UserDevice raw := fun device => bad ⟨_, device.2.choose_spec.1⟩
    have notDevice := fun set : _ ∧ _ => fine ⟨isUser_iff.mp set.1, isDevice_page.mp set.2⟩
    have notPage := mt isMmuTargetPage_page.mp bad
    rw [checkEntry_granted valid grants, if_neg notDevice, targetAddress_join valid fine,
      if_neg notPage]
    rfl
  | rom _ valid grants fine bad =>
    have notDevice := fun set : _ ∧ _ => fine ⟨isUser_iff.mp set.1, isDevice_page.mp set.2⟩
    obtain ⟨isWrite, region, whole, rom⟩ := bad
    have located := ofAddress_page.mpr whole
    have protectedRom : access = .write ∧
        (MemRegion.ofAddress ⟨raw &&& ptePageMask⟩ = some .bootRom ∨
          MemRegion.ofAddress ⟨raw &&& ptePageMask⟩ = some .systemRom) := by
      rcases rom with rfl | rfl
      · exact ⟨isWrite, .inl located⟩
      · exact ⟨isWrite, .inr located⟩
    rw [checkEntry_granted valid grants, if_neg notDevice, targetAddress_join valid fine,
      if_pos (isMmuTargetPage_page.mpr ⟨region, whole⟩)]
    exact if_pos protectedRom

theorem checkEntry_permitted (permitted : Permitted pde raw access userMode) :
    Mmu.checkEntry ⟨raw⟩ access userMode = .ok ⟨raw &&& ptePageMask⟩ := by
  have notDevice := fun set : _ ∧ _ =>
    permitted.notUserDevice ⟨isUser_iff.mp set.1, isDevice_page.mp set.2⟩
  have notRom : ¬ (access = .write ∧
      (MemRegion.ofAddress ⟨raw &&& ptePageMask⟩ = some .bootRom ∨
        MemRegion.ofAddress ⟨raw &&& ptePageMask⟩ = some .systemRom)) := by
    rintro ⟨isWrite, rom | rom⟩
    · exact permitted.notRomWrite ⟨isWrite, _, ofAddress_page.mp rom, .inl rfl⟩
    · exact permitted.notRomWrite ⟨isWrite, _, ofAddress_page.mp rom, .inr rfl⟩
  rw [checkEntry_granted permitted.valid permitted.grants, if_neg notDevice,
    targetAddress_join permitted.valid permitted.notUserDevice,
    if_pos (isMmuTargetPage_page.mpr permitted.target)]
  exact if_neg notRom

/-! ### The walk -/

/-- The directory word the walk of an address starts from. -/
def directoryWord (mmu : Mmu) (memory : PhysicalMemory) (address : VirtualAddress) : U32 :=
  memory.ramWord (mmu.ttbr0.get.toNat + address.get.toNat / 2 ^ 22 * 4)

def entryPosition (pde : U32) (address : VirtualAddress) : Nat :=
  pageOf pde + address.get.toNat / 2 ^ 12 % 1024 * 4

/-- The table word selected by an address below a directory word. -/
def entryWord (memory : PhysicalMemory) (pde : U32) (address : VirtualAddress) : U32 :=
  memory.ramWord (entryPosition pde address)

/-- A page directory the platform accepts in TTBR0. -/
def Accepted (mmu : Mmu) : Prop :=
  Cp15Operation.ofTtbr0 mmu.ttbr0.get = .ok (.setTtbr0 mmu.ttbr0)

theorem accepted_iff {mmu : Mmu} : Accepted mmu ↔ mmu.ttbr0.get.toNat % 4096 = 0 ∧
    0x4000_0000 ≤ mmu.ttbr0.get.toNat ∧ mmu.ttbr0.get.toNat + 4096 ≤ 0x4400_0000 := by
  rw [Accepted, Cp15Operation.ofTtbr0, ← validatePageTablePage_ok]
  cases validatePageTablePage ⟨mmu.ttbr0.get⟩ <;>
    simp [bind, Except.bind, pure, Except.pure]

theorem toNat_index (value : U32) (shift : Nat) :
    ((value >>> shift) &&& 0x3ff#32).toNat = value.toNat / 2 ^ shift % 1024 := by
  rw [show 0x3ff#32 = BitVec.ofNat 32 (2 ^ 10 - 1) from rfl, toNat_and_low _ 10 (by decide),
    BitVec.toNat_ushiftRight, Nat.shiftRight_eq_div_pow]
  rfl

theorem toNat_directoryAddress {mmu : Mmu} (accepted : Accepted mmu) (address : VirtualAddress) :
    (mmu.directoryAddress address).get.toNat =
      mmu.ttbr0.get.toNat + address.get.toNat / 2 ^ 22 * 4 := by
  have window := accepted_iff.mp accepted
  have bound := address.get.isLt
  simp only [Mmu.directoryAddress, BitVec.toNat_add, BitVec.toNat_mul, toNat_index]
  simp only [BitVec.toNat_ofNat]
  omega

theorem directory_eq {mmu : Mmu} (accepted : Accepted mmu) (memory : PhysicalMemory)
    (address : VirtualAddress) :
    mmu.directory memory address = Mmu.tableOf (directoryWord mmu memory address) := by
  have window := accepted_iff.mp accepted
  have position := toNat_directoryAddress accepted address
  have bound := address.get.isLt
  rw [Mmu.directory, PhysicalMemory.readU32_ram memory (by omega) (by omega), position]
  rfl

theorem toNat_entryAddress {pde : U32} (table : NamesTable pde) (address : VirtualAddress) :
    (Mmu.entryAddress ⟨pde &&& ptePageMask⟩ address).get.toNat = entryPosition pde address := by
  have window := table.inRam
  have base : (pde &&& ptePageMask).toNat = pageOf pde := toNat_pageMask pde
  simp only [Mmu.entryAddress, BitVec.toNat_add, BitVec.toNat_mul, toNat_index, base,
    entryPosition]
  simp only [BitVec.toNat_ofNat]
  omega

theorem entryPosition_inRam {pde : U32} (table : NamesTable pde) (address : VirtualAddress) :
    0x4000_0000 ≤ entryPosition pde address ∧ entryPosition pde address + 4 ≤ 0x4400_0000 := by
  have window := table.inRam
  unfold entryPosition
  omega

theorem readU32_entry {pde : U32} (table : NamesTable pde) (memory : PhysicalMemory)
    (address : VirtualAddress) :
    memory.readU32 (Mmu.entryAddress ⟨pde &&& ptePageMask⟩ address) =
      .ok (entryWord memory pde address) := by
  have position := toNat_entryAddress table address
  have window := entryPosition_inRam table address
  rw [PhysicalMemory.readU32_ram memory (by omega) (by omega), position]
  rfl

theorem recordSuccessfulAccess_raw (raw : U32) (access : Access) :
    ((⟨raw⟩ : PageTableEntry).recordSuccessfulAccess access).raw = raw ||| metadata access := by
  cases access <;> simp [PageTableEntry.recordSuccessfulAccess, metadata, BitVec.or_assoc]

/-- The write-back succeeds and stores exactly the entry with its metadata set. -/
theorem recordAccess_stored {pde : U32} (table : NamesTable pde) (memory : PhysicalMemory)
    (address : VirtualAddress) (access : Access) :
    ∃ after, Mmu.recordAccess memory (Mmu.entryAddress ⟨pde &&& ptePageMask⟩ address)
        ⟨entryWord memory pde address⟩ access = some after ∧
      PhysicalMemory.Stored memory after (entryPosition pde address)
        (toBytes 4 (entryWord memory pde address ||| metadata access).toNat) := by
  have position := toNat_entryAddress table address
  have window := entryPosition_inRam table address
  unfold Mmu.recordAccess
  simp only [recordSuccessfulAccess_raw]
  by_cases same : entryWord memory pde address ||| metadata access = entryWord memory pde address
  · refine ⟨memory, by simp [same], ?_⟩
    rw [same]
    exact .refl memory (entryPosition pde address)
  · obtain ⟨after, written, stored⟩ := PhysicalMemory.regionSliceMut_ram memory
      (Mmu.entryAddress ⟨pde &&& ptePageMask⟩ address)
      (toBytes 4 (entryWord memory pde address ||| metadata access).toNat)
      (by omega) (by simp only [length_toBytes]; omega)
    refine ⟨after, ?_, position ▸ stored⟩
    rw [if_pos same, PhysicalMemory.writeU32, written]
    rfl

/-- The directory word a walk reads. Where nothing can be read the walk goes on as below zero, which
names no table. -/
def directoryRead (mmu : Mmu) (memory : PhysicalMemory) (address : VirtualAddress) : U32 :=
  (memory.readU32 (mmu.directoryAddress address)).toOption.getD 0#32

theorem directory_read (mmu : Mmu) (memory : PhysicalMemory) (address : VirtualAddress) :
    mmu.directory memory address = Mmu.tableOf (directoryRead mmu memory address) := by
  unfold Mmu.directory directoryRead
  cases memory.readU32 (mmu.directoryAddress address) with
  | error error =>
    have unnamed : Mmu.tableOf 0#32 = none := by decide
    exact unnamed.symm
  | ok word => rfl

/-- The walk of a permitted access reaches the page and records the access. -/
theorem walk_permitted {mmu : Mmu} {memory : PhysicalMemory} {address : VirtualAddress}
    (found : mmu.directory memory address = Mmu.tableOf pde)
    (permitted : Permitted pde (entryWord memory pde address) access userMode) :
    ∃ after, mmu.walk memory address access userMode =
        .ok (⟨(entryWord memory pde address &&& ptePageMask) ||| (address.get &&& 0xfff#32)⟩,
          after) ∧
      PhysicalMemory.Stored memory after (entryPosition pde address)
        (toBytes 4 (entryWord memory pde address ||| metadata access).toNat) := by
  have table := tableOf_eq_some.mpr ⟨permitted.table, rfl⟩
  obtain ⟨after, recorded, stored⟩ := recordAccess_stored permitted.table memory address access
  refine ⟨after, ?_, stored⟩
  simp only [Mmu.walk, found, table, readU32_entry permitted.table,
    checkEntry_permitted permitted, recorded]

theorem walk_refused {mmu : Mmu} {memory : PhysicalMemory} {address : VirtualAddress}
    {cause : FaultCause} (found : mmu.directory memory address = Mmu.tableOf pde)
    (refused : Refused pde (entryWord memory pde address) access userMode cause) :
    mmu.walk memory address access userMode = .error cause := by
  by_cases names : NamesTable pde
  · have table := tableOf_eq_some.mpr ⟨names, rfl⟩
    simp only [Mmu.walk, found, table, readU32_entry names, checkEntry_refused names refused]
  · have unnamed : Mmu.tableOf pde = none := by
      by_contra named
      obtain ⟨table, named⟩ := Option.ne_none_iff_exists'.mp named
      exact names (tableOf_eq_some.mp named).1
    cases refused with
    | table => simp only [Mmu.walk, found, unnamed]
    | _ => contradiction

/-- The word stored over a translated entry: the metadata of the access and nothing else. -/
theorem walk_eq {mmu : Mmu} {memory : PhysicalMemory} {address : VirtualAddress}
    (found : mmu.directory memory address = Mmu.tableOf pde) (access : Access) (userMode : Bool) :
    (∃ cause, Refused pde (entryWord memory pde address) access userMode cause ∧
      mmu.walk memory address access userMode = .error cause) ∨
    (Permitted pde (entryWord memory pde address) access userMode ∧
      ∃ after, mmu.walk memory address access userMode =
          .ok (⟨(entryWord memory pde address &&& ptePageMask) ||| (address.get &&& 0xfff#32)⟩,
            after) ∧
        PhysicalMemory.Stored memory after (entryPosition pde address)
          (toBytes 4 (entryWord memory pde address ||| metadata access).toNat)) := by
  rcases permitted_or_refused pde (entryWord memory pde address) access userMode with
    permitted | ⟨cause, refused⟩
  · exact .inr ⟨permitted, walk_permitted found permitted⟩
  · exact .inl ⟨cause, refused, walk_refused found refused⟩

/-- A cause and a permission exclude each other. -/
theorem Refused.not_permitted {cause : FaultCause} (refused : Refused pde pte access userMode cause) :
    ¬ Permitted pde pte access userMode := by
  intro permitted
  cases refused with
  | table bad => exact bad permitted.table
  | invalid _ bad =>
    rw [permitted.valid] at bad
    cases bad
  | permission _ _ bad => exact bad permitted.grants
  | userDevice _ _ bad => exact permitted.notUserDevice bad
  | target _ _ _ bad => exact bad permitted.target
  | rom _ _ _ _ bad => exact permitted.notRomWrite bad

/-- The cause is determined by the descriptor words and the access. -/
theorem Refused.unique {cause other : FaultCause} (first : Refused pde pte access userMode cause)
    (second : Refused pde pte access userMode other) : cause = other := by
  by_cases names : NamesTable pde
  · have left := checkEntry_refused names first
    rw [checkEntry_refused names second] at left
    exact (Except.error.inj left).symm
  · cases first with
    | table => cases second with
      | table => rfl
      | _ => contradiction
    | _ => contradiction

/-- The outcome of one translation, as the specification states it. -/
structure Refines (mmu : Mmu) (memory : PhysicalMemory) (address : VirtualAddress)
    (access : Access) (userMode : Bool) (pde pte : U32) (result : Except MmuFault PhysicalAddress)
    (mmu' : Mmu) (memory' : PhysicalMemory) : Prop where
  succeeds : (∃ target, result = .ok target) ↔ Permitted pde pte access userMode
  success : ∀ target, result = .ok target →
    target.get = (pte &&& 0xffff_f000#32) ||| (address.get &&& 0xfff#32) ∧ mmu' = mmu ∧
      PhysicalMemory.Stored memory memory' (entryPosition pde address)
        (toBytes 4 (pte ||| metadata access).toNat)
  failure : ∀ fault, result = .error fault →
    memory' = memory ∧ mmu' = { mmu with lastFault := some fault } ∧ fault.address = address ∧
      fault.status.fromUser = userMode ∧ fault.status.isWrite = (access == .write) ∧
      fault.status.isFetch = (access == .fetch) ∧
      ∃ cause, fault.status.cause = some cause ∧ Refused pde pte access userMode cause

/-- The walker refines the translation specification, for every memory content. -/
theorem translate_refines (mmu : Mmu) (memory : PhysicalMemory) (address : VirtualAddress)
    (access : Access) (userMode : Bool) (enabled : mmu.enabled = true)
    (accepted : Cp15Operation.ofTtbr0 mmu.ttbr0.get = .ok (.setTtbr0 mmu.ttbr0)) :
    Refines mmu memory address access userMode (directoryWord mmu memory address)
      (entryWord memory (directoryWord mmu memory address) address)
      (mmu.translate memory address access userMode).1
      (mmu.translate memory address access userMode).2.1
      (mmu.translate memory address access userMode).2.2 := by
  rcases walk_eq (directory_eq accepted memory address) access userMode with
    ⟨cause, refused, walked⟩ | ⟨permitted, after, walked, stored⟩
  · simp only [Mmu.translate, enabled, Bool.not_true, Bool.false_eq_true, ↓reduceIte, walked]
    obtain ⟨decoded, fromUser, isWrite, isFetch⟩ := FaultStatus.new_decodes cause userMode access
    refine ⟨⟨fun found => ?_, fun permitted => absurd permitted refused.not_permitted⟩,
      fun target found => ?_, fun fault found => ?_⟩
    · obtain ⟨target, impossible⟩ := found
      cases impossible
    · cases found
    · cases found
      exact ⟨rfl, rfl, rfl, fromUser, isWrite, isFetch, cause, decoded, refused⟩
  · simp only [Mmu.translate, enabled, Bool.not_true, Bool.false_eq_true, ↓reduceIte, walked]
    refine ⟨⟨fun _ => permitted, fun _ => ⟨_, rfl⟩⟩, fun target found => ?_, fun fault found => ?_⟩
    · cases found
      exact ⟨rfl, rfl, stored⟩
    · cases found

/-- Memory with one directory entry and one user page: `0x4000_1001` at the RAM
base and `0x4000_2017` at the table it names. -/
def onePage : PhysicalMemory where
  bootRom := fun _ => 0
  systemRom := fun _ => 0
  ram := fun index =>
    if index.val = 0 then 0x01 else if index.val = 1 then 0x10 else if index.val = 3 then 0x40
    else if index.val = 0x1000 then 0x17 else if index.val = 0x1001 then 0x20
    else if index.val = 0x1003 then 0x40 else 0

theorem onePage_word (position : Nat) (aligned : position % 4 = 0) :
    onePage.ramWord position = if position = 0x4000_0000 then 0x4000_1001#32
      else if position = 0x4000_1000 then 0x4000_2017#32 else 0#32 := by
  split
  · subst position
    decide
  · split
    · subst position
      decide
    · have blank (offset : Nat) (small : offset < 4) : onePage.ramByte (position + offset) = 0 := by
        unfold PhysicalMemory.ramByte
        split
        · simp only [onePage]
          repeat rw [if_neg (by omega)]
        · rfl
      have cells : (List.range 4).map (fun offset => onePage.ramByte (position + offset)) =
          [0, 0, 0, 0] :=
        List.map_congr_left fun offset member => blank offset (List.mem_range.mp member)
      rw [PhysicalMemory.ramWord, cells]
      rfl

/-- The walker that starts at the directory of `onePage`. -/
def onePageMmu : Mmu := ⟨true, ⟨ramBase⟩, ⟨0⟩, none⟩

/-- A user write through the one entry of `onePage`: it reaches the page and leaves the entry
Accessed and Dirty. -/
theorem translate_refines_onePage :
    Refines onePageMmu onePage ⟨0x14⟩ .write true (directoryWord onePageMmu onePage ⟨0x14⟩)
      (entryWord onePage (directoryWord onePageMmu onePage ⟨0x14⟩) ⟨0x14⟩)
      (onePageMmu.translate onePage ⟨0x14⟩ .write true).1
      (onePageMmu.translate onePage ⟨0x14⟩ .write true).2.1
      (onePageMmu.translate onePage ⟨0x14⟩ .write true).2.2 ∧
    (onePageMmu.translate onePage ⟨0x14⟩ .write true).1 = .ok ⟨0x4000_2014#32⟩ ∧
    (onePageMmu.translate onePage ⟨0x14⟩ .write true).2.2.ramWord 0x4000_1000 = 0x4000_2077#32 :=
  ⟨translate_refines onePageMmu onePage ⟨0x14⟩ .write true rfl (by decide), by decide, by decide⟩

end Minemu.Core.Translation
