import Minemu.Library.Runs
import Minemu.Core.Translation

/-! What unprivileged code can do to memory through the walker, over whole runs.
The walker itself writes into table memory, and the directory may be one of its
own tables. -/

namespace Minemu.Core.Isolation

open Library Platform Translation

/-- One unprivileged memory operation; it stays inside one page. -/
inductive UserOperation where
  | fetch (address : VirtualAddress)
  | readByte (address : VirtualAddress)
  | readWord (address : VirtualAddress) (inside : address.get.toNat % 4096 + 4 ≤ 4096)
  | writeByte (address : VirtualAddress) (value : U8)
  | writeWord (address : VirtualAddress) (value : U32)
      (inside : address.get.toNat % 4096 + 4 ≤ 4096)

namespace UserOperation

def address : UserOperation → VirtualAddress
  | fetch address | readByte address | readWord address _ | writeByte address _
  | writeWord address _ _ => address

def access : UserOperation → Access
  | fetch _ => .fetch
  | readByte _ | readWord _ _ => .read
  | writeByte _ _ | writeWord _ _ _ => .write

end UserOperation

structure UserState where
  mmu : Mmu
  memory : PhysicalMemory

namespace UserState

def translate (state : UserState) (address : VirtualAddress) (access : Access) :
    Except MmuFault PhysicalAddress × Mmu × PhysicalMemory :=
  state.mmu.translate state.memory address access true

/-- The store of an operation at its translated address; a refused store changes nothing. -/
def store (memory : PhysicalMemory) (target : PhysicalAddress) : UserOperation → PhysicalMemory
  | .writeByte _ value => (memory.writeU8 target value).toOption.getD memory
  | .writeWord _ value _ => (memory.writeU32 target value).toOption.getD memory
  | _ => memory

def step (state : UserState) (operation : UserOperation) : UserState :=
  match state.translate operation.address operation.access with
  | (.error _, mmu, memory) => ⟨mmu, memory⟩
  | (.ok target, mmu, memory) => ⟨mmu, store memory target operation⟩

end UserState

/-- The bits of an entry that the walker itself maintains. -/
def metadataMask : U32 := pteAccessed ||| pteDirty

def directoryEntry (mmu : Mmu) (memory : PhysicalMemory) (index : Nat) : U32 :=
  memory.ramWord (mmu.ttbr0.get.toNat + index * 4)

/-- A page named as a table by a valid directory entry. -/
def TablePage (mmu : Mmu) (memory : PhysicalMemory) (page : Nat) : Prop :=
  ∃ index < 1024, NamesTable (directoryEntry mmu memory index) ∧
    page = pageOf (directoryEntry mmu memory index)

/-- The position of a table entry reachable through a valid directory entry. -/
def Entry (mmu : Mmu) (memory : PhysicalMemory) (position : Nat) : Prop :=
  ∃ page, TablePage mmu memory page ∧ ∃ index < 1024, position = page + index * 4

/-- Valid, User and Writable are all set. -/
def UserWritable (pte : U32) : Prop :=
  pte.getLsbD 0 = true ∧ pte.getLsbD 2 = true ∧ pte.getLsbD 1 = true

/-- No reachable user-writable entry targets the directory or a table. -/
def Confined (mmu : Mmu) (memory : PhysicalMemory) : Prop :=
  ∀ position, Entry mmu memory position → UserWritable (memory.ramWord position) →
    pageOf (memory.ramWord position) ≠ mmu.ttbr0.get.toNat ∧
      ¬ TablePage mmu memory (pageOf (memory.ramWord position))

/-- An address in the target page of a reachable user-writable entry. -/
def UserTarget (mmu : Mmu) (memory : PhysicalMemory) (address : Nat) : Prop :=
  ∃ position, Entry mmu memory position ∧ UserWritable (memory.ramWord position) ∧
    address / 4096 * 4096 = pageOf (memory.ramWord position)

def InEntry (mmu : Mmu) (memory : PhysicalMemory) (address : Nat) : Prop :=
  ∃ position, Entry mmu memory position ∧ position ≤ address ∧ address < position + 4

/-- Two words that differ at most in the metadata of a user entry. -/
structure SameMapping (before after : U32) : Prop where
  same : after &&& ~~~metadataMask = before &&& ~~~metadataMask
  user : after = before ∨ before.getLsbD 2 = true

/-- What a run of user operations keeps of the memory it started from. -/
structure Isolated (mmu : Mmu) (memory : PhysicalMemory) (state : UserState) : Prop where
  enabled : state.mmu.enabled = true
  ttbr0 : state.mmu.ttbr0 = mmu.ttbr0
  bootRom : state.memory.bootRom = memory.bootRom
  systemRom : state.memory.systemRom = memory.systemRom
  entries : ∀ position, Entry mmu memory position →
    SameMapping (memory.ramWord position) (state.memory.ramWord position)
  bytes : ∀ address, state.memory.ramByte address ≠ memory.ramByte address →
    UserTarget mmu memory address ∨ InEntry mmu memory address

/-- Two words that differ at most in the metadata. -/
def Alike (before after : U32) : Prop := after &&& ~~~metadataMask = before &&& ~~~metadataMask

namespace Alike

variable {before after : U32}

theorem bit (alike : Alike before after) (index : Nat) (kept : index < 32)
    (notAccessed : index ≠ 5) (notDirty : index ≠ 6) :
    after.getLsbD index = before.getLsbD index := by
  have visible : (~~~metadataMask).getLsbD index = true := by
    have mask : ∀ index < 32, index ≠ 5 → index ≠ 6 →
        (~~~metadataMask).getLsbD index = true := by decide
    exact mask index kept notAccessed notDirty
  have through := congrArg (BitVec.getLsbD · index) alike
  simpa only [BitVec.getLsbD_and, visible, Bool.and_true] using through

theorem pageMask (alike : Alike before after) : after &&& ptePageMask = before &&& ptePageMask :=
  and_congr_of_disjoint alike (by decide)

theorem page (alike : Alike before after) : pageOf after = pageOf before := by
  rw [pageOf, ← toNat_pageMask, alike.pageMask, toNat_pageMask]
  rfl

theorem grants (alike : Alike before after) :
    Grants after access userMode ↔ Grants before access userMode := by
  have access_bit : after.getLsbD (accessBit access) = before.getLsbD (accessBit access) := by
    cases access <;> exact alike.bit _ (by decide) (by decide) (by decide)
  rw [Grants, Grants, access_bit, alike.bit 2 (by decide) (by decide) (by decide)]

theorem userDevice (alike : Alike before after) : UserDevice after ↔ UserDevice before := by
  rw [UserDevice, UserDevice, alike.page, alike.bit 2 (by decide) (by decide) (by decide)]

theorem romWrite (alike : Alike before after) : RomWrite after access ↔ RomWrite before access := by
  rw [RomWrite, RomWrite, alike.page]

/-- Metadata never decides whether an access is permitted. -/
theorem permitted (alike : Alike before after) :
    Permitted pde after access userMode ↔ Permitted pde before access userMode := by
  have valid := alike.bit 0 (by decide) (by decide) (by decide)
  constructor
  · intro ⟨table, set, grants, target, device, rom⟩
    exact ⟨table, valid ▸ set, alike.grants.mp grants, alike.page ▸ target,
      mt alike.userDevice.mpr device, mt alike.romWrite.mpr rom⟩
  · intro ⟨table, set, grants, target, device, rom⟩
    exact ⟨table, valid.trans set, alike.grants.mpr grants, alike.page.symm ▸ target,
      mt alike.userDevice.mp device, mt alike.romWrite.mp rom⟩

/-- Nor with which cause it is refused. -/
theorem refused (alike : Alike before after) (refused : Refused pde before access userMode cause) :
    Refused pde after access userMode cause := by
  have valid := alike.bit 0 (by decide) (by decide) (by decide)
  cases refused with
  | table bad => exact .table bad
  | invalid table bad => exact .invalid table (valid.trans bad)
  | permission table set bad => exact .permission table (valid.trans set) (mt alike.grants.mp bad)
  | userDevice table set bad =>
    exact .userDevice table (valid.trans set) (alike.userDevice.mpr bad)
  | target table set grants bad =>
    exact .target table (valid.trans set) (alike.grants.mpr grants) (alike.page.symm ▸ bad)
  | rom table set grants fine bad =>
    exact .rom table (valid.trans set) (alike.grants.mpr grants) (mt alike.userDevice.mp fine)
      (alike.romWrite.mpr bad)

/-- A word with a permission bit is no directory entry, whatever its metadata. -/
theorem unnamed (alike : Alike before after) {permission : Nat}
    (field : 1 ≤ permission ∧ permission ≤ 4) (set : before.getLsbD permission = true) :
    ¬ NamesTable before ∧ ¬ NamesTable after := by
  have reserved {word : U32} (table : NamesTable word) : word.getLsbD permission = false := by
    have clear := table.reserved (permission - 1) (by omega)
    rwa [Nat.sub_add_cancel field.1] at clear
  have setAfter := (alike.bit permission (by omega) (by omega) (by omega)).trans set
  constructor
  · intro table
    rw [reserved table] at set
    cases set
  · intro table
    rw [reserved table] at setAfter
    cases setAfter

theorem record (alike : Alike before after) (access : Access) :
    Alike before (after ||| metadata access) := by
  have subset : metadata access &&& ~~~metadataMask = 0#32 := by cases access <;> decide
  exact (or_and_not_of_subset subset).trans alike

end Alike

namespace SameMapping

variable {before after : U32}

theorem alike (mapping : SameMapping before after) : Alike before after := mapping.same

theorem userWritable (mapping : SameMapping before after) (writable : UserWritable after) :
    UserWritable before :=
  ⟨(mapping.alike.bit 0 (by decide) (by decide) (by decide)) ▸ writable.1,
    (mapping.alike.bit 2 (by decide) (by decide) (by decide)) ▸ writable.2.1,
    (mapping.alike.bit 1 (by decide) (by decide) (by decide)) ▸ writable.2.2⟩

/-- An entry that changed has its User bit set, so it is no directory entry. -/
theorem names (mapping : SameMapping before after) :
    after = before ∨ (¬ NamesTable before ∧ ¬ NamesTable after) := by
  rcases mapping.user with same | user
  · exact .inl same
  · exact .inr (mapping.alike.unnamed (by decide) user)

theorem record (mapping : SameMapping before after) (user : after.getLsbD 2 = true)
    (access : Access) : SameMapping before (after ||| metadata access) := by
  refine ⟨mapping.alike.record access, .inr ?_⟩
  exact (mapping.alike.bit 2 (by decide) (by decide) (by decide)) ▸ user

end SameMapping

/-! ### Directory and tables during a run -/

variable {mmu : Mmu} {memory : PhysicalMemory} {state : UserState}

theorem directoryIndex_lt (address : VirtualAddress) : address.get.toNat / 2 ^ 22 < 1024 := by
  have bound := address.get.isLt
  omega

theorem pageOf_multiple (raw : U32) : pageOf raw % 4096 = 0 := by
  unfold pageOf
  omega

theorem TablePage.multiple {page : Nat} (table : TablePage mmu memory page) : page % 4096 = 0 := by
  obtain ⟨index, _, _, rfl⟩ := table
  exact pageOf_multiple _

/-- The entry a walk selects below a valid directory entry. -/
theorem entry_of_names {address : VirtualAddress}
    (table : NamesTable (directoryWord mmu memory address)) :
    Entry mmu memory (entryPosition (directoryWord mmu memory address) address) :=
  ⟨_, ⟨_, directoryIndex_lt address, table, rfl⟩, address.get.toNat / 2 ^ 12 % 1024, by omega, rfl⟩

/-- Distinct entries occupy distinct words. -/
theorem Entry.apart {first second : Nat} (left : Entry mmu memory first)
    (right : Entry mmu memory second) (different : first ≠ second) :
    first + 4 ≤ second ∨ second + 4 ≤ first := by
  obtain ⟨page, table, index, bound, rfl⟩ := left
  obtain ⟨page', table', index', bound', rfl⟩ := right
  have aligned := table.multiple
  have aligned' := table'.multiple
  omega

theorem InEntry.tablePage {address : Nat} (inside : InEntry mmu memory address) :
    TablePage mmu memory (address / 4096 * 4096) := by
  obtain ⟨position, ⟨page, table, index, bound, rfl⟩, low, high⟩ := inside
  have aligned := table.multiple
  have same : address / 4096 * 4096 = page := by omega
  exact same ▸ table

namespace Isolated

/-- A valid directory entry is never changed, and no invalid one becomes valid. -/
theorem directory (accepted : Accepted mmu) (confined : Confined mmu memory)
    (isolated : Isolated mmu memory state) (index : Nat) (bound : index < 1024) :
    directoryEntry state.mmu state.memory index = directoryEntry mmu memory index ∨
      (¬ NamesTable (directoryEntry mmu memory index) ∧
        ¬ NamesTable (directoryEntry state.mmu state.memory index)) := by
  have window := accepted_iff.mp accepted
  simp only [directoryEntry, isolated.ttbr0]
  by_cases recursive : TablePage mmu memory mmu.ttbr0.get.toNat
  · exact (isolated.entries _ ⟨_, recursive, index, bound, rfl⟩).names
  · refine .inl (PhysicalMemory.ramWord_congr fun offset small => ?_)
    by_contra changed
    have page : (mmu.ttbr0.get.toNat + index * 4 + offset) / 4096 * 4096 =
        mmu.ttbr0.get.toNat := by omega
    rcases isolated.bytes _ changed with ⟨position, entry, writable, target⟩ | inside
    · exact (confined position entry writable).1 (target.symm.trans page)
    · exact recursive (page ▸ inside.tablePage)

theorem sameTable (accepted : Accepted mmu) (confined : Confined mmu memory)
    (isolated : Isolated mmu memory state) (address : VirtualAddress) :
    directoryWord state.mmu state.memory address = directoryWord mmu memory address ∨
      (¬ NamesTable (directoryWord mmu memory address) ∧
        ¬ NamesTable (directoryWord state.mmu state.memory address)) :=
  isolated.directory accepted confined _ (directoryIndex_lt address)

theorem accepted_state (accepted : Accepted mmu) (isolated : Isolated mmu memory state) :
    Accepted state.mmu := by
  rw [Accepted, isolated.ttbr0]
  exact accepted

/-- Every translation has the outcome it had at the start of the run. -/
theorem outcome (enabled : mmu.enabled = true) (accepted : Accepted mmu)
    (confined : Confined mmu memory) (isolated : Isolated mmu memory state)
    (address : VirtualAddress) (access : Access) :
    (state.translate address access).1 = (mmu.translate memory address access true).1 := by
  have later := isolated.accepted_state accepted
  have finish {cause : FaultCause}
      (first : mmu.walk memory address access true = .error cause)
      (second : state.mmu.walk state.memory address access true = .error cause) :
      (state.translate address access).1 = (mmu.translate memory address access true).1 := by
    simp [UserState.translate, Mmu.translate, enabled, isolated.enabled, first, second]
  rcases isolated.sameTable accepted confined address with same | ⟨before, after⟩
  · by_cases names : NamesTable (directoryWord mmu memory address)
    · have mapping : SameMapping (entryWord memory (directoryWord mmu memory address) address)
          (entryWord state.memory (directoryWord state.mmu state.memory address) address) := by
        rw [same]
        exact isolated.entries _ (entry_of_names names)
      rcases walk_eq (directory_eq accepted memory address) access true with
        ⟨cause, refused, walked⟩ | ⟨permitted, final, walked, _⟩
      · have stays := mapping.alike.refused refused
        rw [← same] at stays
        exact finish walked (walk_refused (directory_eq later state.memory address) stays)
      · have stays := mapping.alike.permitted.mpr permitted
        rw [← same] at stays
        obtain ⟨final', walked', _⟩ := walk_permitted (directory_eq later state.memory address) stays
        simp [UserState.translate, Mmu.translate, enabled, isolated.enabled, walked, walked',
          mapping.alike.pageMask]
    · exact finish (walk_refused (directory_eq accepted memory address) (.table names))
        (walk_refused (directory_eq later state.memory address) (.table (same ▸ names)))
  · exact finish (walk_refused (directory_eq accepted memory address) (.table before))
      (walk_refused (directory_eq later state.memory address) (.table after))

/-- Recording a user access keeps the invariant. -/
theorem record (isolated : Isolated mmu memory state) {position : Nat}
    (entry : Entry mmu memory position)
    (user : (state.memory.ramWord position).getLsbD 2 = true) {after : PhysicalMemory}
    (stored : PhysicalMemory.Stored state.memory after position
      (toBytes 4 (state.memory.ramWord position ||| metadata access).toNat)) :
    Isolated mmu memory ⟨state.mmu, after⟩ := by
  refine ⟨isolated.enabled, isolated.ttbr0, stored.bootRom.trans isolated.bootRom,
    stored.systemRom.trans isolated.systemRom, fun other reachable => ?_, fun address changed => ?_⟩
  · by_cases same : other = position
    · subst same
      rw [stored.ramWord_same]
      exact (isolated.entries _ entry).record user access
    · have apart := reachable.apart entry same
      rw [stored.ramWord_apart (by simpa using apart)]
      exact isolated.entries other reachable
  · by_cases inside : position ≤ address ∧ address < position + 4
    · exact .inr ⟨position, entry, inside⟩
    · refine isolated.bytes address fun same => changed ?_
      rw [← same]
      exact stored.outside address (by simp only [length_toBytes]; omega)

/-- A store inside the target page of a user-writable entry keeps the invariant. -/
theorem store (confined : Confined mmu memory) (isolated : Isolated mmu memory state)
    {position start : Nat} {bytes : List U8} {after : PhysicalMemory}
    (entry : Entry mmu memory position) (writable : UserWritable (memory.ramWord position))
    (page : start / 4096 * 4096 = pageOf (memory.ramWord position))
    (inside : start % 4096 + bytes.length ≤ 4096)
    (stored : PhysicalMemory.Stored state.memory after start bytes) :
    Isolated mmu memory ⟨state.mmu, after⟩ := by
  refine ⟨isolated.enabled, isolated.ttbr0, stored.bootRom.trans isolated.bootRom,
    stored.systemRom.trans isolated.systemRom, fun other reachable => ?_, fun address changed => ?_⟩
  · have apart : other + 4 ≤ start ∨ start + bytes.length ≤ other := by
      obtain ⟨table, named, index, bound, rfl⟩ := reachable
      have aligned := named.multiple
      have different : table ≠ start / 4096 * 4096 := by
        intro same
        rw [same, page] at named
        exact (confined position entry writable).2 named
      omega
    rw [stored.ramWord_apart apart]
    exact isolated.entries other reachable
  · by_cases touched : start ≤ address ∧ address < start + bytes.length
    · have quotient : address / 4096 = start / 4096 := by omega
      exact .inl ⟨position, entry, writable, by rw [quotient, page]⟩
    · refine isolated.bytes address fun same => changed ?_
      rw [← same]
      exact stored.outside address (by omega)

end Isolated

/-! ### Runs -/

/-- The bytes an operation stores are inside the page of its address. -/
theorem store_cases (memory : PhysicalMemory) (target : PhysicalAddress) (operation : UserOperation) :
    UserState.store memory target operation = memory ∨
      (operation.access = .write ∧ ∃ bytes,
        operation.address.get.toNat % 4096 + bytes.length ≤ 4096 ∧
        PhysicalMemory.Stored memory (UserState.store memory target operation)
          target.get.toNat bytes) := by
  have attempt (bytes : List U8) {after : Except CoreError PhysicalMemory}
      (result : memory.regionSliceMut target bytes = after) :
      after.toOption.getD memory = memory ∨
        PhysicalMemory.Stored memory (after.toOption.getD memory) target.get.toNat bytes := by
    cases after with
    | error error => exact .inl rfl
    | ok stored => exact .inr (PhysicalMemory.regionSliceMut_inv result).2.2
  cases operation with
  | fetch | readByte | readWord => exact .inl rfl
  | writeByte address value =>
    refine (attempt [value] rfl).imp id fun stored => ⟨rfl, _, ?_, stored⟩
    simp only [UserOperation.address, List.length_singleton]
    omega
  | writeWord address value inside =>
    refine (attempt (toBytes 4 value.toNat) rfl).imp id fun stored => ⟨rfl, _, ?_, stored⟩
    simpa only [UserOperation.address, length_toBytes] using inside

/-- The page of a translated address is the page its entry names. -/
theorem target_page (pte : U32) (address : VirtualAddress) :
    ((pte &&& ptePageMask) ||| (address.get &&& 0xfff#32)).toNat / 4096 * 4096 = pageOf pte ∧
      ((pte &&& ptePageMask) ||| (address.get &&& 0xfff#32)).toNat % 4096 =
        address.get.toNat % 4096 := by
  have base := toNat_pageMask pte
  have offset : (address.get &&& 0xfff#32).toNat = address.get.toNat % 4096 :=
    toNat_and_low address.get 12 (by decide)
  have sum := toNat_or_low (pte &&& ptePageMask) (address.get &&& 0xfff#32) 12 (by omega) (by omega)
  rw [sum, base, offset, pageOf]
  omega

namespace Isolated

variable {mmu : Mmu} {memory : PhysicalMemory} {state : UserState}

theorem initial (enabled : mmu.enabled = true) : Isolated mmu memory ⟨mmu, memory⟩ :=
  ⟨enabled, rfl, rfl, rfl, fun _ _ => ⟨rfl, .inl rfl⟩, fun _ changed => absurd rfl changed⟩

/-- Every user operation keeps the invariant. -/
theorem step (accepted : Accepted mmu) (confined : Confined mmu memory)
    (isolated : Isolated mmu memory state) (operation : UserOperation) :
    Isolated mmu memory (state.step operation) := by
  have later := isolated.accepted_state accepted
  rcases walk_eq (directory_eq later state.memory operation.address) operation.access true with
    ⟨cause, _, walked⟩ | ⟨permitted, after, walked, recorded⟩
  · simp only [UserState.step, UserState.translate, Mmu.translate, isolated.enabled, walked,
      Bool.not_true, Bool.false_eq_true, ↓reduceIte]
    exact ⟨isolated.enabled, isolated.ttbr0, isolated.bootRom, isolated.systemRom,
      isolated.entries, isolated.bytes⟩
  · simp only [UserState.step, UserState.translate, Mmu.translate, isolated.enabled, walked,
      Bool.not_true, Bool.false_eq_true, ↓reduceIte]
    have same : directoryWord state.mmu state.memory operation.address =
        directoryWord mmu memory operation.address :=
      (isolated.sameTable accepted confined operation.address).resolve_right
        fun unnamed => unnamed.2 permitted.table
    rw [same] at permitted recorded ⊢
    have entry := entry_of_names permitted.table
    have mapping := isolated.entries _ entry
    have kept := isolated.record entry (permitted.grants.2 rfl) recorded
    rcases store_cases after _ operation with unchanged | ⟨isWrite, bytes, inside, stored⟩
    · rw [unchanged]
      exact kept
    · obtain ⟨page, offset⟩ := target_page
        (entryWord state.memory (directoryWord mmu memory operation.address) operation.address)
        operation.address
      have writable := permitted.grants.1
      rw [isWrite] at writable
      refine kept.store confined entry
        (mapping.userWritable ⟨permitted.valid, permitted.grants.2 rfl, writable⟩)
        (page.trans mapping.alike.page) ?_ stored
      rw [offset]
      exact inside

end Isolated

/-- An unprivileged translation never reaches a device page. -/
theorem translated_not_device {state : UserState} (enabled : state.mmu.enabled = true)
    (accepted : Accepted state.mmu) {target : PhysicalAddress}
    (translated : (state.translate address access).1 = .ok target)
    {other : PhysicalAddress} (page : other.get.toNat / 4096 = target.get.toNat / 4096)
    {region : MemRegion} (inside : MemRegion.ofAddress other = some region) :
    region.isDevice = false := by
  rcases walk_eq (directory_eq accepted state.memory address) access true with
    ⟨cause, _, walked⟩ | ⟨permitted, after, walked, _⟩
  · simp [UserState.translate, Mmu.translate, enabled, walked] at translated
  · simp only [UserState.translate, Mmu.translate, enabled, walked, Bool.not_true,
      Bool.false_eq_true, ↓reduceIte, Except.ok.injEq] at translated
    subst translated
    obtain ⟨same, _⟩ := target_page
      (entryWord state.memory (directoryWord state.mmu state.memory address) address) address
    have window := MemRegion.ofAddress_eq_some.mp inside
    have pages := region.page_multiple
    rw [PhysicalRange.containsAddress_iff] at window
    refine Bool.eq_false_iff.mpr fun device => permitted.notUserDevice
      ⟨permitted.grants.2 rfl, region, ?_, device⟩
    rw [← same, WholePage, MemRegion.base]
    simp only at page
    omega

/-- User-mode isolation: no run of user operations changes a translation, reaches
a device, or changes a byte outside user-writable pages other than entry metadata. -/
theorem user_isolation (mmu : Mmu) (memory : PhysicalMemory) (enabled : mmu.enabled = true)
    (accepted : Cp15Operation.ofTtbr0 mmu.ttbr0.get = .ok (.setTtbr0 mmu.ttbr0))
    (confined : Confined mmu memory) (operations : List UserOperation) :
    (∀ address access,
      ((run UserState.step ⟨mmu, memory⟩ operations).translate address access).1 =
        (mmu.translate memory address access true).1) ∧
    (∀ state ∈ visited UserState.step ⟨mmu, memory⟩ operations, ∀ address access target,
      (state.translate address access).1 = .ok target →
      ∀ other : PhysicalAddress, other.get.toNat / 4096 = target.get.toNat / 4096 →
      ∀ region, MemRegion.ofAddress other = some region → region.isDevice = false) ∧
    (run UserState.step ⟨mmu, memory⟩ operations).memory.bootRom = memory.bootRom ∧
    (run UserState.step ⟨mmu, memory⟩ operations).memory.systemRom = memory.systemRom ∧
    ∀ address, (run UserState.step ⟨mmu, memory⟩ operations).memory.ramByte address ≠
        memory.ramByte address →
      UserTarget mmu memory address ∨
      ∃ position, Entry mmu memory position ∧ position ≤ address ∧ address < position + 4 ∧
        (run UserState.step ⟨mmu, memory⟩ operations).memory.ramWord position &&&
            ~~~(pteAccessed ||| pteDirty) =
          memory.ramWord position &&& ~~~(pteAccessed ||| pteDirty) := by
  have preserved (state : UserState) (operation : UserOperation) (_ : True)
      (isolated : Isolated mmu memory state) : Isolated mmu memory (state.step operation) :=
    isolated.step accepted confined operation
  have final := run_invariant preserved ⟨mmu, memory⟩ operations (.initial enabled) fun _ _ => trivial
  have always := visited_invariant preserved ⟨mmu, memory⟩ operations (.initial enabled)
    fun _ _ => trivial
  refine ⟨fun address access => final.outcome enabled accepted confined address access,
    fun state member address access target translated other page region inside => ?_,
    final.bootRom, final.systemRom, fun address changed => ?_⟩
  · have isolated := always state member
    exact translated_not_device isolated.enabled (isolated.accepted_state accepted) translated page
      inside
  · rcases final.bytes address changed with target | ⟨position, entry, low, high⟩
    · exact .inl target
    · exact .inr ⟨position, entry, low, high, (final.entries position entry).same⟩

theorem onePage_confined : Confined ⟨true, ⟨ramBase⟩, ⟨0⟩, none⟩ onePage := by
  have base : (⟨ramBase⟩ : PhysicalAddress).get.toNat = 0x4000_0000 := by decide
  have named {page : Nat} (table : TablePage ⟨true, ⟨ramBase⟩, ⟨0⟩, none⟩ onePage page) :
      page = 0x4000_1000 := by
    obtain ⟨index, bound, names, rfl⟩ := table
    have word := onePage_word (0x4000_0000 + index * 4) (by omega)
    simp only [directoryEntry, base] at names ⊢
    rw [word, if_neg (c := 0x4000_0000 + index * 4 = 0x4000_1000) (by omega)] at names ⊢
    split at names
    · rw [if_pos ‹_›]
      decide
    · exact absurd names.valid (by decide)
  intro position entry writable
  obtain ⟨page, table, index, bound, rfl⟩ := entry
  have page := named table
  subst page
  have word := onePage_word (0x4000_1000 + index * 4) (by omega)
  rw [if_neg (by omega)] at word
  rw [word] at writable ⊢
  split at writable
  · rw [if_pos ‹_›]
    exact ⟨by decide, fun target => absurd (named target) (by decide)⟩
  · exact absurd writable.1 (by decide)

/-- After a store through that page and one to an unmapped address, a later word of
the page still translates as before. -/
theorem user_isolation_onePage :
    ((run UserState.step ⟨⟨true, ⟨ramBase⟩, ⟨0⟩, none⟩, onePage⟩
        [.writeWord ⟨0x10⟩ 0xdead_beef (by decide), .writeByte ⟨0x5000⟩ 1]).translate
          ⟨0x14⟩ .read).1 =
      ((⟨true, ⟨ramBase⟩, ⟨0⟩, none⟩ : Mmu).translate onePage ⟨0x14⟩ .read true).1 :=
  (user_isolation ⟨true, ⟨ramBase⟩, ⟨0⟩, none⟩ onePage rfl (by decide) onePage_confined
    [.writeWord ⟨0x10⟩ 0xdead_beef (by decide), .writeByte ⟨0x5000⟩ 1]).1 ⟨0x14⟩ .read

end Minemu.Core.Isolation
