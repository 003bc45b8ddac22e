import Minemu.Core.DeviceReads
import Minemu.Core.Isolation
import Minemu.Core.Lookup
import Minemu.Library.Fallible
import Minemu.Unicorn.Inspection

/-! The lookups of a host inspection. Inspection through the guest's translation uses the callback
the guest's own accesses use, which marks table entries and records faults. -/

namespace Minemu.Core.PhysicalMemory

open Library Platform Translation

/-- Nothing but RAM bits that were clear has changed. -/
structure Grows (before after : PhysicalMemory) : Prop where
  bootRom : after.bootRom = before.bootRom
  systemRom : after.systemRom = before.systemRom
  ram : ∀ address, (before.ramByte address).toNat ≤ (after.ramByte address).toNat

namespace Grows

variable {first second third : PhysicalMemory}

theorem refl (memory : PhysicalMemory) : Grows memory memory := ⟨rfl, rfl, fun _ => le_rfl⟩

theorem trans (before : Grows first second) (after : Grows second third) : Grows first third where
  bootRom := after.bootRom.trans before.bootRom
  systemRom := after.systemRom.trans before.systemRom
  ram address := (before.ram address).trans (after.ram address)

/-- Growth that is undone was no growth. -/
theorem antisymm (there : Grows first second) (back : Grows second first) : second = first := by
  apply ext_ramByte there.bootRom there.systemRom
  intro address
  exact BitVec.eq_of_toNat_eq ((back.ram address).antisymm (there.ram address))

/-- Setting bits of one word grows memory. -/
theorem stored {memory after : PhysicalMemory} {position : Nat} {mask : U32}
    (stored : Stored memory after position
      (toBytes 4 (memory.ramWord position ||| mask).toNat)) : Grows memory after := by
  refine ⟨stored.bootRom, stored.systemRom, fun address => ?_⟩
  by_cases entry : position ≤ address ∧ address < position + 4
  · obtain ⟨index, rfl⟩ := Nat.exists_eq_add_of_le entry.1
    have bound : index < 4 := by omega
    have before := (Stored.refl memory position).inside index (by simpa using bound)
    have after := stored.inside index (by simpa using bound)
    have bits := toBytes_or_le 4 (memory.ramWord position).toNat mask.toNat index
    rw [← BitVec.toNat_or] at bits
    rw [before, after]
    simpa [List.getD_eq_getElem?_getD, bound] using bits
  · rw [stored.outside address (by rw [length_toBytes]; omega)]

/-- A translation sets bits of the entry it goes through. -/
theorem translate (mmu : Mmu) (memory : PhysicalMemory) (address : VirtualAddress)
    (access : Access) (userMode : Bool) :
    Grows memory (mmu.translate memory address access userMode).2.2 := by
  rcases refused_or_reaches mmu memory address access userMode with
    ⟨cause, enabled, refused⟩ | ⟨physical, reaches⟩
  · rw [translate_refused enabled refused]
    exact refl memory
  · obtain ⟨after, translated, direct, mapped⟩ := translate_reaches reaches
    rw [translated]
    cases enabled : mmu.enabled with
    | false =>
      rw [direct enabled]
      exact refl memory
    | true => exact stored (mapped enabled)

end Grows

end Minemu.Core.PhysicalMemory

namespace Minemu.Core.Translation

open Platform

/-- The address an access is for has the offset in the page that was asked for. -/
theorem Reaches.offset {mmu : Mmu} {memory : PhysicalMemory} {address : VirtualAddress}
    {access : Access} {userMode : Bool} {physical : PhysicalAddress}
    (reaches : Reaches mmu memory address access userMode physical) :
    physical.get.toNat % 4096 = address.get.toNat % 4096 := by
  cases reaches with
  | direct _ => rfl
  | mapped _ _ => exact (Isolation.target_page _ address).2

end Minemu.Core.Translation

namespace Minemu.Unicorn

open Library Platform Minemu.Core

/-- The register a read callback reads, if it reaches one. -/
def decodeRead (read : U32 × Nat) : Option MmioRegister :=
  (MmioWidth.ofBytes read.2).bind fun width =>
    (decodeMmio (.read ⟨UnicornBackend.mmioBase + read.1⟩ width)).toOption

/-- Addresses of one page are in one region. -/
theorem ofAddress_samePage (first second : PhysicalAddress)
    (page : first.get.toNat / 4096 = second.get.toNat / 4096) :
    MemRegion.ofAddress first = MemRegion.ofAddress second := by
  have moved (left right : PhysicalAddress) (page : left.get.toNat / 4096 = right.get.toNat / 4096)
      (region : MemRegion) (found : MemRegion.ofAddress left = some region) :
      MemRegion.ofAddress right = some region := by
    have bounds := region.page_multiple
    rw [MemRegion.ofAddress_eq_some, PhysicalRange.containsAddress_iff] at found ⊢
    omega
  cases found : MemRegion.ofAddress first with
  | some region => exact (moved first second page region found).symm
  | none =>
    cases other : MemRegion.ofAddress second with
    | none => rfl
    | some region =>
      rw [moved second first page.symm region other] at found
      cases found

theorem device_of_decode {transaction : MmioTransaction} {register : MmioRegister}
    (decoded : decodeMmio transaction = .ok register) :
    (MemRegion.ofAddress transaction.address).any MemRegion.isDevice = true := by
  cases located : MemRegion.ofAddress transaction.address with
  | none =>
    simp only [decodeMmio, located] at decoded
    split at decoded
    · cases decoded
    · split at decoded
      · cases decoded
      · split at decoded <;> cases decoded
  | some region =>
    cases region with
    | bootRom | systemRom | ram =>
      simp only [decodeMmio, located, MmioRegister.decode] at decoded
      split at decoded
      · cases decoded
      · split at decoded
        · cases decoded
        · split at decoded <;> cases decoded
    | interruptController | sysTick | dma | rng | uart0 | uart1 | trace => rfl

namespace Inspector

/-- The registers a read of a range reads. -/
def registersRead (inspector : Inspector) (machine : Machine) (address : PhysicalAddress)
    (length : Nat) : List MmioRegister :=
  (inspector.memRead machine address length).1.filterMap decodeRead

/-- `mem_read` keeps to its range and reads no register twice. -/
structure ReadsRange (inspector : Inspector) : Prop where
  inside : ∀ machine address length, ∀ read ∈ (inspector.memRead machine address length).1,
    address.get.toNat ≤ (UnicornBackend.mmioBase + read.1).toNat ∧
      (UnicornBackend.mmioBase + read.1).toNat < address.get.toNat + length
  once : ∀ machine address length, (inspector.registersRead machine address length).Nodup

/-- Where no address of the range is a device address no register is read. -/
theorem registersRead_plain {inspector : Inspector} (ranged : inspector.ReadsRange)
    (machine : Machine) {address : PhysicalAddress} {length : Nat}
    (plain : ∀ other : PhysicalAddress, address.get.toNat ≤ other.get.toNat →
      other.get.toNat < address.get.toNat + length →
        (MemRegion.ofAddress other).any MemRegion.isDevice = false) :
    inspector.registersRead machine address length = [] := by
  rw [registersRead, List.filterMap_eq_nil_iff]
  intro read member
  obtain ⟨above, below⟩ := ranged.inside machine address length read member
  have calm := plain ⟨UnicornBackend.mmioBase + read.1⟩ above below
  cases width : MmioWidth.ofBytes read.2 with
  | none => rw [decodeRead, width]; rfl
  | some width' =>
    cases decoded : decodeMmio (.read ⟨UnicornBackend.mmioBase + read.1⟩ width') with
    | error error => rw [decodeRead, width, Option.bind_some, decoded]; rfl
    | ok register =>
      have device : (MemRegion.ofAddress ⟨UnicornBackend.mmioBase + read.1⟩).any
          MemRegion.isDevice = true := device_of_decode decoded
      rw [calm] at device
      cases device

/-- Within a page that is no device page no register is read. -/
theorem registersRead_page {inspector : Inspector} (ranged : inspector.ReadsRange)
    (machine : Machine) {address : PhysicalAddress} {length : Nat}
    (within : length ≤ UnicornBackend.pageRemaining address.get)
    (plain : (MemRegion.ofAddress address).any MemRegion.isDevice = false) :
    inspector.registersRead machine address length = [] := by
  refine registersRead_plain ranged machine fun other above below => ?_
  rw [ofAddress_samePage other address ?_]
  · exact plain
  · unfold UnicornBackend.pageRemaining at within
    omega

/-- No register is read inside RAM. -/
theorem registersRead_ram {inspector : Inspector} (ranged : inspector.ReadsRange)
    (machine : Machine) {address : PhysicalAddress} {length : Nat}
    (above : 0x4000_0000 ≤ address.get.toNat) (below : address.get.toNat + length ≤ 0x4400_0000) :
    inspector.registersRead machine address length = [] := by
  refine registersRead_plain ranged machine fun other from' to' => ?_
  have inside : 0x4000_0000 ≤ other.get.toNat ∧ other.get.toNat < 0x4400_0000 := by omega
  rw [MemRegion.ofAddress_eq_some.mpr (MemRegion.ram_contains.mpr inside)]
  rfl

end Inspector

namespace UnicornBackend

variable {inspector : Inspector} {backend still : UnicornBackend} {address : U32}
  {memoryType : MemType}

/-- A read callback does what the register it reaches does. -/
theorem mmioReadCallback_eq (backend : UnicornBackend) (read : U32 × Nat) :
    (backend.mmioReadCallback read.1 read.2).2.cpu = backend.cpu ∧
      (backend.mmioReadCallback read.1 read.2).2.machine = { backend.machine with
        bus := (decodeRead read).elim backend.machine.bus backend.machine.bus.afterRead } := by
  unfold mmioReadCallback decodeRead
  cases MmioWidth.ofBytes read.2 with
  | none => exact ⟨rfl, rfl⟩
  | some width =>
    cases decoded : decodeMmio (.read ⟨mmioBase + read.1⟩ width) with
    | error error =>
      simp only [MmioBus.access, decoded, Option.bind_some]
      exact ⟨rfl, rfl⟩
    | ok register =>
      simp only [MmioBus.access, decoded, Option.bind_some]
      exact ⟨rfl, rfl⟩

/-- A physical read reads its registers in order, and changes nothing else of the machine. -/
theorem readPhysicalMemory_eq (inspector : Inspector) (backend : UnicornBackend)
    (address : PhysicalAddress) (length : Nat) :
    (backend.readPhysicalMemory inspector address length).2.cpu = backend.cpu ∧
      (backend.readPhysicalMemory inspector address length).2.machine = { backend.machine with
        bus := Library.run MmioBus.afterRead backend.machine.bus
          (inspector.registersRead backend.machine address length) } := by
  unfold readPhysicalMemory Inspector.registersRead
  simp only
  generalize (inspector.memRead backend.machine address length).1 = reads
  induction reads generalizing backend with
  | nil => exact ⟨rfl, rfl⟩
  | cons read reads ih =>
    obtain ⟨cpu, machine⟩ := backend.mmioReadCallback_eq read
    obtain ⟨cpu', machine'⟩ := ih (backend.mmioReadCallback read.1 read.2).2
    refine ⟨cpu'.trans cpu, machine'.trans ?_⟩
    rw [machine, List.filterMap_cons]
    cases decodeRead read with
    | none => rfl
    | some register => rfl

/-! ### Lookups the guest does not notice -/

/-- A lookup that marks no table entry and records no fault but the one already recorded. -/
def Silent (backend : UnicornBackend) (address : U32) (memoryType : MemType) : Prop :=
  ∀ access, mmuAccess memoryType = some access →
    backend.lookupMemory address access = backend.machine.memory ∧
      ∀ fault, backend.lookupFault address access = some fault →
        backend.machine.mmu.lastFault = some fault

/-- A silent lookup is one that leaves memory and MMU as they were. -/
theorem silent_iff : backend.Silent address memoryType ↔
    (backend.virtualTlbCallback address memoryType).2.machine.memory = backend.machine.memory ∧
      (backend.virtualTlbCallback address memoryType).2.machine.mmu = backend.machine.mmu := by
  cases kind : mmuAccess memoryType with
  | none => simp [Silent, kind, virtualTlbCallback]
  | some access =>
    obtain ⟨_, machine⟩ := backend.virtualTlbCallback_eq address kind
    rw [machine]
    simp only [Silent, kind, Option.some.injEq, forall_eq']
    refine and_congr_right fun _ => ?_
    cases recorded : backend.lookupFault address access with
    | none => simp
    | some fault =>
      simp only [Option.some.injEq, forall_eq', Option.elim_some, Mmu.recordFault]
      constructor
      · intro same
        rw [← same]
      · intro same
        rw [← same]

/-- A lookup depends on the machine and the registers only. -/
theorem lookup_congr (machine : still.machine = backend.machine) (cpu : still.cpu = backend.cpu) :
    (still.virtualTlbCallback address memoryType).1 =
        (backend.virtualTlbCallback address memoryType).1 ∧
      (still.Silent address memoryType ↔ backend.Silent address memoryType) := by
  obtain ⟨stillMachine, stillCpu, _⟩ := still
  obtain ⟨backendMachine, backendCpu, _⟩ := backend
  cases machine
  cases cpu
  refine ⟨?_, Iff.rfl⟩
  cases kind : mmuAccess memoryType with
  | none => simp only [virtualTlbCallback, kind]
  | some access =>
    simp only [virtualTlbCallback, kind, userMode]
    generalize Mmu.translate _ _ _ _ _ = outcome
    rcases outcome with ⟨fault | physical, mmu, memory⟩
    · rfl
    · simp only
      split <;> rfl

/-- Memory and MMU are as they were. -/
def Unmoved (before after : UnicornBackend) : Prop :=
  after.machine.memory = before.machine.memory ∧ after.machine.mmu = before.machine.mmu

/-- A lookup is silent, wherever it is asked, exactly when it moves nothing here. -/
theorem silent_iff_unmoved {entry : Option (PhysicalAddress × Access)} {middle : UnicornBackend}
    (looked : backend.virtualTlbCallback address memoryType = (entry, middle))
    (machine : still.machine = backend.machine) (cpu : still.cpu = backend.cpu) :
    still.Silent address memoryType ↔ Unmoved backend middle := by
  rw [(lookup_congr machine cpu).2, silent_iff, looked, Unmoved]

theorem entry_still {entry : Option (PhysicalAddress × Access)} {middle : UnicornBackend}
    (looked : backend.virtualTlbCallback address memoryType = (entry, middle))
    (machine : still.machine = backend.machine) (cpu : still.cpu = backend.cpu) :
    (still.virtualTlbCallback address memoryType).1 = entry := by
  rw [(lookup_congr machine cpu).1, looked]

/-- Lookups only set bits of memory. -/
theorem grows_lookup (backend : UnicornBackend) (address : U32) (memoryType : MemType) :
    backend.machine.memory.Grows
      (backend.virtualTlbCallback address memoryType).2.machine.memory := by
  cases kind : mmuAccess memoryType with
  | none =>
    simp only [virtualTlbCallback, kind]
    exact .refl _
  | some access =>
    rw [(backend.virtualTlbCallback_eq address kind).2]
    exact .translate _ _ _ access _

/-- A lookup changes memory and MMU of the machine, and no register. -/
theorem lookup_frame (backend : UnicornBackend) (address : U32) (memoryType : MemType) :
    (backend.virtualTlbCallback address memoryType).2.cpu = backend.cpu ∧
      (backend.virtualTlbCallback address memoryType).2.machine = { backend.machine with
        memory := (backend.virtualTlbCallback address memoryType).2.machine.memory
        mmu := (backend.virtualTlbCallback address memoryType).2.machine.mmu } := by
  cases kind : mmuAccess memoryType with
  | none => simp only [virtualTlbCallback, kind, and_self]
  | some access =>
    obtain ⟨cpu, machine⟩ := backend.virtualTlbCallback_eq address kind
    refine ⟨cpu, ?_⟩
    rw [machine]

/-- Where the tables of this backend take an access. -/
def Reaches (backend : UnicornBackend) (address : U32) (access : Access)
    (physical : PhysicalAddress) : Prop :=
  Translation.Reaches backend.machine.mmu backend.machine.memory ⟨address⟩ access backend.userMode
    physical

/-- The entry of a lookup is for the address the tables lead to, unless that is a device to be
fetched from. -/
theorem entry_iff_reaches {access : Access} (kind : mmuAccess memoryType = some access)
    {physical : PhysicalAddress} :
    (backend.virtualTlbCallback address memoryType).1 = some (physical, access) ↔
      backend.Reaches address access physical ∧
        ¬ (access = .fetch ∧ (MemRegion.ofAddress physical).any MemRegion.isDevice = true) := by
  simp only [virtualTlbCallback, kind]
  rcases Translation.refused_or_reaches backend.machine.mmu backend.machine.memory ⟨address⟩ access
    backend.userMode with ⟨cause, enabled, refused⟩ | ⟨target, reaches⟩
  · rw [Translation.translate_refused enabled refused]
    refine iff_of_false (by simp) ?_
    rintro ⟨reaches, _⟩
    exact reaches.not_refused enabled refused
  · obtain ⟨after, translated, _⟩ := Translation.translate_reaches reaches
    rw [translated]
    simp only
    constructor
    · intro found
      split at found
      · cases found
      · rename_i plain
        cases found
        exact ⟨reaches, plain⟩
    · rintro ⟨reaches', plain⟩
      cases reaches'.unique reaches
      rw [if_neg plain]

theorem entry_access {physical : PhysicalAddress} {access : Access}
    (found : (backend.virtualTlbCallback address memoryType).1 = some (physical, access)) :
    mmuAccess memoryType = some access := by
  cases kind : mmuAccess memoryType with
  | none =>
    simp only [virtualTlbCallback, kind] at found
    cases found
  | some asked =>
    simp only [virtualTlbCallback, kind] at found
    split at found
    · split at found
      · cases found
      · cases found
        rfl
    · cases found

/-- The entry of a lookup keeps the offset in the page; one for a fetch names no device. -/
theorem entry_page {physical : PhysicalAddress} {access : Access}
    (found : (backend.virtualTlbCallback address memoryType).1 = some (physical, access)) :
    physical.get.toNat % 4096 = address.toNat % 4096 ∧ mmuAccess memoryType = some access ∧
      (access = .fetch → (MemRegion.ofAddress physical).any MemRegion.isDevice = false) := by
  have kind := entry_access found
  obtain ⟨reaches, plain⟩ := (entry_iff_reaches kind).mp found
  refine ⟨reaches.offset, kind, fun fetch => ?_⟩
  rw [← Bool.not_eq_true]
  exact fun device => plain ⟨fetch, device⟩

/-- A lookup that hands out an entry records no fault. -/
theorem entry_mmu {entry : PhysicalAddress × Access}
    (found : (backend.virtualTlbCallback address memoryType).1 = some entry) :
    (backend.virtualTlbCallback address memoryType).2.machine.mmu = backend.machine.mmu := by
  cases kind : mmuAccess memoryType with
  | none =>
    simp only [virtualTlbCallback, kind] at found
    cases found
  | some access =>
    have handed := backend.virtualTlbCallback_entry address kind
    rw [found, Option.isSome_some] at handed
    rw [(backend.virtualTlbCallback_eq address kind).2, Option.isNone_iff_eq_none.mp handed.symm]
    rfl

/-- The addresses the loop of `read_translated_memory` looks up while nothing changes. -/
def lookups (inspector : Inspector) (address : U32) (length : Nat) (memoryType : MemType)
    (rejectDevices : Bool) (still : UnicornBackend) (offset : Nat) : List U32 :=
  if offset < length ∧ address.toNat + offset < 2 ^ 32 then
    let virtualAddress := address + BitVec.ofNat 32 offset
    let count := min (length - offset) (pageRemaining virtualAddress)
    virtualAddress :: match (still.virtualTlbCallback virtualAddress memoryType).1 with
      | none => []
      | some (physical, _) =>
        if (rejectDevices ∧ (MemRegion.ofAddress physical).any MemRegion.isDevice) ∨
            (inspector.memRead still.machine physical count).2.isOk = false then []
        else lookups inspector address length memoryType rejectDevices still (offset + count)
  else []
termination_by length - offset
decreasing_by
  have positive := pageRemaining_pos (address + BitVec.ofNat 32 offset)
  omega

theorem lookups_entry {length offset : Nat} {rejectDevices : Bool} {physical : PhysicalAddress}
    {access : Access} (unfinished : offset < length) (inside : address.toNat + offset < 2 ^ 32)
    (entry : (still.virtualTlbCallback (address + BitVec.ofNat 32 offset) memoryType).1 =
      some (physical, access)) :
    lookups inspector address length memoryType rejectDevices still offset =
      (address + BitVec.ofNat 32 offset) ::
        if (rejectDevices ∧ (MemRegion.ofAddress physical).any MemRegion.isDevice) ∨
            (inspector.memRead still.machine physical (min (length - offset)
              (pageRemaining (address + BitVec.ofNat 32 offset)))).2.isOk = false then []
        else lookups inspector address length memoryType rejectDevices still
          (offset + min (length - offset) (pageRemaining (address + BitVec.ofNat 32 offset))) := by
  rw [lookups, if_pos ⟨unfinished, inside⟩]
  simp only [entry]

theorem isOk_readPhysicalMemory (backend : UnicornBackend) (physical : PhysicalAddress)
    (length : Nat) : (backend.readPhysicalMemory inspector physical length).1.isOk =
      (inspector.memRead backend.machine physical length).2.isOk := by
  unfold readPhysicalMemory
  simp only
  cases (inspector.memRead backend.machine physical length).2 with
  | error error => rfl
  | ok bytes => rfl

theorem vmemTranslate_error {error : BackendError} {after : UnicornBackend}
    (failed : backend.vmemTranslate inspector address memoryType = (.error error, after)) :
    backend.virtualTlbCallback address memoryType = (none, after) := by
  unfold vmemTranslate at failed
  rcases looked : backend.virtualTlbCallback address memoryType with ⟨_ | entry, middle⟩
  · simp only [looked] at failed
    cases failed
    rfl
  · simp only [looked] at failed
    cases failed

theorem vmemTranslate_ok {physical : PhysicalAddress} {after : UnicornBackend}
    (done : backend.vmemTranslate inspector address memoryType = (.ok physical, after)) :
    ∃ access, backend.virtualTlbCallback address memoryType = (some (physical, access), after) := by
  unfold vmemTranslate at done
  rcases looked : backend.virtualTlbCallback address memoryType with ⟨_ | ⟨target, access⟩, middle⟩
  · simp only [looked] at done
    cases done
  · simp only [looked] at done
    cases done
    exact ⟨access, rfl⟩

/-- Unmoved memory and MMU are an unmoved machine after a lookup. -/
theorem machine_of_unmoved {entry : Option (PhysicalAddress × Access)} {middle : UnicornBackend}
    (looked : backend.virtualTlbCallback address memoryType = (entry, middle))
    (unmoved : Unmoved backend middle) : middle.machine = backend.machine := by
  have frame := (backend.lookup_frame address memoryType).2
  rw [looked] at frame
  rw [frame, unmoved.1, unmoved.2]

/-- A read in the page of a looked-up address that is no device changes nothing. -/
theorem page_read (ranged : inspector.ReadsRange) {physical : PhysicalAddress} {access : Access}
    {middle : UnicornBackend} {count : Nat}
    (looked : backend.virtualTlbCallback address memoryType = (some (physical, access), middle))
    (within : count ≤ pageRemaining address)
    (plain : (MemRegion.ofAddress physical).any MemRegion.isDevice = false) :
    (middle.readPhysicalMemory inspector physical count).2.cpu = middle.cpu ∧
      (middle.readPhysicalMemory inspector physical count).2.machine = middle.machine := by
  have found : (backend.virtualTlbCallback address memoryType).1 = some (physical, access) := by
    rw [looked]
  have offset := (entry_page found).1
  have room : count ≤ pageRemaining physical.get := by
    unfold pageRemaining at within ⊢
    omega
  obtain ⟨cpu, machine⟩ := readPhysicalMemory_eq inspector middle physical count
  rw [Inspector.registersRead_page ranged middle.machine room plain] at machine
  exact ⟨cpu, machine⟩

/-- What the loop leaves, and when the guest does not notice. -/
structure Loop (backend after : UnicornBackend) (lookups : UnicornBackend → List U32)
    (memoryType : MemType) : Prop where
  frame : after.machine = { backend.machine with
    memory := after.machine.memory
    mmu := after.machine.mmu }
  grows : backend.machine.memory.Grows after.machine.memory
  unmoved : ∀ still, still.machine = backend.machine → still.cpu = backend.cpu →
    (Unmoved backend after ↔ ∀ address ∈ lookups still, still.Silent address memoryType)

/-- The loop that looks nothing up. -/
theorem Loop.idle {lookups : UnicornBackend → List U32} (none : ∀ still, lookups still = []) :
    Loop backend backend lookups memoryType where
  frame := rfl
  grows := .refl _
  unmoved still _ _ := by simp [Unmoved, none]

/-- The loop that ends with its first lookup. -/
theorem Loop.once {entry : Option (PhysicalAddress × Access)} {middle after : UnicornBackend}
    (looked : backend.virtualTlbCallback address memoryType = (entry, middle))
    (same : after.machine = middle.machine) {lookups : UnicornBackend → List U32}
    (first : ∀ still, still.machine = backend.machine → still.cpu = backend.cpu →
      ∃ rest, lookups still = address :: rest ∧
        (Unmoved backend middle → rest = [])) :
    Loop backend after lookups memoryType := by
  have frame := (backend.lookup_frame address memoryType).2
  have grows := backend.grows_lookup address memoryType
  rw [looked] at frame grows
  refine ⟨same ▸ frame, same ▸ grows, fun still machine cpu => ?_⟩
  obtain ⟨rest, whole, last⟩ := first still machine cpu
  have moved : Unmoved backend after ↔ Unmoved backend middle := by
    rw [Unmoved, Unmoved, same]
  rw [moved, whole, List.forall_mem_cons, silent_iff_unmoved looked machine cpu]
  constructor
  · intro unmoved
    rw [last unmoved]
    exact ⟨unmoved, by simp⟩
  · exact And.left

/-- The loop that goes on after a lookup. -/
theorem Loop.next {physical : PhysicalAddress} {access : Access} {middle after last : UnicornBackend}
    (looked : backend.virtualTlbCallback address memoryType = (some (physical, access), middle))
    (machine : after.machine = middle.machine) (cpu : after.cpu = middle.cpu)
    {lookups rest : UnicornBackend → List U32} (loop : Loop after last rest memoryType)
    (first : ∀ still, still.machine = backend.machine → still.cpu = backend.cpu →
      ∃ others, lookups still = address :: others ∧
        (Unmoved backend middle → others = rest still)) :
    Loop backend last lookups memoryType := by
  obtain ⟨middleCpu, frame⟩ := backend.lookup_frame address memoryType
  have grows := backend.grows_lookup address memoryType
  have found : (backend.virtualTlbCallback address memoryType).1 = some (physical, access) := by
    rw [looked]
  have mmu := entry_mmu found
  rw [looked] at frame grows middleCpu mmu
  have further := loop.grows
  rw [machine] at further
  refine ⟨?_, grows.trans further, fun still machine' cpu' => ?_⟩
  · rw [loop.frame, machine, frame]
  obtain ⟨others, whole, following⟩ := first still machine' cpu'
  rw [whole, List.forall_mem_cons, silent_iff_unmoved looked machine' cpu']
  have tail (unmoved : Unmoved backend middle) :
      Unmoved backend last ↔ ∀ other ∈ others, still.Silent other memoryType := by
    have whole := machine_of_unmoved looked unmoved
    rw [following unmoved, ← loop.unmoved still (by rw [machine', machine, whole])
      (by rw [cpu', cpu, middleCpu]), Unmoved, Unmoved, machine, whole]
  constructor
  · intro unmoved
    have back : middle.machine.memory.Grows backend.machine.memory := unmoved.1 ▸ further
    have stopped : Unmoved backend middle := ⟨grows.antisymm back, mmu⟩
    exact ⟨stopped, (tail stopped).mp unmoved⟩
  · rintro ⟨stopped, others⟩
    exact (tail stopped).mpr others

/-- The loop of `read_translated_memory` moves nothing exactly when each lookup is silent. -/
theorem loop_readTranslatedFrom (ranged : inspector.ReadsRange) (address : U32) (length : Nat)
    {rejectDevices : Bool} (guarded : rejectDevices = true ∨ memoryType = .fetch)
    (backend : UnicornBackend) (offset : Nat) :
    Loop backend
      (readTranslatedFrom inspector address length memoryType rejectDevices backend offset).2
      (fun still => lookups inspector address length memoryType rejectDevices still offset)
      memoryType := by
  have calm {backend middle : UnicornBackend} {virtualAddress : U32} {physical : PhysicalAddress}
      {access : Access}
      (looked : backend.virtualTlbCallback virtualAddress memoryType =
        (some (physical, access), middle))
      (plain : ¬ (rejectDevices = true ∧
        (MemRegion.ofAddress physical).any MemRegion.isDevice = true)) :
      (MemRegion.ofAddress physical).any MemRegion.isDevice = false := by
    rw [← Bool.not_eq_true]
    intro device
    rcases guarded with rejects | fetches
    · exact plain ⟨rejects, device⟩
    · have found : (backend.virtualTlbCallback virtualAddress memoryType).1 =
          some (physical, access) := by rw [looked]
      obtain ⟨_, kind, fetched⟩ := entry_page found
      rw [fetches] at kind
      cases kind
      exact absurd (fetched rfl) (by simp [device])
  fun_induction readTranslatedFrom inspector address length memoryType rejectDevices backend
    offset with
  | case1 backend offset unfinished wraps =>
    refine .idle fun still => ?_
    rw [lookups, if_neg (by omega)]
  | case2 backend offset unfinished inside virtualAddress error middle translated =>
    have looked := vmemTranslate_error translated
    refine .once looked rfl fun still machine cpu => ⟨[], ?_, fun _ => rfl⟩
    have entry := entry_still looked machine cpu
    rw [lookups, if_pos ⟨unfinished, by omega⟩]
    simp only [virtualAddress] at entry
    simp only [entry, virtualAddress]
  | case3 backend offset unfinished inside virtualAddress physical middle translated device =>
    obtain ⟨access, looked⟩ := vmemTranslate_ok translated
    exact .once looked rfl fun still machine cpu => ⟨_, lookups_entry unfinished (by omega)
      (entry_still looked machine cpu), fun _ => if_pos (.inl device)⟩
  | case4 backend offset unfinished inside virtualAddress count physical middle translated plain
      error after filled =>
    obtain ⟨access, looked⟩ := vmemTranslate_ok translated
    have within : count ≤ pageRemaining virtualAddress := Nat.min_le_right _ _
    have read := page_read ranged looked within (calm looked plain)
    rw [filled] at read
    refine .once looked read.2 fun still machine cpu => ⟨_, lookups_entry unfinished (by omega)
      (entry_still looked machine cpu), fun unmoved => if_pos (.inr ?_)⟩
    rw [machine, ← machine_of_unmoved looked unmoved, ← isOk_readPhysicalMemory, filled]
    rfl
  | case5 backend offset unfinished inside virtualAddress count physical middle translated plain
      bytes after filled rest last recursed ih =>
    obtain ⟨access, looked⟩ := vmemTranslate_ok translated
    have within : count ≤ pageRemaining virtualAddress := Nat.min_le_right _ _
    have read := page_read ranged looked within (calm looked plain)
    rw [filled] at read
    rw [recursed] at ih
    refine .next looked read.2 read.1 ih fun still machine cpu =>
      ⟨_, lookups_entry unfinished (by omega) (entry_still looked machine cpu),
        fun unmoved => if_neg ?_⟩
    rw [machine, ← machine_of_unmoved looked unmoved, ← isOk_readPhysicalMemory, filled]
    rintro (device | failed)
    · exact plain device
    · cases failed
  | case6 backend offset finished =>
    refine .idle fun still => ?_
    rw [lookups, if_neg (by omega)]

/-! ### Lookups told by the tables -/

/-- A lookup of this backend that has nothing left to leave behind. -/
def Familiar (backend : UnicornBackend) (address : U32) (access : Access) : Prop :=
  Translation.Familiar backend.machine.mmu backend.machine.memory ⟨address⟩ access backend.userMode

/-- The fault of a lookup is the one the tables and the region give. -/
theorem lookupFault_iff {access : Access} {fault : MmuFault} :
    backend.lookupFault address access = some fault ↔
      ∃ cause, Translation.Faults backend.machine.mmu backend.machine.memory ⟨address⟩ access
          backend.userMode cause ∧
        fault = ⟨⟨address⟩, .new cause backend.userMode access⟩ := by
  unfold lookupFault
  rcases Translation.refused_or_reaches backend.machine.mmu backend.machine.memory ⟨address⟩ access
    backend.userMode with ⟨cause, enabled, refused⟩ | ⟨physical, reaches⟩
  · rw [Translation.translate_refused enabled refused]
    simp only [Option.some.injEq]
    constructor
    · rintro rfl
      exact ⟨cause, .refused enabled refused, rfl⟩
    · rintro ⟨other, faults, rfl⟩
      cases faults with
      | refused _ refused' => rw [refused.unique refused']
      | fetched _ reaches _ => exact (reaches.not_refused enabled refused).elim
  · obtain ⟨after, translated, _⟩ := Translation.translate_reaches reaches
    rw [translated]
    simp only
    split
    · rename_i device
      simp only [Option.some.injEq]
      constructor
      · rintro rfl
        exact ⟨.deviceAccess, .fetched device.1 reaches device.2, rfl⟩
      · rintro ⟨other, faults, rfl⟩
        cases faults with
        | refused enabled refused => exact (reaches.not_refused enabled refused).elim
        | fetched _ _ _ => rfl
    · rename_i plain
      refine iff_of_false (by simp) ?_
      rintro ⟨cause, faults, -⟩
      cases faults with
      | refused enabled refused => exact reaches.not_refused enabled refused
      | fetched fetch reaches' device =>
        rw [reaches'.unique reaches] at device
        exact plain ⟨fetch, device⟩

/-- A lookup is silent exactly when the entry is marked and the fault is on record. -/
theorem silent_iff_familiar {access : Access} (kind : mmuAccess memoryType = some access) :
    backend.Silent address memoryType ↔ backend.Familiar address access := by
  simp only [Silent, kind, Option.some.injEq, forall_eq', lookupFault_iff, lookupMemory,
    Translation.translate_memory_iff]
  constructor
  · rintro ⟨marked, recorded⟩
    exact ⟨marked, fun cause faults => recorded _ ⟨cause, faults, rfl⟩⟩
  · intro familiar
    refine ⟨familiar.marked, ?_⟩
    rintro fault ⟨cause, faults, rfl⟩
    exact familiar.recorded cause faults

/-- The offsets a read of `length` bytes looks up, as long as nothing changes: the first, and the
start of each page after one that is mapped to memory the engine can read. -/
inductive LookedUp (inspector : Inspector) (backend : UnicornBackend) (address : U32)
    (length : Nat) (access : Access) : Nat → Prop
  | first (nonempty : 0 < length) : LookedUp inspector backend address length access 0
  | next {offset count : Nat} {physical : PhysicalAddress}
      (earlier : LookedUp inspector backend address length access offset)
      (page : count = min (length - offset) (pageRemaining (address + BitVec.ofNat 32 offset)))
      (reaches : backend.Reaches (address + BitVec.ofNat 32 offset) access physical)
      (memory : (MemRegion.ofAddress physical).any MemRegion.isDevice = false)
      (readable : (inspector.memRead backend.machine physical count).2.isOk = true)
      (unfinished : offset + count < length)
      (inside : address.toNat + (offset + count) < 2 ^ 32) :
      LookedUp inspector backend address length access (offset + count)

/-- The lookups of the loop are at the offsets `LookedUp` names. -/
theorem lookedUp_of_mem {length offset : Nat} {rejectDevices : Bool} {access : Access}
    (kind : mmuAccess memoryType = some access)
    (guarded : rejectDevices = true ∨ memoryType = .fetch)
    (start : offset < length ∧ address.toNat + offset < 2 ^ 32 →
      LookedUp inspector backend address length access offset) :
    ∀ other ∈ lookups inspector address length memoryType rejectDevices backend offset,
      ∃ later, LookedUp inspector backend address length access later ∧
        other = address + BitVec.ofNat 32 later := by
  fun_induction lookups inspector address length memoryType rejectDevices backend offset with
  | case1 offset inside virtualAddress count ih =>
    intro other member
    rcases List.mem_cons.mp member with rfl | later
    · exact ⟨offset, start inside, rfl⟩
    · split at later
      · cases later
      · rename_i physical _ entry
        split at later
        · cases later
        · rename_i goes
          obtain ⟨_, same, fetches⟩ := entry_page entry
          cases kind.symm.trans same
          obtain ⟨reaches, _⟩ := (entry_iff_reaches kind).mp entry
          have plain : (MemRegion.ofAddress physical).any MemRegion.isDevice = false := by
            rcases guarded with rejects | rfl
            · rw [← Bool.not_eq_true]
              exact fun device => goes (.inl ⟨rejects, device⟩)
            · cases kind
              exact fetches rfl
          have readable : (inspector.memRead backend.machine physical count).2.isOk = true := by
            rw [← Bool.not_eq_false]
            exact fun failed => goes (.inr failed)
          exact ih (fun bounds => .next (start inside) rfl reaches plain readable bounds.1 bounds.2)
            other later
  | case2 offset outside =>
    intro other member
    cases member

/-- From an offset that `LookedUp` names the loop goes on as it does from the start. -/
theorem lookups_of_lookedUp {length offset : Nat} (rejectDevices : Bool) {access : Access}
    (kind : mmuAccess memoryType = some access)
    (looked : LookedUp inspector backend address length access offset) :
    (offset < length ∧ address.toNat + offset < 2 ^ 32) ∧
      lookups inspector address length memoryType rejectDevices backend offset ⊆
        lookups inspector address length memoryType rejectDevices backend 0 := by
  induction looked with
  | first nonempty => exact ⟨⟨nonempty, address.isLt⟩, List.Subset.refl _⟩
  | @next offset count physical earlier page reaches memory readable unfinished inside ih =>
    obtain ⟨bounds, subset⟩ := ih
    refine ⟨⟨unfinished, inside⟩, List.Subset.trans ?_ subset⟩
    have entry := (entry_iff_reaches kind).mpr ⟨reaches, by simp [memory]⟩
    rw [lookups_entry bounds.1 bounds.2 entry, ← page, if_neg]
    · exact List.subset_cons_self _ _
    · simp [memory, readable]

/-- All lookups of the loop are silent exactly when those of the pages it comes to have nothing
left to leave behind. -/
theorem silent_lookups_iff {length : Nat} {rejectDevices : Bool} {access : Access}
    (kind : mmuAccess memoryType = some access)
    (guarded : rejectDevices = true ∨ memoryType = .fetch) :
    (∀ other ∈ lookups inspector address length memoryType rejectDevices backend 0,
        backend.Silent other memoryType) ↔
      ∀ offset, LookedUp inspector backend address length access offset →
        backend.Familiar (address + BitVec.ofNat 32 offset) access := by
  constructor
  · intro silent offset looked
    obtain ⟨bounds, subset⟩ := lookups_of_lookedUp rejectDevices kind looked
    refine (silent_iff_familiar kind).mp (silent _ (subset ?_))
    rw [lookups, if_pos bounds]
    exact List.mem_cons_self
  · intro familiar other member
    obtain ⟨offset, looked, rfl⟩ := lookedUp_of_mem kind guarded (fun bounds => .first bounds.1)
      other member
    exact (silent_iff_familiar kind).mpr (familiar offset looked)

/-- A search reads RAM only. -/
theorem machine_searchMemory (ranged : inspector.ReadsRange) (backend : UnicornBackend)
    (pattern : List U8) : (backend.searchMemory inspector pattern).2.machine = backend.machine := by
  have chunks (offsets : List Nat) (bounded : ∀ offset ∈ offsets, offset < 0x400_0000)
      (backend : UnicornBackend) :
      (searchChunks inspector pattern offsets backend).2.machine = backend.machine := by
    induction offsets generalizing backend with
    | nil => rfl
    | cons offset offsets ih =>
      have size : ramSize.toNat = 0x400_0000 := by decide
      have bound := bounded offset (.head _)
      have place : (ramBase + BitVec.ofNat 32 offset).toNat = 0x4000_0000 + offset := by
        have base : ramBase.toNat = 0x4000_0000 := by decide
        rw [BitVec.toNat_add, BitVec.toNat_ofNat, base]
        omega
      obtain ⟨_, machine⟩ := readPhysicalMemory_eq inspector backend
        ⟨ramBase + BitVec.ofNat 32 offset⟩
        (min (memorySearchChunkSize + (pattern.length - 1)) (ramSize.toNat - offset))
      rw [Inspector.registersRead_ram ranged backend.machine (by simp only; omega)
        (by simp only; omega)] at machine
      simp only [searchChunks]
      split
      · rename_i filled
        rwa [filled] at machine
      · rename_i bytes after filled
        rw [filled] at machine
        split
        · exact machine
        · exact (ih (fun other member => bounded other (.tail _ member)) after).trans machine
  unfold searchMemory
  split
  · rfl
  · split
    · rfl
    · refine chunks _ (fun offset member => ?_) backend
      obtain ⟨index, inside, rfl⟩ := List.mem_map.mp member
      rw [List.mem_range] at inside
      change index < 64 at inside
      unfold memorySearchChunkSize
      omega

end UnicornBackend

end Minemu.Unicorn
