import Minemu.Runtime.Service
import Minemu.Unicorn.InspectedPages

/-! What the guest can see of a host inspection. -/

namespace Minemu.Runtime

open Library Platform Minemu.Core Minemu.Unicorn

/-- What the guest can see of a machine. A read of PENDING drains the signals first. -/
structure GuestView where
  memory : PhysicalMemory
  mmu : Mmu
  ticks : Nat
  bus : MmioBus

def guestView (machine : Machine) : GuestView :=
  ⟨machine.memory, machine.mmu, machine.ticks, machine.bus.processSignals⟩

namespace Emulator

/-- What a request may meet without the guest seeing it: device registers that give away nothing,
and pages whose entry is Accessed already and whose fault, if any, is the last one recorded. -/
def Unseen (backend : UnicornBackend) (inspector : Inspector) : RuntimeInspectionRequest → Prop
  | .machine _ | .searchMemory _ => True
  | .liveMemory range =>
    ∀ register ∈ inspector.registersRead backend.machine range.start range.length.toNat,
      backend.machine.bus.Spent register
  | .translate address => backend.Familiar address.get .read
  | .virtualMemory address length =>
    ∀ offset, backend.LookedUp inspector address.get length .read offset →
      backend.Familiar (address.get + BitVec.ofNat 32 offset) .read
  | .execution address before after =>
    before + after < 2 ^ 64 →
      ∀ offset, backend.LookedUp inspector (backend.executionStart address before)
          (before + after) .fetch offset →
        backend.Familiar (backend.executionStart address before + BitVec.ofNat 32 offset) .fetch

variable {backend after : UnicornBackend}

/-- The guest sees memory and MMU of a machine that differs in nothing else. -/
theorem guestView_iff (frame : after.machine = { backend.machine with
      memory := after.machine.memory
      mmu := after.machine.mmu }) :
    guestView after.machine = guestView backend.machine ↔
      UnicornBackend.Unmoved backend after := by
  constructor
  · intro same
    exact ⟨congrArg GuestView.memory same, congrArg GuestView.mmu same⟩
  · rintro ⟨memory, mmu⟩
    rw [frame, memory, mmu]

/-- An inspection leaves what the guest can see as it was exactly when it meets nothing to take,
no entry to mark and no fault to record. -/
theorem inspection_invisible_iff (inspector : Inspector) (ranged : inspector.ReadsRange)
    (emulator : Emulator) (request : RuntimeInspectionRequest) :
    guestView (emulator.inspect request inspector).2.backend.machine =
        guestView emulator.backend.machine ↔
      Unseen emulator.backend inspector request := by
  obtain ⟨backend, _⟩ := emulator
  change guestView (inspectBackend backend inspector request).2.machine =
    guestView backend.machine ↔ Unseen backend inspector request
  cases request with
  | machine request =>
    refine iff_of_true ?_ trivial
    cases request with
    | memory range | mmu | peripherals | events => rfl
  | liveMemory range =>
    obtain ⟨_, machine⟩ := UnicornBackend.readPhysicalMemory_eq inspector backend range.start
      range.length.toNat
    change guestView (backend.readPhysicalMemory inspector range.start
      range.length.toNat).2.machine = _ ↔ _
    simp only [Unseen, ← MmioBus.harmless_iff_spent]
    rw [machine,
      ← MmioBus.reads_harmless_iff (ranged.once backend.machine range.start range.length.toNat)]
    constructor
    · exact congrArg GuestView.bus
    · intro same
      simp only [guestView, same]
  | virtualMemory address length =>
    have loop : UnicornBackend.Loop backend _ _ .read :=
      UnicornBackend.loop_readTranslatedFrom ranged address.get length (.inl rfl) backend 0
    refine (guestView_iff loop.frame).trans ((loop.unmoved backend rfl rfl).trans ?_)
    exact UnicornBackend.silent_lookups_iff rfl (.inl rfl)
  | translate address =>
    have looked : (backend.vmemTranslate inspector address.get .read).2 =
        (backend.virtualTlbCallback address.get .read).2 := by
      unfold UnicornBackend.vmemTranslate
      rcases backend.virtualTlbCallback address.get .read with ⟨_ | entry, middle⟩ <;> rfl
    have frame := (backend.lookup_frame address.get .read).2
    rw [← looked] at frame
    refine (guestView_iff frame).trans ?_
    rw [UnicornBackend.Unmoved, looked, ← UnicornBackend.silent_iff]
    exact UnicornBackend.silent_iff_familiar rfl
  | execution address before after =>
    by_cases huge : 2 ^ 64 ≤ before + after
    · refine iff_of_true ?_ fun small => absurd huge small.not_ge
      simp only [inspectBackend, UnicornBackend.inspectExecution, if_pos huge]
    · have guarded : false = true ∨ MemType.fetch = .fetch := .inr rfl
      have loop := UnicornBackend.loop_readTranslatedFrom ranged
        (backend.executionStart address before) (before + after) guarded backend 0
      have same : (backend.inspectExecution inspector address before after).2 =
          (UnicornBackend.readTranslatedFrom inspector (backend.executionStart address before)
            (before + after) .fetch false backend 0).2 := by
        unfold UnicornBackend.inspectExecution UnicornBackend.readVirtualMemory
          UnicornBackend.readTranslatedMemory
        simp only [if_neg huge]
        rcases UnicornBackend.readTranslatedFrom inspector
          (backend.executionStart address before) (before + after) .fetch false backend 0 with
          ⟨error | bytes, after⟩ <;> rfl
      rw [← same] at loop
      refine (guestView_iff loop.frame).trans ((loop.unmoved backend rfl rfl).trans ?_)
      rw [UnicornBackend.silent_lookups_iff rfl guarded, Unseen]
      exact ⟨fun familiar _ => familiar, fun familiar => familiar (not_le.mp huge)⟩
  | searchMemory pattern =>
    have machine := UnicornBackend.machine_searchMemory ranged backend pattern
    exact iff_of_true (congrArg guestView machine) trivial

theorem ofMemory_readsRange : Inspector.ofMemory.ReadsRange where
  inside _ _ _ _ member := by cases member
  once _ _ _ := .nil

/-- An emulator over one machine. -/
def ofMachine (machine : Machine) : Emulator where
  backend := .new machine
  entry := 0
  stop := 0
  instructionBatch := 1
  blockMediaPaths := fun _ => none
  initialRamWrites := []

/-- The memory of `onePage` once its entry is Accessed. -/
def accessedPage : PhysicalMemory :=
  { Translation.onePage with
    ram := fun index => if index.val = 0x1000 then 0x37 else Translation.onePage.ram index }

/-- A guest that translates through a table it has used before. -/
def usedTable : Emulator :=
  ofMachine { Machine.default with memory := accessedPage, mmu := Translation.onePageMmu }

/-- Eight bytes at `0x14` are in one page. -/
theorem lookedUp_usedTable {offset : Nat}
    (looked : usedTable.backend.LookedUp .ofMemory 0x14#32 8 .read offset) : offset = 0 := by
  induction looked with
  | first => rfl
  | next earlier page reaches memory readable unfinished inside first =>
    have room : UnicornBackend.pageRemaining (0x14#32 + BitVec.ofNat 32 0) = 4076 := by decide
    rw [first, room] at page
    omega

/-- Reading a page the guest has read before changes nothing it can see. -/
theorem inspection_invisible_iff_usedTable :
    guestView (usedTable.inspect (.virtualMemory ⟨0x14⟩ 8) .ofMemory).2.backend.machine =
      guestView usedTable.backend.machine := by
  refine (inspection_invisible_iff .ofMemory ofMemory_readsRange usedTable
    (.virtualMemory ⟨0x14⟩ 8)).mpr fun offset looked => ?_
  rw [lookedUp_usedTable looked]
  refine ⟨fun _ _ => by decide, fun cause faults => ?_⟩
  have recorded := UnicornBackend.lookupFault_iff.mpr ⟨cause, faults, rfl⟩
  have clear : usedTable.backend.lookupFault (0x14#32 + BitVec.ofNat 32 0) .read = none := by decide
  exact absurd (clear.symm.trans recorded) (by simp)

/-- A machine whose guest has enabled translation over an empty directory. -/
def emptyDirectory : Emulator :=
  ofMachine { Machine.default with mmu := { Mmu.new with enabled := true, ttbr0 := ⟨ramBase⟩ } }

/-- Translating an unmapped address for the host records the fault for the guest. -/
theorem inspected_fault_recorded :
    guestView (emptyDirectory.inspect (.translate ⟨0⟩) .ofMemory).2.backend.machine ≠
      guestView emptyDirectory.backend.machine := by
  intro same
  have fault := congrArg (fun view : GuestView => view.mmu.lastFault) same
  have recorded : (emptyDirectory.inspect (.translate ⟨0⟩)
      .ofMemory).2.backend.machine.mmu.lastFault ≠ none := by decide
  exact recorded fault

end Emulator

end Minemu.Runtime
