import Minemu.Unicorn.Guest

/-! A word access that the device window rejects: which fault does the Data Abort record? -/

namespace Minemu.Unicorn

open Platform Minemu.Core

namespace DeviceAccess

def access : DeviceAccess → Access
  | read _ => .read
  | write _ _ => .write

def offset : DeviceAccess → U32
  | read offset | write offset _ => offset

theorem access_ne_fetch (device : DeviceAccess) : device.access ≠ .fetch := by
  intro fetches
  cases device with
  | read offset => cases fetches
  | write offset value => cases fetches

end DeviceAccess

namespace UnicornBackend

/-- An aligned word access to a virtual address: it translates to a physical address in the
device window, the callback receives its offset, and the bus rejects it. -/
structure RejectedAccess (backend : UnicornBackend) (address : VirtualAddress)
    (device : DeviceAccess) (physical : PhysicalAddress) : Prop where
  aligned : address.get.toNat % 4 = 0
  translated : (backend.machine.mmu.translate backend.machine.memory address device.access
    backend.userMode).1 = .ok physical
  window : 0x1000_0000 ≤ physical.get.toNat ∧ physical.get.toNat < 0x1001_0000
  offset : device.offset = physical.get - mmioBase
  rejected : ∃ error, backend.machine.bus.access device.transaction backend.machine.ticks =
    .error error

/-- What the engine does for it: the translation and the device callback. -/
def attempt (address : VirtualAddress) (device : DeviceAccess) : List EngineEvent :=
  [.tlb address.get (memType device.access), device.event]

/-- A batch that a rejected access ends: `done` is what came before it, `leaves` what its
instruction still does to the registers and to RAM. -/
structure FaultingBatch (engine : Engine) (backend : UnicornBackend) (start stop : U32)
    (budget : Nat) (tickDeadline : Option Nat) (done leaves : List EngineEvent)
    (address : VirtualAddress) (device : DeviceAccess) (physical : PhysicalAddress) : Prop where
  exits : engine.setExits backend (exitsOf stop) = .ok ()
  events : (engine.emuStart backend.clearFlags start stop (tickDeadline.elim budget fun deadline =>
    min budget (deadline - backend.machine.ticks))).1 = done ++ (attempt address device ++ leaves)
  rejected : (backend.clearFlags.emulate done).RejectedAccess address device physical
  native : ∀ event ∈ leaves, ∃ cpu stores, event = .native cpu stores

/-! ### The batch -/

variable {backend : UnicornBackend}

theorem RejectedAccess.physical_eq {address : VirtualAddress} {device : DeviceAccess}
    {physical : PhysicalAddress} (rejected : backend.RejectedAccess address device physical) :
    mmioBase + device.offset = physical.get := by
  rw [rejected.offset, BitVec.add_comm, BitVec.sub_add_cancel]

/-- The device callback of a rejected access records the physical address. -/
theorem event_rejected (backend : UnicornBackend) {device : DeviceAccess} {error : CoreError}
    (rejected : backend.machine.bus.access device.transaction backend.machine.ticks =
      .error error) :
    backend.event device.event =
      backend.recordMmioFault (mmioBase + device.offset) device.access (.core error) := by
  cases device with
  | read offset =>
    simp only [DeviceAccess.transaction] at rejected
    simp only [DeviceAccess.event, event, mmioReadCallback, MmioWidth.ofBytes, rejected]
    rfl
  | write offset value =>
    simp only [DeviceAccess.transaction] at rejected
    simp only [DeviceAccess.event, event, mmioWriteCallback, MmioWidth.ofBytes, rejected]
    rfl

theorem emulate_attempt {address : VirtualAddress} {device : DeviceAccess}
    {physical : PhysicalAddress} (rejected : backend.RejectedAccess address device physical) :
    ∃ memory detail, backend.emulate (attempt address device) =
      { backend with
        machine := { backend.machine with memory }
        callbackStop := some (.mmioFault physical.get device.access detail) } := by
  have succeeds : lookupSucceeds backend.machine.mmu backend.userMode backend.machine.memory
      (address, device.access) = true := by
    rw [lookupSucceeds, rejected.translated]
    cases device <;> rfl
  obtain ⟨error, refused⟩ := rejected.rejected
  have looked := backend.event_tlb succeeds
  have recorded := event_rejected { backend with machine := { backend.machine with
    memory := lookup backend.machine.mmu backend.userMode backend.machine.memory
      (address, device.access) } } refused
  refine ⟨lookup backend.machine.mmu backend.userMode backend.machine.memory
    (address, device.access), .core error, ?_⟩
  rw [rejected.physical_eq] at recorded
  rw [attempt, emulate, List.foldl_cons, looked, List.foldl_cons, List.foldl_nil]
  exact recorded

/-- What an instruction leaves in the registers and in RAM reaches no flag and no MMU. -/
theorem emulate_native {leaves : List EngineEvent}
    (native : ∀ event ∈ leaves, ∃ cpu stores, event = .native cpu stores) :
    (backend.emulate leaves).callbackStop = backend.callbackStop ∧
      (backend.emulate leaves).machine.mmu = backend.machine.mmu := by
  induction leaves generalizing backend with
  | nil => exact ⟨rfl, rfl⟩
  | cons event leaves ih =>
    obtain ⟨cpu, stores, rfl⟩ := native event (.head _)
    change ((backend.event (.native cpu stores)).emulate leaves).callbackStop = _ ∧
      ((backend.event (.native cpu stores)).emulate leaves).machine.mmu = _
    exact ih fun other member => native other (.tail _ member)

/-- It leaves registers that do not depend on what the flags and the machine were. -/
theorem cpu_emulate_native {first second : UnicornBackend} {leaves : List EngineEvent}
    (native : ∀ event ∈ leaves, ∃ cpu stores, event = .native cpu stores)
    (same : first.cpu = second.cpu) : (first.emulate leaves).cpu = (second.emulate leaves).cpu := by
  induction leaves generalizing first second with
  | nil => exact same
  | cons event leaves ih =>
    obtain ⟨cpu, stores, rfl⟩ := native event (.head _)
    change ((first.event (.native cpu stores)).emulate leaves).cpu =
      ((second.event (.native cpu stores)).emulate leaves).cpu
    exact ih (fun other member => native other (.tail _ member)) rfl

/-! ### The Data Abort -/

theorem mmu_recordEvent (machine : Machine) (event : ObservableEvent) :
    (machine.recordEvent event).mmu = machine.mmu := by
  unfold Machine.recordEvent
  split <;> rfl

theorem mmu_retireTraces (machine : Machine) : machine.retireTraces.mmu = machine.mmu := by
  have kept (events : List TraceEvent) (machine : Machine) :
      (events.foldl (fun machine event => machine.recordEvent (.trace event)) machine).mmu =
        machine.mmu := by
    induction events generalizing machine with
    | nil => rfl
    | cons event events ih => rw [List.foldl_cons, ih, mmu_recordEvent]
  exact kept _ _

theorem mmu_advanceTicks (machine : Machine) (count : Nat) :
    (machine.advanceTicks count).mmu = machine.mmu := by
  have ticked : (Machine.tick^[count] machine).mmu = machine.mmu := by
    induction count generalizing machine with
    | zero => rfl
    | succ count ih => exact (ih machine.tick).trans rfl
  rw [Machine.advanceTicks, mmu_retireTraces, ticked]

theorem mmu_finishInstruction (machine : Machine) (outcome : InstructionOutcome) :
    (machine.finishInstruction outcome).2.mmu = machine.mmu := by
  cases outcome with
  | completed => exact mmu_advanceTicks _ _
  | synchronousException kind pc =>
    exact (mmu_recordEvent _ _).trans ((mmu_advanceTicks _ _).trans (mmu_advanceTicks _ _))
  | fault fault pc => exact (mmu_recordEvent _ _).trans (mmu_advanceTicks _ _)

theorem mmu_enterException (machine : Machine) (kind : ExceptionKind) (pc : VirtualAddress) :
    (machine.enterException kind pc).2.mmu = machine.mmu :=
  (mmu_recordEvent _ _).trans (mmu_advanceTicks _ _)

variable (backend : UnicornBackend)

/-- Taking a data fault raises a Data Abort and leaves the MMU as it is. -/
theorem finishFault_data {fault : MmuFault} (data : fault.status.isFetch = false)
    (tickDeadline : Option Nat) :
    (backend.finishPendingException (.fault fault) tickDeadline).1 = .exception .dataAbort ∧
      (backend.finishPendingException (.fault fault) tickDeadline).2.machine.mmu =
        backend.machine.mmu := by
  have kind : (ExceptionPlan.fault fault ⟨backend.cpu.read .pc⟩).request.kind = .dataAbort := by
    simp only [ExceptionPlan.fault, data, Bool.false_eq_true, ↓reduceIte]
    rfl
  constructor
  · exact congrArg BackendStop.exception kind
  · exact mmu_finishInstruction backend.machine (.fault fault ⟨backend.cpu.read .pc⟩)

/-- A recorded device fault is taken as a Data Abort at the recorded address, with the mode the
registers are in by then. -/
theorem finishBatch_mmioFault (engine : Engine) (result : Except UcError Unit)
    (tickDeadline : Option Nat) {address : U32} {access : Access} {detail : MmioDetail}
    (data : access ≠ .fetch)
    (stopped : backend.callbackStop = some (.mmioFault address access detail)) :
    (backend.finishBatch engine result tickDeadline).1 = .exception .dataAbort ∧
      (backend.finishBatch engine result tickDeadline).2.machine.mmu.lastFault =
        some ⟨⟨address⟩, .new .deviceAccess backend.userMode access⟩ := by
  have finished : backend.finishBatch engine result tickDeadline =
      backend.account.finishCallbackStop (.mmioFault address access detail) tickDeadline := by
    simp only [finishBatch, stopped]
  have fetches : (FaultStatus.new .deviceAccess backend.userMode access).isFetch = false := by
    rw [(FaultStatus.new_decodes _ _ _).2.2.2]
    cases access with
    | fetch => exact absurd rfl data
    | read | write => rfl
  let fault : MmuFault := ⟨⟨address⟩, .new .deviceAccess backend.userMode access⟩
  have data : fault.status.isFetch = false := fetches
  obtain ⟨stop, mmu⟩ := finishFault_data
    { backend.account with machine := { backend.account.machine with
        mmu := backend.account.machine.mmu.recordFault fault } } data tickDeadline
  rw [finished]
  exact ⟨stop, congrArg Mmu.lastFault mmu⟩

/-- A batch that a rejected access ends takes a Data Abort. The recorded fault is the one at the
virtual address, with the device cause and the user and write bits of the access, exactly when
the address translates to itself and the instruction leaves the mode alone. -/
theorem device_fault_iff (engine : Engine) (backend : UnicornBackend) (start stop : U32)
    (budget : Nat) (tickDeadline : Option Nat) (done leaves : List EngineEvent)
    (address : VirtualAddress) (device : DeviceAccess) (physical : PhysicalAddress)
    (batch : FaultingBatch engine backend start stop budget tickDeadline done leaves address device
      physical) :
    (backend.runBatch engine start stop budget tickDeadline).1 = .exception .dataAbort ∧
    ((backend.runBatch engine start stop budget tickDeadline).2.machine.mmu.lastFault =
        some ⟨address, .new .deviceAccess (backend.clearFlags.emulate done).userMode
          device.access⟩ ↔
      physical.get = address.get ∧
        ((backend.clearFlags.emulate done).emulate leaves).userMode =
          (backend.clearFlags.emulate done).userMode) := by
  obtain ⟨memory, detail, attempted⟩ := emulate_attempt batch.rejected
  have ran : backend.runBatch engine start stop budget tickDeadline =
      (backend.clearFlags.emulate (done ++ (attempt address device ++ leaves))).finishBatch engine
        (engine.emuStart backend.clearFlags start stop (tickDeadline.elim budget fun deadline =>
          min budget (deadline - backend.machine.ticks))).2 tickDeadline := by
    rw [← batch.events]
    simp only [runBatch, batch.exits]
  have stopped : (backend.clearFlags.emulate (done ++ (attempt address device ++ leaves))).callbackStop =
      some (.mmioFault physical.get device.access detail) := by
    rw [emulate_append, emulate_append, (emulate_native batch.native).1, attempted]
  have mode : (backend.clearFlags.emulate (done ++ (attempt address device ++ leaves))).userMode =
      ((backend.clearFlags.emulate done).emulate leaves).userMode := by
    rw [emulate_append, emulate_append, attempted]
    exact congrArg GuestInstruction.userMode (cpu_emulate_native batch.native rfl)
  obtain ⟨abort, recorded⟩ := finishBatch_mmioFault _ engine
    (engine.emuStart backend.clearFlags start stop (tickDeadline.elim budget fun deadline =>
      min budget (deadline - backend.machine.ticks))).2
    tickDeadline device.access_ne_fetch stopped
  rw [ran, recorded, mode]
  refine ⟨abort, ?_⟩
  constructor
  · intro same
    obtain ⟨identity, status⟩ := MmuFault.mk.inj (Option.some.inj same)
    have user := congrArg FaultStatus.fromUser status
    rw [(FaultStatus.new_decodes _ _ _).2.1, (FaultStatus.new_decodes _ _ _).2.1] at user
    exact ⟨congrArg VirtualAddress.get identity, user⟩
  · rintro ⟨identity, still⟩
    rw [identity, still]

/-- An engine whose next instruction is one load from the device window. -/
def loadEngine (address : VirtualAddress) (offset : U32) : Engine where
  setExits _ _ := .ok ()
  flushTlb _ := .ok ()
  emuStart _ _ _ _ := (attempt address (.read offset), .ok ())

theorem device_fault_untranslated :
    ((UnicornBackend.new .default).runBatch (loadEngine ⟨0x1000_0ffc⟩ 0xffc) 0 0xffff_ffff 1
        none).1 = .exception .dataAbort ∧
    (((UnicornBackend.new .default).runBatch (loadEngine ⟨0x1000_0ffc⟩ 0xffc) 0 0xffff_ffff 1
        none).2.machine.mmu.lastFault = some ⟨⟨0x1000_0ffc⟩, .new .deviceAccess false .read⟩ ↔
      (0x1000_0ffc : U32) = 0x1000_0ffc ∧ false = false) :=
  device_fault_iff (loadEngine ⟨0x1000_0ffc⟩ 0xffc) (.new .default) 0 0xffff_ffff 1 none [] []
    ⟨0x1000_0ffc⟩ (.read 0xffc) ⟨0x1000_0ffc⟩
    ⟨rfl, rfl, ⟨by decide, rfl, by decide, rfl, _, rfl⟩, nofun⟩

/-- Memory whose table maps the first virtual page to the interrupt controller: `0x4000_1001` at
the RAM base and `0x1000_0011` at the table it names. -/
def devicePage : PhysicalMemory where
  bootRom := fun _ => 0
  systemRom := fun _ => 0
  ram := fun index =>
    if index.val = 0 then 0x01 else if index.val = 1 then 0x10 else if index.val = 3 then 0x40
    else if index.val = 0x1000 then 0x11 else if index.val = 0x1003 then 0x10 else 0

def mappedBackend : UnicornBackend := .new { Machine.default with
  memory := devicePage
  mmu := ⟨true, ⟨ramBase⟩, ⟨0⟩, none⟩ }

/-- The load from virtual address `0x0ffc` is reported at `0x1000_0ffc`. -/
theorem mapped_device_fault :
    FaultingBatch (loadEngine ⟨0xffc⟩ 0xffc) mappedBackend 0 0xffff_ffff 1 none [] [] ⟨0xffc⟩
        (.read 0xffc) ⟨0x1000_0ffc⟩ ∧
    (mappedBackend.runBatch (loadEngine ⟨0xffc⟩ 0xffc) 0 0xffff_ffff 1
        none).2.machine.mmu.lastFault =
      some ⟨⟨0x1000_0ffc⟩, .new .deviceAccess false .read⟩ ∧
    (mappedBackend.runBatch (loadEngine ⟨0xffc⟩ 0xffc) 0 0xffff_ffff 1
        none).2.machine.mmu.lastFault ≠
      some ⟨⟨0xffc⟩, .new .deviceAccess mappedBackend.userMode .read⟩ := by
  have reported : (mappedBackend.runBatch (loadEngine ⟨0xffc⟩ 0xffc) 0 0xffff_ffff 1
      none).2.machine.mmu.lastFault =
        some ⟨⟨0x1000_0ffc⟩, .new .deviceAccess false .read⟩ := by
    decide +kernel
  refine ⟨⟨rfl, rfl, ⟨by decide, ?_, by decide, rfl, _, rfl⟩, nofun⟩, reported, ?_⟩
  · decide +kernel
  · rw [reported]
    decide

end UnicornBackend

end Minemu.Unicorn
