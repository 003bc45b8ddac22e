import Minemu.Core.TickOrder
import Minemu.Unicorn.TickBoundary

/-! Guest instructions that neither trap nor fault, and an engine that executes them:
the instruction hook once for each, the device access inside the instruction. -/

namespace Minemu.Unicorn

open Platform Minemu.Core InterruptLevels

/-- One word access to the device window. -/
inductive DeviceAccess where
  | read (offset : U32)
  | write (offset : U32) (value : U32)
deriving DecidableEq

namespace DeviceAccess

def transaction : DeviceAccess → MmioTransaction
  | .read offset => .read ⟨UnicornBackend.mmioBase + offset⟩ .u32
  | .write offset value => .write ⟨UnicornBackend.mmioBase + offset⟩ .u32 value

def event : DeviceAccess → EngineEvent
  | .read offset => .mmioRead offset 4
  | .write offset value => .mmioWrite offset 4 value

end DeviceAccess

/-- An instruction as the engine executes it: its word, the translations it asks for, the
device access it makes, and what it leaves in the registers and stores to RAM, given RAM
after the translations and the value it read. -/
structure GuestInstruction where
  address : U32
  word : U32
  lookups : Cpu → List (VirtualAddress × Access)
  access : Cpu → Option DeviceAccess
  result : Cpu → PhysicalMemory → U32 → Cpu × List (PhysicalAddress × List U8)

/-- What instructions work on. -/
structure Guest where
  machine : Machine
  cpu : Cpu

def memType : Access → MemType
  | .fetch => .fetch
  | .read => .read
  | .write => .write

/-- RAM after one translation: a walk records the access in its table entry. -/
def lookup (mmu : Mmu) (userMode : Bool) (memory : PhysicalMemory)
    (request : VirtualAddress × Access) : PhysicalMemory :=
  (mmu.translate memory request.1 request.2 userMode).2.2

/-- Whether the translation succeeds and does not fetch from a device. -/
def lookupSucceeds (mmu : Mmu) (userMode : Bool) (memory : PhysicalMemory)
    (request : VirtualAddress × Access) : Bool :=
  match (mmu.translate memory request.1 request.2 userMode).1 with
  | .ok physical => !(request.2 = .fetch && (MemRegion.ofAddress physical).any MemRegion.isDevice)
  | .error _ => false

def lookupsSucceed (mmu : Mmu) (userMode : Bool) :
    List (VirtualAddress × Access) → PhysicalMemory → Bool
  | [], _ => true
  | request :: requests, memory =>
    lookupSucceeds mmu userMode memory request &&
      lookupsSucceed mmu userMode requests (lookup mmu userMode memory request)

namespace GuestInstruction

def userMode (cpu : Cpu) : Bool := cpu.read .cpsr &&& 0x1f#32 == 0x10#32

/-- RAM after the translations of the instruction. -/
def looked (instruction : GuestInstruction) (guest : Guest) : PhysicalMemory :=
  (instruction.lookups guest.cpu).foldl (lookup guest.machine.mmu (userMode guest.cpu))
    guest.machine.memory

/-- The value read from the device window, and the bus. -/
def accessed (instruction : GuestInstruction) (guest : Guest) : Option U32 × MmioBus :=
  match instruction.access guest.cpu with
  | none => (none, guest.machine.bus)
  | some access =>
    (guest.machine.bus.access access.transaction guest.machine.ticks).toOption.getD
      (none, guest.machine.bus)

def finished (instruction : GuestInstruction) (guest : Guest) :
    Cpu × List (PhysicalAddress × List U8) :=
  instruction.result guest.cpu (instruction.looked guest)
    ((instruction.accessed guest).1.getD 0)

/-- Executes the instruction, without the tick it takes. -/
def execute (instruction : GuestInstruction) (guest : Guest) : Option U32 × Guest :=
  ((instruction.accessed guest).1,
    { machine := { guest.machine with
        memory := UnicornBackend.storeBytes (instruction.looked guest)
          (instruction.finished guest).2
        bus := (instruction.accessed guest).2 }
      cpu := (instruction.finished guest).1 })

/-- What the engine does for the instruction, in order. -/
def events (instruction : GuestInstruction) (guest : Guest) : List EngineEvent :=
  .code instruction.address 4 (some instruction.word) ::
    ((instruction.lookups guest.cpu).map fun request => .tlb request.1.get (memType request.2)) ++
      ((instruction.access guest.cpu).map DeviceAccess.event).toList ++
        [.native (instruction.finished guest).1 (instruction.finished guest).2]

/-- The word is none of those the trap callback takes off the instruction stream. -/
def untrapped (instruction : GuestInstruction) (cpu : Cpu) : Bool :=
  ((decodeBreakpoint instruction.word).filter fun found =>
      conditionHolds found.condition (cpu.read .cpsr)).isNone &&
    !(instruction.word &&& 0x0f00_0000#32 = 0x0f00_0000#32 &&
      conditionHolds (instruction.word >>> 28) (cpu.read .cpsr)) &&
    (decodeCp15 instruction.word).isNone

def accessAccepted (instruction : GuestInstruction) (guest : Guest) : Bool :=
  (instruction.access guest.cpu).all fun access =>
    (guest.machine.bus.access access.transaction guest.machine.ticks).toOption.isSome

/-- The instruction completes here, with IRQs masked: it does not trap, its translations
succeed and its device access is accepted. -/
structure Completes (instruction : GuestInstruction) (guest : Guest) : Prop where
  untrapped : instruction.untrapped guest.cpu = true
  translated : lookupsSucceed guest.machine.mmu (userMode guest.cpu)
    (instruction.lookups guest.cpu) guest.machine.memory = true
  accepted : instruction.accessAccepted guest = true
  masked : (instruction.finished guest).1.irqsMasked = true

end GuestInstruction

/-- The events of instructions executed one after the other. -/
def programEvents : List GuestInstruction → Guest → List EngineEvent
  | [], _ => []
  | instruction :: rest, guest =>
    instruction.events guest ++ programEvents rest (instruction.execute guest).2

namespace UnicornBackend

def guest (backend : UnicornBackend) : Guest := ⟨backend.machine, backend.cpu⟩

def setGuest (backend : UnicornBackend) (guest : Guest) : UnicornBackend :=
  { backend with machine := guest.machine, cpu := guest.cpu }

/-- The values the read callback hands to the guest during these events. -/
def readValues (backend : UnicornBackend) : List EngineEvent → List U32
  | [] => []
  | .mmioRead offset size :: events =>
    (backend.mmioReadCallback offset size).1 ::
      (backend.event (.mmioRead offset size)).readValues events
  | event :: events => (backend.event event).readValues events

end UnicornBackend

/-- The engine that executes the next instructions of a program, at most the count it is
given. -/
def programEngine (program : List GuestInstruction) : Engine where
  setExits _ _ := .ok ()
  flushTlb _ := .ok ()
  emuStart backend _ _ count := (programEvents (program.take count) backend.guest, .ok ())

/-! ### What the callbacks make of an instruction -/

namespace UnicornBackend

variable (backend : UnicornBackend)

theorem emulate_append (first second : List EngineEvent) :
    backend.emulate (first ++ second) = (backend.emulate first).emulate second :=
  List.foldl_append

theorem readValues_append (first second : List EngineEvent) :
    backend.readValues (first ++ second) =
      backend.readValues first ++ (backend.emulate first).readValues second := by
  induction first generalizing backend with
  | nil => rfl
  | cons event events ih =>
    cases event <;> simp only [List.cons_append, readValues, ih] <;> rfl

theorem event_code {instruction : GuestInstruction}
    (untrapped : instruction.untrapped backend.cpu = true) :
    backend.event (.code instruction.address 4 (some instruction.word)) =
      backend.instructionCounterCallback := by
  simp only [GuestInstruction.untrapped, Bool.and_eq_true, Option.isNone_iff_eq_none,
    Bool.not_eq_true'] at untrapped
  obtain ⟨⟨breakpoint, svc⟩, cp15⟩ := untrapped
  have kept : backend.instructionCounterCallback.cpu = backend.cpu := rfl
  simp only [event, a32SynchronousTrapCallback, kept, breakpoint, cp15Trap, cp15]
  split
  · rfl
  · split
    · rename_i taken
      simp [taken.1, taken.2] at svc
    · rfl

/-- A successful translation leaves the MMU alone. -/
theorem translate_ok {mmu : Mmu} {memory : PhysicalMemory} {address : VirtualAddress}
    {access : Access} {userMode : Bool} {physical : PhysicalAddress}
    (translated : (mmu.translate memory address access userMode).1 = .ok physical) :
    mmu.translate memory address access userMode =
      (.ok physical, mmu, (mmu.translate memory address access userMode).2.2) := by
  unfold Mmu.translate at translated ⊢
  split at translated
  · cases translated
    rename_i off
    simp only [off, ↓reduceIte]
  · rename_i enabled
    rw [if_neg enabled]
    split at translated
    · cases translated
      simp only
    · cases translated

theorem event_tlb {request : VirtualAddress × Access}
    (succeeds : lookupSucceeds backend.machine.mmu backend.userMode backend.machine.memory
      request = true) :
    backend.event (.tlb request.1.get (memType request.2)) =
      { backend with machine := { backend.machine with
        memory := lookup backend.machine.mmu backend.userMode backend.machine.memory request } } := by
  obtain ⟨address, access⟩ := request
  have named : mmuAccess (memType access) = some access := by cases access <;> rfl
  unfold lookupSucceeds at succeeds
  split at succeeds
  · rename_i physical translated
    have inside := translate_ok translated
    have here : ¬ (access = .fetch ∧ (MemRegion.ofAddress physical).any MemRegion.isDevice) := by
      intro ⟨fetches, device⟩
      simp [fetches, device] at succeeds
    simp only [event, virtualTlbCallback, named]
    rw [inside]
    simp only [if_neg here]
    rfl
  · cases succeeds

theorem emulate_lookups (requests : List (VirtualAddress × Access))
    (succeed : lookupsSucceed backend.machine.mmu backend.userMode requests
      backend.machine.memory = true) :
    backend.emulate (requests.map fun request => .tlb request.1.get (memType request.2)) =
      { backend with machine := { backend.machine with
        memory := requests.foldl (lookup backend.machine.mmu backend.userMode)
          backend.machine.memory } } := by
  induction requests generalizing backend with
  | nil => rfl
  | cons request requests ih =>
    simp only [lookupsSucceed, Bool.and_eq_true] at succeed
    rw [List.map_cons, emulate, List.foldl_cons, ← emulate, backend.event_tlb succeed.1, ih _ succeed.2]
    rfl

theorem readValues_lookups (requests : List (VirtualAddress × Access)) :
    backend.readValues (requests.map fun request => .tlb request.1.get (memType request.2)) = [] := by
  induction requests generalizing backend with
  | nil => rfl
  | cons request requests ih => exact ih _

/-- Reads return a value and writes return none. -/
theorem access_value {bus after : MmioBus} {transaction : MmioTransaction} {value : Option U32}
    {now : Nat} (accepted : bus.access transaction now = .ok (value, after)) :
    value.isSome = decide (transaction.access ≠ .write) := by
  unfold MmioBus.access at accepted
  split at accepted
  · cases accepted
  · rename_i register _
    split at accepted
    · rename_i writes
      cases written : bus.writeRegister register transaction.value now with
      | error error => simp [written, Except.map] at accepted
      | ok raw =>
        rw [written] at accepted
        cases accepted
        simp [writes]
    · rename_i reads
      cases accepted
      simpa using reads

/-- An accepted device access: the value it hands over, and the bus it leaves. -/
theorem event_access {access : DeviceAccess} {value : Option U32} {bus : MmioBus}
    (accepted : backend.machine.bus.access access.transaction backend.machine.ticks =
      .ok (value, bus)) :
    backend.event access.event = backend.setBus bus ∧
      backend.readValues [access.event] = value.toList := by
  have returned := access_value accepted
  cases access with
  | read offset =>
    obtain ⟨read, rfl⟩ := Option.isSome_iff_exists.mp returned
    have called : backend.mmioReadCallback offset 4 = (read, backend.setBus bus) := by
      simp only [DeviceAccess.transaction] at accepted
      simp only [mmioReadCallback, MmioWidth.ofBytes, accepted, Option.getD_some]
    refine ⟨congrArg Prod.snd called, ?_⟩
    simp only [DeviceAccess.event, readValues, called, Option.toList_some]
  | write offset written =>
    obtain rfl : value = none := Option.not_isSome_iff_eq_none.mp (returned ▸ Bool.false_ne_true)
    simp only [DeviceAccess.transaction] at accepted
    refine ⟨?_, rfl⟩
    simp only [DeviceAccess.event, event, mmioWriteCallback, MmioWidth.ofBytes, accepted]

/-- The callbacks of one instruction: they count it and do what it does. -/
theorem emulate_instruction {instruction : GuestInstruction}
    (completes : instruction.Completes backend.guest) :
    backend.emulate (instruction.events backend.guest) =
        backend.instructionCounterCallback.setGuest (instruction.execute backend.guest).2 ∧
      backend.readValues (instruction.events backend.guest) =
        (instruction.execute backend.guest).1.toList := by
  obtain ⟨untrapped, translated, accepted, _⟩ := completes
  -- the backend once the instruction is counted and its translations are made
  let looked : UnicornBackend := { backend.instructionCounterCallback with
    machine := { backend.machine with memory := instruction.looked backend.guest } }
  have counted := backend.event_code untrapped
  have lookups := backend.instructionCounterCallback.emulate_lookups
    (instruction.lookups backend.cpu) translated
  have accessing : looked.emulate ((instruction.access backend.cpu).map DeviceAccess.event).toList =
      looked.setBus (instruction.accessed backend.guest).2 ∧
      looked.readValues ((instruction.access backend.cpu).map DeviceAccess.event).toList =
        (instruction.accessed backend.guest).1.toList := by
    have here : instruction.access backend.guest.cpu = instruction.access backend.cpu := rfl
    unfold GuestInstruction.accessed
    unfold GuestInstruction.accessAccepted at accepted
    rw [here] at accepted ⊢
    cases issued : instruction.access backend.cpu with
    | none => exact ⟨rfl, rfl⟩
    | some access =>
      simp only [issued, Option.all_some] at accepted
      cases result : backend.machine.bus.access access.transaction backend.machine.ticks with
      | error error =>
        have refused : backend.guest.machine.bus.access access.transaction
          backend.guest.machine.ticks = .error error := result
        simp [refused, Except.toOption] at accepted
      | ok result' =>
        obtain ⟨value, bus⟩ := result'
        have granted : backend.guest.machine.bus.access access.transaction
          backend.guest.machine.ticks = .ok (value, bus) := result
        obtain ⟨emulated, values⟩ := looked.event_access result
        simp only [granted, Except.toOption, Option.getD_some, Option.map_some, Option.toList_some]
        exact ⟨emulated, values⟩
  have started : backend.emulate (.code instruction.address 4 (some instruction.word) ::
      (instruction.lookups backend.cpu).map fun request =>
        .tlb request.1.get (memType request.2)) = looked := by
    rw [emulate, List.foldl_cons, counted]
    exact lookups
  constructor
  · rw [GuestInstruction.events, emulate_append, emulate_append]
    have guest : backend.guest.cpu = backend.cpu := rfl
    rw [guest, started, accessing.1]
    rfl
  · rw [GuestInstruction.events, readValues_append, readValues_append]
    have guest : backend.guest.cpu = backend.cpu := rfl
    rw [guest, started, accessing.2, readValues, counted, readValues_lookups]
    · simp only [List.nil_append, readValues, List.append_nil]
      rfl
    · simp

end UnicornBackend

end Minemu.Unicorn
