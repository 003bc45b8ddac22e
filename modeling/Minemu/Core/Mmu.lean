import Minemu.Core.Memory

/-! The two-level walker. It caches no translation, so every access reads the
directory and the table again. -/

namespace Minemu.Core

open Library Platform

/-- A failed translation or protection check recorded for DFSR and DFAR. -/
structure MmuFault where
  address : VirtualAddress
  status : FaultStatus
deriving DecidableEq

structure Mmu where
  enabled : Bool
  ttbr0 : PhysicalAddress
  vectorBase : VirtualAddress
  lastFault : Option MmuFault
deriving DecidableEq

namespace Mmu

def new : Mmu := ⟨false, ⟨0⟩, ⟨0⟩, none⟩

def recordFault (mmu : Mmu) (fault : MmuFault) : Mmu := { mmu with lastFault := some fault }

/-- Records a backend-detected invalid MMIO access for DFSR and DFAR. -/
def recordInvalidMmioFault (mmu : Mmu) (address : VirtualAddress) (access : Access)
    (userMode : Bool) : MmuFault × Mmu :=
  let fault : MmuFault := ⟨address, .new .deviceAccess userMode access⟩
  (fault, mmu.recordFault fault)

def setTtbr0 (mmu : Mmu) (ttbr0 : PhysicalAddress) : Mmu := { mmu with ttbr0 }

def setEnabled (mmu : Mmu) (enabled : Bool) : Mmu := { mmu with enabled }

/-- Applies the CP15 operations that alter backend-independent MMU state. -/
def applyCp15 (mmu : Mmu) : Cp15Operation → Mmu
  | .setTtbr0 address => mmu.setTtbr0 address
  | .setMmuEnabled enabled => mmu.setEnabled enabled
  | .invalidateAll => mmu
  | .setVectorBase address => { mmu with vectorBase := address }
  | .readFaultStatus | .readFaultAddress => mmu

def directoryAddress (mmu : Mmu) (address : VirtualAddress) : PhysicalAddress :=
  ⟨mmu.ttbr0.get + ((address.get >>> 22) &&& 0x3ff#32) * 4#32⟩

/-- The table address a raw directory word decodes to, if the word is accepted. -/
def tableOf (raw : U32) : Option PhysicalAddress := do
  let entry ← (PageDirectoryEntry.new raw).toOption
  entry.tableAddress.toOption.join

def directory (mmu : Mmu) (memory : PhysicalMemory) (address : VirtualAddress) :
    Option PhysicalAddress :=
  (memory.readU32 (mmu.directoryAddress address)).toOption.bind tableOf

def entryAddress (directory : PhysicalAddress) (address : VirtualAddress) : PhysicalAddress :=
  ⟨directory.get + ((address.get >>> 12) &&& 0x3ff#32) * 4#32⟩

def checkTarget (target : Option PhysicalAddress) (access : Access) :
    Except FaultCause PhysicalAddress :=
  match target with
  | none => .error .translation
  | some target =>
    if access = .write ∧ (MemRegion.ofAddress target = some .bootRom ∨
        MemRegion.ofAddress target = some .systemRom) then .error .writeProtection
    else .ok target

/-- The checks between reading a table entry and recording the access. -/
def checkEntry (entry : PageTableEntry) (access : Access) (userMode : Bool) :
    Except FaultCause PhysicalAddress := do
  if entry.raw &&& pteValid = 0#32 then throw .translation
  entry.authorize access userMode
  let rawTarget : PhysicalAddress := ⟨entry.raw &&& ~~~0x0fff#32⟩
  if entry.raw &&& pteUser ≠ 0#32 ∧ (MemRegion.ofAddress rawTarget).any MemRegion.isDevice then
    throw (.protection access)
  checkTarget entry.targetAddress.toOption.join access

/-- Writes the Accessed and Dirty bits back when they change the entry. -/
def recordAccess (memory : PhysicalMemory) (entryAddress : PhysicalAddress)
    (entry : PageTableEntry) (access : Access) : Option PhysicalMemory :=
  let updated := entry.recordSuccessfulAccess access
  if updated.raw ≠ entry.raw then (memory.writeU32 entryAddress updated.raw).toOption
  else some memory

/-- The walk of an enabled MMU: the physical address and the memory after the
access metadata was written, or the cause the fault is reported with. -/
def walk (mmu : Mmu) (memory : PhysicalMemory) (address : VirtualAddress) (access : Access)
    (userMode : Bool) : Except FaultCause (PhysicalAddress × PhysicalMemory) :=
  match mmu.directory memory address with
  | none => .error .translation
  | some directory =>
    let entryAddress := entryAddress directory address
    match memory.readU32 entryAddress with
    | .error _ => .error .translation
    | .ok raw =>
      match checkEntry ⟨raw⟩ access userMode with
      | .error cause => .error cause
      | .ok target =>
        match recordAccess memory entryAddress ⟨raw⟩ access with
        | none => .error .translation
        | some memory => .ok (⟨target.get ||| (address.get &&& 0x0fff#32)⟩, memory)

/-- Translates one access. A fault is recorded and leaves memory unchanged. -/
def translate (mmu : Mmu) (memory : PhysicalMemory) (address : VirtualAddress) (access : Access)
    (userMode : Bool) : Except MmuFault PhysicalAddress × Mmu × PhysicalMemory :=
  if !mmu.enabled then (.ok ⟨address.get⟩, mmu, memory)
  else match mmu.walk memory address access userMode with
    | .ok (target, memory) => (.ok target, mmu, memory)
    | .error cause =>
      let fault : MmuFault := ⟨address, .new cause userMode access⟩
      (.error fault, mmu.recordFault fault, memory)

end Mmu

end Minemu.Core
