import Minemu.Core.Interrupt
import Minemu.Library.WriteBack

/-! The write-back block device with its two media units. -/

namespace Minemu.Core

open Library Platform

def sectorSize : Nat := 512

def completionDelay : Nat := 32

/-- One state-changing block-device input. -/
inductive BlockUpdate where
  | attach (unit : U32) (media : List U8)
  | detach (unit : U32)
  | write (register : BlockRegister) (value : U32) (now : Nat)
  | flushFailed (unit : U32)
deriving DecidableEq

structure Request where
  command : U32
  lba : U32
  sectorCount : U32
  dmaAddress : PhysicalAddress
  unit : U32
  deadline : Nat
deriving DecidableEq

structure MediaUnit where
  media : Option (List U8)
  dirtySectors : Finset Nat
deriving DecidableEq

/-- Write-back block media and its guest-visible command state. -/
structure BlockDevice where
  lba : U32
  sectorCount : U32
  dmaAddress : PhysicalAddress
  unit : U32
  completionIrqEnabled : Bool
  complete : Bool
  error : BlockError
  active : Option Request
  units : Fin 2 → MediaUnit

namespace BlockDevice

def new : BlockDevice :=
  ⟨0, 0, ⟨0⟩, 0, false, false, .none, none, fun _ => ⟨none, ∅⟩⟩

def unitIndex (unit : U32) : Except CoreError (Fin 2) :=
  if inside : unit.toNat < 2 then .ok ⟨unit.toNat, inside⟩ else .error (.invalidBlockUnit unit)

def setUnitState (device : BlockDevice) (index : Fin 2) (state : MediaUnit) : BlockDevice :=
  { device with units := Function.update device.units index state }

def attach (device : BlockDevice) (unit : U32) (media : List U8) :
    Except CoreError BlockDevice := do
  if media = [] ∨ ¬ sectorSize ∣ media.length then throw (.invalidBlockMedia unit)
  let index ← unitIndex unit
  return device.setUnitState index ⟨some media, ∅⟩

def detach (device : BlockDevice) (unit : U32) : Except CoreError BlockDevice := do
  let index ← unitIndex unit
  return device.setUnitState index ⟨none, ∅⟩

def status (device : BlockDevice) : U32 :=
  (if device.active.isSome then statusBusy else 0) |||
    (if device.complete then statusComplete else 0) |||
    (if device.error = .none then 0 else statusError)

def irqPending (device : BlockDevice) : Bool := device.completionIrqEnabled && device.complete

def control (device : BlockDevice) : U32 := if device.completionIrqEnabled then 1 else 0

def setControl (device : BlockDevice) (control : U32) : BlockDevice :=
  { device with completionIrqEnabled := control &&& 1#32 != 0#32 }

/-- Starts an accepted command, including one that will later report a guest error. -/
def command (device : BlockDevice) (command : U32) (now : Nat) : BlockDevice :=
  if device.active.isSome then { device with complete := true, error := .busy }
  else
    { device with
      complete := false
      error := .none
      active := some ⟨command, device.lba, device.sectorCount, device.dmaAddress, device.unit,
        now + completionDelay⟩ }

def ack (device : BlockDevice) : BlockDevice := { device with complete := false, error := .none }

def signal (device : BlockDevice) : InterruptSignal := ⟨.block, device.irqPending⟩

/-- Checks a request up to its DMA range. -/
def dmaRange (request : Request) : Except BlockError PhysicalRange := do
  if request.command ≠ 1#32 ∧ request.command ≠ 2#32 then throw .invalidCommand
  let byteCount := request.sectorCount.toNat * sectorSize
  if 2 ^ 32 ≤ byteCount then throw .invalidDma
  match PhysicalRange.new request.dmaAddress (BitVec.ofNat 32 byteCount) with
  | .error _ => throw .invalidDma
  | .ok range =>
    if request.dmaAddress.get &&& 511#32 ≠ 0#32 ∨ !MemRegion.ram.range.containsRange range then
      throw .invalidDma
    return range

/-- Executes one request against the media units, all it reads and writes of the device.
A refused one changes nothing. The dirty sectors are the half-open `u32` range of the source. -/
def execute (units : Fin 2 → MediaUnit) (request : Request) (memory : PhysicalMemory) :
    Except BlockError ((Fin 2 → MediaUnit) × PhysicalMemory) := do
  let index ← (unitIndex request.unit).mapError fun _ => .invalidUnit
  let range ← dmaRange request
  let state := units index
  match state.media with
  | none => throw .noMedia
  | some media =>
    let start := request.lba.toNat * sectorSize
    let stop := start + request.sectorCount.toNat * sectorSize
    match slice? media start stop with
    | none => throw .invalidLba
    | some sectors =>
      if request.command = 1#32 then
        match memory.writeRange request.dmaAddress sectors with
        | .error _ => throw .invalidDma
        | .ok memory => return (units, memory)
      else
        match memory.readRange range sectors.length with
        | .error _ => throw .invalidDma
        | .ok bytes =>
          let marked := Finset.Ico request.lba.toNat (request.lba + request.sectorCount).toNat
          let media := (overwrite? media start bytes).getD media
          return (Function.update units index ⟨some media, state.dirtySectors ∪ marked⟩, memory)

/-- Completes a due request. -/
def advanceTo (device : BlockDevice) (now : Nat) (memory : PhysicalMemory) :
    BlockDevice × PhysicalMemory × List InterruptSignal :=
  match device.active with
  | none => (device, memory, [])
  | some request =>
    if now < request.deadline then (device, memory, [])
    else
      let (error, units, memory) := match execute device.units request memory with
        | .ok (units, memory) => (.none, units, memory)
        | .error error => (error, device.units, memory)
      let device := { device with active := none, error, complete := true, units }
      (device, memory, [device.signal])

def markFlushFailed (device : BlockDevice) : BlockDevice :=
  { device with error := .deferredPersistence, complete := true }

/-- Writes a unit with dirty sectors to its host. The host is whatever state the
write callback works on; a failed write promises nothing about it. -/
def flush (device : BlockDevice) (unit : U32) (host : Host)
    (writeMedia : Host → List U8 → Except IoError Unit × Host) :
    Except CoreError Unit × BlockDevice × Host × List InterruptSignal :=
  match unitIndex unit with
  | .error error => (.error error, device, host, [])
  | .ok index =>
    let state := device.units index
    if state.dirtySectors = ∅ then (.ok (), device, host, [])
    else match state.media with
      | none => (.error (.invalidBlockMedia unit), device, host, [])
      | some media =>
        match writeMedia host media with
        | (.error error, host) =>
          let device := device.markFlushFailed
          (.error (.blockFlush unit error), device, host, [device.signal])
        | (.ok (), host) => (.ok (), device.setUnitState index { state with dirtySectors := ∅ }, host, [])

/-- Clones attached write-back media for a machine reset. -/
def mediaClone (device : BlockDevice) (unit : U32) : Except CoreError (Option (List U8)) :=
  (unitIndex unit).map fun index => (device.units index).media

def read (device : BlockDevice) : BlockRegister → U32
  | .lba => device.lba
  | .sectorCount => device.sectorCount
  | .physicalAddress => device.dmaAddress.get
  | .status => device.status
  | .error => device.error.code
  | .control => device.control
  | .unit => device.unit
  | .command | .ack => 0

def writeRegister (device : BlockDevice) (register : BlockRegister) (value : U32) (now : Nat) :
    BlockDevice :=
  match register with
  | .command => device.command value now
  | .lba => { device with lba := value }
  | .sectorCount => { device with sectorCount := value }
  | .physicalAddress => { device with dmaAddress := ⟨value⟩ }
  | .ack => device.ack
  | .control => device.setControl value
  | .unit => { device with unit := value }
  | .status | .error => device

def applyUpdate (device : BlockDevice) : BlockUpdate → Except CoreError BlockDevice
  | .attach unit media => device.attach unit media
  | .detach unit => device.detach unit
  | .flushFailed unit => (unitIndex unit).map fun _ => device.markFlushFailed
  | .write register value now => .ok (device.writeRegister register value now)

/-- A rejected update changes nothing and signals nothing. -/
def update (device : BlockDevice) (update : BlockUpdate) :
    Except CoreError (BlockDevice × List InterruptSignal) :=
  (device.applyUpdate update).map fun device => (device, [device.signal])

end BlockDevice

end Minemu.Core
