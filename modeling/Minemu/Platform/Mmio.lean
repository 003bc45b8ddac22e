import Minemu.Platform.Mmu

/-! Peripheral registers and the typed MMIO decoder. -/

namespace Minemu.Platform

def invalidValue (register : String) (value : U32) : Except PlatformError Unit :=
  .error (.invalidMmioValue register value)

def readWrite : Permissions := Permissions.read.union Permissions.write

inductive InterruptRegister where
  | pending
  | enable
  | claim
  | eoi
  | prioritySysTick
  | priorityUart0
  | priorityUart1
  | priorityBlock
deriving DecidableEq

/-- A nonnegative interrupt-controller source ID passed through the IRQ vector. -/
inductive Source where
  | sysTick
  | uart0
  | uart1
  | block
deriving DecidableEq

namespace Source

def id : Source → U32
  | sysTick => 0
  | uart0 => 1
  | uart1 => 2
  | block => 3

/-- Bit corresponding to this source in PENDING and ENABLE registers. -/
def bit (source : Source) : U32 := 1#32 <<< source.id

def all : List Source := [sysTick, uart0, uart1, block]

theorem mem_all (source : Source) : source ∈ all := by cases source <;> decide

end Source

def defaultPrioritySysTick : U8 := 0
def defaultPriorityUart0 : U8 := 64
def defaultPriorityUart1 : U8 := 64
def defaultPriorityBlock : U8 := 128

namespace InterruptRegister

def decode (offset : U32) : Option InterruptRegister :=
  match offset.toNat with
  | 0x00 => some pending
  | 0x04 => some enable
  | 0x08 => some claim
  | 0x0c => some eoi
  | 0x10 => some prioritySysTick
  | 0x14 => some priorityUart0
  | 0x18 => some priorityUart1
  | 0x1c => some priorityBlock
  | _ => none

def permissions : InterruptRegister → Permissions
  | pending | claim => .read
  | eoi => .write
  | _ => readWrite

def validateWriteValue (register : InterruptRegister) (value : U32) : Except PlatformError Unit :=
  let valid := match register with
    | enable => value &&& ~~~0x0f#32 == 0#32
    | prioritySysTick | priorityUart0 | priorityUart1 | priorityBlock =>
      value &&& ~~~0xff#32 == 0#32
    | _ => true
  if valid then .ok () else invalidValue "interrupt controller register" value

end InterruptRegister

inductive SysTickRegister where
  | period
  | control
  | status
  | ack
deriving DecidableEq

namespace SysTickRegister

def decode (offset : U32) : Option SysTickRegister :=
  match offset.toNat with
  | 0x00 => some period
  | 0x04 => some control
  | 0x08 => some status
  | 0x0c => some ack
  | _ => none

def permissions : SysTickRegister → Permissions
  | status => .read
  | ack => .write
  | _ => readWrite

def validateWriteValue (register : SysTickRegister) (value : U32) : Except PlatformError Unit :=
  let valid := match register with
    | period => value != 0#32
    | control => value &&& ~~~0x07#32 == 0#32
    | ack => value == 1#32
    | _ => true
  if valid then .ok () else invalidValue "SysTick register" value

end SysTickRegister

inductive BlockRegister where
  | command
  | lba
  | sectorCount
  | physicalAddress
  | status
  | error
  | ack
  | control
  | unit
deriving DecidableEq

/-- Guest-visible block error values. -/
inductive BlockError where
  | none
  | noMedia
  | busy
  | invalidCommand
  | invalidDma
  | invalidLba
  | deferredPersistence
  | invalidUnit
deriving DecidableEq

def BlockError.code : BlockError → U32
  | none => 0
  | noMedia => 1
  | busy => 2
  | invalidCommand => 3
  | invalidDma => 4
  | invalidLba => 5
  | deferredPersistence => 6
  | invalidUnit => 7

def unitFilesystem : U32 := 0
def unitSwap : U32 := 1
def statusBusy : U32 := 1#32 <<< 0
def statusComplete : U32 := 1#32 <<< 1
def statusError : U32 := 1#32 <<< 2

namespace BlockRegister

def decode (offset : U32) : Option BlockRegister :=
  match offset.toNat with
  | 0x00 => some command
  | 0x04 => some lba
  | 0x08 => some sectorCount
  | 0x0c => some physicalAddress
  | 0x10 => some status
  | 0x14 => some error
  | 0x18 => some ack
  | 0x1c => some control
  | 0x20 => some unit
  | _ => none

def permissions : BlockRegister → Permissions
  | status | error => .read
  | command | ack => .write
  | _ => readWrite

def validateWriteValue (register : BlockRegister) (value : U32) : Except PlatformError Unit :=
  if (register = ack ∧ value ≠ 1#32) ∨ (register = control ∧ value &&& ~~~1#32 ≠ 0#32) then
    invalidValue "block-device register" value
  else .ok ()

end BlockRegister

/-- Reset value and zero-seed replacement defined by the RNG ABI. -/
def defaultSeed : U32 := 0x4d45_4d55

inductive RngRegister where
  | seed
  | data
  | state
deriving DecidableEq

namespace RngRegister

def decode (offset : U32) : Option RngRegister :=
  match offset.toNat with
  | 0x00 => some seed
  | 0x04 => some data
  | 0x08 => some state
  | _ => none

def permissions : RngRegister → Permissions
  | seed => readWrite
  | data | state => .read

def validateWriteValue (_register : RngRegister) (_value : U32) : Except PlatformError Unit := .ok ()

end RngRegister

inductive UartRegister where
  | receiveData
  | transmitData
  | status
  | control
deriving DecidableEq

namespace UartRegister

def decode (offset : U32) : Option UartRegister :=
  match offset.toNat with
  | 0x00 => some receiveData
  | 0x04 => some transmitData
  | 0x08 => some status
  | 0x0c => some control
  | _ => none

def permissions : UartRegister → Permissions
  | receiveData | status => .read
  | transmitData => .write
  | control => readWrite

def validateWriteValue (register : UartRegister) (value : U32) : Except PlatformError Unit :=
  let valid := match register with
    | transmitData => value &&& ~~~0xff#32 == 0#32
    | control => value &&& ~~~1#32 == 0#32
    | _ => true
  if valid then .ok () else invalidValue "UART register" value

end UartRegister

inductive TraceRegister where
  | event
deriving DecidableEq

namespace TraceRegister

def decode (offset : U32) : Option TraceRegister := if offset = 0#32 then some event else none

def permissions (_register : TraceRegister) : Permissions := .write

def validateWriteValue (_register : TraceRegister) (_value : U32) : Except PlatformError Unit :=
  .ok ()

end TraceRegister

/-- Width of an attempted MMIO transaction. -/
inductive MmioWidth where
  | u8
  | u16
  | u32
  | u64
deriving DecidableEq

namespace MmioWidth

def bytes : MmioWidth → U8
  | u8 => 1
  | u16 => 2
  | u32 => 4
  | u64 => 8

def ofBytes : Nat → Option MmioWidth
  | 1 => some u8
  | 2 => some u16
  | 4 => some u32
  | 8 => some u64
  | _ => none

end MmioWidth

/-- A backend-neutral MMIO transaction to validate and dispatch. -/
structure MmioTransaction where
  address : PhysicalAddress
  width : MmioWidth
  access : Access
  value : U32
deriving DecidableEq

namespace MmioTransaction

def read (address : PhysicalAddress) (width : MmioWidth) : MmioTransaction :=
  ⟨address, width, .read, 0⟩

def write (address : PhysicalAddress) (width : MmioWidth) (value : U32) : MmioTransaction :=
  ⟨address, width, .write, value⟩

end MmioTransaction

/-- A decoded implemented MMIO register. -/
inductive MmioRegister where
  | interrupt (register : InterruptRegister)
  | sysTick (register : SysTickRegister)
  | dma (register : BlockRegister)
  | rng (register : RngRegister)
  | uart0 (register : UartRegister)
  | uart1 (register : UartRegister)
  | trace (register : TraceRegister)
deriving DecidableEq

namespace MmioRegister

def decode (region : MemRegion) (offset : U32) : Option MmioRegister :=
  match region with
  | .interruptController => (InterruptRegister.decode offset).map interrupt
  | .sysTick => (SysTickRegister.decode offset).map sysTick
  | .dma => (BlockRegister.decode offset).map dma
  | .rng => (RngRegister.decode offset).map rng
  | .uart0 => (UartRegister.decode offset).map uart0
  | .uart1 => (UartRegister.decode offset).map uart1
  | .trace => (TraceRegister.decode offset).map trace
  | _ => none

def permissions : MmioRegister → Permissions
  | interrupt register => register.permissions
  | sysTick register => register.permissions
  | dma register => register.permissions
  | rng register => register.permissions
  | uart0 register | uart1 register => register.permissions
  | trace register => register.permissions

def validateWriteValue (register : MmioRegister) (value : U32) : Except PlatformError Unit :=
  match register with
  | interrupt register => register.validateWriteValue value
  | sysTick register => register.validateWriteValue value
  | dma register => register.validateWriteValue value
  | rng register => register.validateWriteValue value
  | uart0 register | uart1 register => register.validateWriteValue value
  | trace register => register.validateWriteValue value

end MmioRegister

/-- Validates a transaction and identifies its target peripheral register. -/
def decodeMmio (transaction : MmioTransaction) : Except PlatformError MmioRegister := do
  if transaction.width ≠ .u32 then throw (.invalidMmioWidth transaction.width.bytes)
  let address := transaction.address.get
  if address &&& 3#32 ≠ 0#32 then throw (.unalignedMmioAddress address)
  if transaction.access ≠ .read ∧ transaction.access ≠ .write then throw .invalidMmioDirection
  match MemRegion.ofAddress transaction.address with
  | none => throw (.invalidMmioAddress address)
  | some region =>
    let offset := address - region.base.get
    match MmioRegister.decode region offset with
    | none => throw (.invalidMmioAddress address)
    | some register =>
      if !register.permissions.permits transaction.access false then throw .invalidMmioDirection
      if transaction.access = .write then register.validateWriteValue transaction.value
      return register

end Minemu.Platform
