import Minemu.Platform.Exception

/-! The A32 register file and the instruction words the adapter intercepts. -/

namespace Minemu.Unicorn

open Platform

/-- A bank of the registers that each mode keeps its own copy of. -/
inductive Bank where
  | user
  | fiq
  | interrupt
  | supervisor
  | abort
  | undefined
  | other
deriving DecidableEq

/-- `RegisterARM`, as far as the adapter names registers. -/
inductive Register where
  | low (index : Fin 13)
  | sp
  | lr
  | pc
  | cpsr
  | spsr
deriving DecidableEq

/-- The A32 registers, with SP, LR and SPSR banked by the mode field of CPSR. -/
structure Cpu where
  low : Fin 13 → U32
  sp : Bank → U32
  lr : Bank → U32
  spsr : Bank → U32
  pc : U32
  cpsr : U32

namespace Cpu

def modeBank (cpsr : U32) : Bank :=
  match (cpsr &&& 0x1f#32).toNat with
  | 0x10 | 0x1f => .user
  | 0x11 => .fiq
  | 0x12 => .interrupt
  | 0x13 => .supervisor
  | 0x17 => .abort
  | 0x1b => .undefined
  | _ => .other

def bank (cpu : Cpu) : Bank := modeBank cpu.cpsr

def read (cpu : Cpu) : Register → U32
  | .low index => cpu.low index
  | .sp => cpu.sp cpu.bank
  | .lr => cpu.lr cpu.bank
  | .pc => cpu.pc
  | .cpsr => cpu.cpsr
  | .spsr => cpu.spsr cpu.bank

def write (cpu : Cpu) (register : Register) (value : U32) : Cpu :=
  match register with
  | .low index => { cpu with low := Function.update cpu.low index value }
  | .sp => { cpu with sp := Function.update cpu.sp cpu.bank value }
  | .lr => { cpu with lr := Function.update cpu.lr cpu.bank value }
  | .pc => { cpu with pc := value }
  | .cpsr => { cpu with cpsr := value }
  | .spsr => { cpu with spsr := Function.update cpu.spsr cpu.bank value }

/-- CPSR.I. -/
def irqsMasked (cpu : Cpu) : Bool := cpu.read .cpsr &&& (1#32 <<< 7) != 0#32

/-- The reset state of the engine's Cortex-A9: the Z flag, aborts, IRQs and FIQs masked, A32
supervisor mode. -/
def reset : Cpu := ⟨fun _ => 0, fun _ => 0, fun _ => 0, fun _ => 0, 0, 0x4000_01d3⟩

end Cpu

structure DecodedBreakpoint where
  condition : U32
  immediate : U16
deriving DecidableEq

def decodeBreakpoint (instruction : U32) : Option DecodedBreakpoint :=
  if instruction &&& 0x0ff0_00f0#32 ≠ 0x0120_0070#32 then none
  else
    let condition := instruction >>> 28
    if condition = 0x0f#32 then none
    else some ⟨condition,
      (((instruction >>> 4) &&& 0xfff0#32) ||| (instruction &&& 0x0f#32)).setWidth 16⟩

def armRegister (index : U32) : Option Register :=
  if low : index.toNat < 13 then some (.low ⟨index.toNat, low⟩)
  else match index.toNat with
    | 13 => some .sp
    | 14 => some .lr
    | 15 => some .pc
    | _ => none

structure DecodedCp15 where
  condition : U32
  read : Bool
  rt : Register
  crn : U32
  crm : U32
  opc1 : U32
  opc2 : U32
deriving DecidableEq

def decodeCp15 (instruction : U32) : Option DecodedCp15 :=
  if instruction &&& 0x0f00_0010#32 ≠ 0x0e00_0010#32 ∨
      (instruction >>> 8) &&& 0x0f#32 ≠ 15#32 then none
  else
    (armRegister ((instruction >>> 12) &&& 0x0f#32)).map fun rt =>
      { condition := instruction >>> 28
        read := instruction &&& (1#32 <<< 20) != 0#32
        rt
        crn := (instruction >>> 16) &&& 0x0f#32
        crm := instruction &&& 0x0f#32
        opc1 := (instruction >>> 21) &&& 0x07#32
        opc2 := (instruction >>> 5) &&& 0x07#32 }

/-- A CP15 access taken off the instruction stream, to be finished after the batch. -/
inductive PendingCp15 where
  | operation (operation : Cp15Operation)
  | readFaultStatus (register : Register)
  | readFaultAddress (register : Register)
  | undefined (pc : U32)
deriving DecidableEq

/-- A validated operation, or the undefined instruction a refused operand raises. -/
def pendingOperation (checked : Except PlatformError Cp15Operation) (pc : U32) : PendingCp15 :=
  match checked with
  | .ok operation => .operation operation
  | .error _ => .undefined pc

def cp15Pending (cpu : Cpu) (cp15 : DecodedCp15) (pc : U32) : PendingCp15 :=
  match cp15.read, cp15.crn.toNat, cp15.crm.toNat, cp15.opc1.toNat, cp15.opc2.toNat with
  | false, 2, 0, 0, 0 => pendingOperation (Cp15Operation.ofTtbr0 (cpu.read cp15.rt)) pc
  | false, 1, 0, 0, 0 => .operation (Cp15Operation.ofSctlr (cpu.read cp15.rt))
  | false, 8, 7, 0, 0 => .operation .invalidateAll
  | false, 12, 0, 0, 0 => pendingOperation (Cp15Operation.ofVbar (cpu.read cp15.rt)) pc
  | true, 5, 0, 0, 0 => .readFaultStatus cp15.rt
  | true, 6, 0, 0, 0 => .readFaultAddress cp15.rt
  | _, _, _, _, _ => .undefined pc

def cp15IsPrivileged (cpsr : U32) : Bool :=
  match (cpsr &&& 0x1f#32).toNat with
  | 0x13 | 0x12 | 0x17 | 0x1b => true
  | _ => false

def conditionHolds (condition cpsr : U32) : Bool :=
  let negative := cpsr &&& (1#32 <<< 31) != 0#32
  let zero := cpsr &&& (1#32 <<< 30) != 0#32
  let carry := cpsr &&& (1#32 <<< 29) != 0#32
  let overflow := cpsr &&& (1#32 <<< 28) != 0#32
  match condition.toNat with
  | 0 => zero
  | 1 => !zero
  | 2 => carry
  | 3 => !carry
  | 4 => negative
  | 5 => !negative
  | 6 => overflow
  | 7 => !overflow
  | 8 => carry && !zero
  | 9 => !carry || zero
  | 10 => negative == overflow
  | 11 => negative != overflow
  | 12 => !zero && negative == overflow
  | 13 => zero || negative != overflow
  | 14 => true
  | _ => false

example : decodeBreakpoint 0xe121_2374 = some ⟨0x0e, 0x1234⟩ := by decide

end Minemu.Unicorn
