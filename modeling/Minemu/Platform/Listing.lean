import Minemu.Library.Fallible
import Minemu.Platform.Mmio

/-! The register tables of the device pages, and the decoder's agreement with them: it accepts
exactly the aligned 32-bit accesses that a table admits. -/

namespace Minemu.Platform

/-- The values a register takes. -/
inductive Admitted where
  | any
  | nonzero
  | only (value : Nat)
  | below (bound : Nat)
deriving DecidableEq

def Admitted.holds : Admitted → U32 → Bool
  | any, _ => true
  | nonzero, value => value.toNat ≠ 0
  | only expected, value => value.toNat = expected
  | below bound, value => value.toNat < bound

/-- One row of a register table: its offset in the device page, whether it can be read, and what
can be written to it, if it can be written at all. -/
structure Row where
  offset : Nat
  readable : Bool
  written : Option Admitted
deriving DecidableEq

namespace Row

def readOnly (offset : Nat) : Row := ⟨offset, true, none⟩
def writeOnly (offset : Nat) (admitted : Admitted) : Row := ⟨offset, false, some admitted⟩
def readWrite (offset : Nat) (admitted : Admitted) : Row := ⟨offset, true, some admitted⟩

/-- The accesses a row permits. Instructions are fetched from no register. -/
def admits (row : Row) : Access → U32 → Bool
  | .fetch, _ => false
  | .read, _ => row.readable
  | .write, value => row.written.any (·.holds value)

end Row

namespace InterruptRegister

def row : InterruptRegister → Row
  | pending => .readOnly 0x00
  | enable => .readWrite 0x04 (.below 16)
  | claim => .readOnly 0x08
  -- That the value is the active claim is checked by the controller.
  | eoi => .writeOnly 0x0c .any
  | prioritySysTick => .readWrite 0x10 (.below 256)
  | priorityUart0 => .readWrite 0x14 (.below 256)
  | priorityUart1 => .readWrite 0x18 (.below 256)
  | priorityBlock => .readWrite 0x1c (.below 256)

theorem decode_eq_some {offset : U32} {register : InterruptRegister} :
    decode offset = some register ↔ offset.toNat = register.row.offset := by
  unfold decode
  constructor
  · intro decoded
    split at decoded <;> cases decoded <;> assumption
  · intro located
    rw [located]
    cases register <;> rfl

end InterruptRegister

namespace SysTickRegister

def row : SysTickRegister → Row
  | period => .readWrite 0x00 .nonzero
  | control => .readWrite 0x04 (.below 8)
  | status => .readOnly 0x08
  | ack => .writeOnly 0x0c (.only 1)

theorem decode_eq_some {offset : U32} {register : SysTickRegister} :
    decode offset = some register ↔ offset.toNat = register.row.offset := by
  unfold decode
  constructor
  · intro decoded
    split at decoded <;> cases decoded <;> assumption
  · intro located
    rw [located]
    cases register <;> rfl

end SysTickRegister

namespace BlockRegister

def row : BlockRegister → Row
  | command => .writeOnly 0x00 .any
  | lba => .readWrite 0x04 .any
  | sectorCount => .readWrite 0x08 .any
  | physicalAddress => .readWrite 0x0c .any
  | status => .readOnly 0x10
  | error => .readOnly 0x14
  | ack => .writeOnly 0x18 (.only 1)
  | control => .readWrite 0x1c (.below 2)
  | unit => .readWrite 0x20 .any

theorem decode_eq_some {offset : U32} {register : BlockRegister} :
    decode offset = some register ↔ offset.toNat = register.row.offset := by
  unfold decode
  constructor
  · intro decoded
    split at decoded <;> cases decoded <;> assumption
  · intro located
    rw [located]
    cases register <;> rfl

end BlockRegister

namespace RngRegister

def row : RngRegister → Row
  | seed => .readWrite 0x00 .any
  | data => .readOnly 0x04
  | state => .readOnly 0x08

theorem decode_eq_some {offset : U32} {register : RngRegister} :
    decode offset = some register ↔ offset.toNat = register.row.offset := by
  unfold decode
  constructor
  · intro decoded
    split at decoded <;> cases decoded <;> assumption
  · intro located
    rw [located]
    cases register <;> rfl

end RngRegister

namespace UartRegister

def row : UartRegister → Row
  | receiveData => .readOnly 0x00
  | transmitData => .writeOnly 0x04 (.below 256)
  | status => .readOnly 0x08
  | control => .readWrite 0x0c (.below 2)

theorem decode_eq_some {offset : U32} {register : UartRegister} :
    decode offset = some register ↔ offset.toNat = register.row.offset := by
  unfold decode
  constructor
  · intro decoded
    split at decoded <;> cases decoded <;> assumption
  · intro located
    rw [located]
    cases register <;> rfl

end UartRegister

namespace TraceRegister

def row : TraceRegister → Row
  | event => .writeOnly 0x00 .any

theorem decode_eq_some {offset : U32} {register : TraceRegister} :
    decode offset = some register ↔ offset.toNat = register.row.offset := by
  unfold decode
  cases register
  constructor
  · intro decoded
    split at decoded
    · rename_i first
      rw [first]
      rfl
    · cases decoded
  · intro located
    rw [if_pos (BitVec.eq_of_toNat_eq located)]

end TraceRegister

/-! ### Admitted values -/

/-- Bits above a width are clear exactly in the numbers below its power of two. -/
theorem high_clear {value mask : U32} (width : Nat) (masked : mask = BitVec.allOnes 32 <<< width) :
    value &&& mask = 0#32 ↔ value.toNat < 2 ^ width := by
  have whole : (value &&& mask).toNat = value.toNat / 2 ^ width * 2 ^ width := by
    rw [masked, Library.toNat_and_high]
  have positive := Nat.two_pow_pos width
  rw [← BitVec.toNat_inj, whole, BitVec.toNat_ofNat, Nat.zero_mod, Nat.mul_eq_zero]
  constructor
  · intro zero
    exact Nat.lt_of_div_eq_zero positive (zero.resolve_right positive.ne')
  · intro small
    exact .inl (Nat.div_eq_of_lt small)

namespace MmioRegister

/-- The device page a register is on. -/
def region : MmioRegister → MemRegion
  | interrupt _ => .interruptController
  | sysTick _ => .sysTick
  | dma _ => .dma
  | rng _ => .rng
  | uart0 _ => .uart0
  | uart1 _ => .uart1
  | trace _ => .trace

def row : MmioRegister → Row
  | interrupt register => register.row
  | sysTick register => register.row
  | dma register => register.row
  | rng register => register.row
  | uart0 register | uart1 register => register.row
  | trace register => register.row

/-- The physical address of a register. -/
def address (register : MmioRegister) : Nat :=
  register.region.base.get.toNat + register.row.offset

theorem decode_eq_some {region : MemRegion} {offset : U32} {register : MmioRegister} :
    decode region offset = some register ↔
      region = register.region ∧ offset.toNat = register.row.offset := by
  cases region <;> cases register <;>
    simp [decode, MmioRegister.region, row, InterruptRegister.decode_eq_some,
      SysTickRegister.decode_eq_some, BlockRegister.decode_eq_some, RngRegister.decode_eq_some,
      UartRegister.decode_eq_some, TraceRegister.decode_eq_some]
  case trace.trace register =>
    constructor
    · rintro ⟨⟨⟩, located⟩
      exact located
    · intro located
      exact ⟨register, located⟩

/-- The addresses of a page that decode to a register are its own address. -/
theorem located_iff {address : PhysicalAddress} {register : MmioRegister} :
    (∃ region, MemRegion.ofAddress address = some region ∧
      decode region (address.get - region.base.get) = some register) ↔
        address.get.toNat = register.address := by
  have page : register.row.offset < register.region.range.length.toNat := by
    cases register with
    | interrupt register | sysTick register | dma register | rng register | uart0 register
    | uart1 register | trace register => cases register <;> decide
  have fits := register.region.range.fits
  simp only [decode_eq_some, MemRegion.ofAddress_eq_some, PhysicalRange.containsAddress_iff,
    PhysicalRange.endExclusive]
  constructor
  · rintro ⟨_, ⟨above, below⟩, rfl, offset⟩
    rw [MmioRegister.address, ← offset, MemRegion.base, BitVec.toNat_sub_of_le above]
    omega
  · intro located
    rw [MmioRegister.address, MemRegion.base] at located
    refine ⟨register.region, ⟨by omega, by omega⟩, rfl, ?_⟩
    have above : register.region.range.start.get ≤ address.get := by
      rw [BitVec.le_def]
      omega
    rw [MemRegion.base, BitVec.toNat_sub_of_le above]
    omega

/-- Every register is at an aligned address. -/
theorem address_aligned (register : MmioRegister) : register.address % 4 = 0 := by
  cases register with
  | interrupt register | sysTick register | dma register | rng register | uart0 register
  | uart1 register | trace register => cases register <;> decide

/-- The value check of a writable register is that of its row. -/
theorem valid_iff {register : MmioRegister} {value : U32} {admitted : Admitted}
    (writable : register.row.written = some admitted) :
    register.validateWriteValue value = .ok () ↔ admitted.holds value = true := by
  have byte : value &&& 0xffff_ff00#32 = 0#32 ↔ value.toNat < 256 := high_clear 8 rfl
  have nibble : value &&& 0xffff_fff0#32 = 0#32 ↔ value.toNat < 16 := high_clear 4 rfl
  have bits : value &&& 0xffff_fff8#32 = 0#32 ↔ value.toNat < 8 := high_clear 3 rfl
  have bit : value &&& 0xffff_fffe#32 = 0#32 ↔ value.toNat < 2 := high_clear 1 rfl
  have zero : value = 0#32 ↔ value.toNat = 0 := BitVec.toNat_inj.symm
  have one : value = 1#32 ↔ value.toNat = 1 := BitVec.toNat_inj.symm
  cases register with
  | interrupt register | sysTick register | dma register | rng register | uart0 register
  | uart1 register | trace register =>
    cases register <;> cases writable <;>
      simp [validateWriteValue, InterruptRegister.validateWriteValue,
        SysTickRegister.validateWriteValue, BlockRegister.validateWriteValue,
        RngRegister.validateWriteValue, UartRegister.validateWriteValue,
        TraceRegister.validateWriteValue, Admitted.holds, invalidValue, byte, nibble, bits, bit,
        zero, one]

/-- The directions a register permits are those of its row. -/
theorem permits_eq (register : MmioRegister) :
    register.permissions.permits .read false = register.row.readable ∧
      register.permissions.permits .write false = register.row.written.isSome := by
  cases register with
  | interrupt register | sysTick register | dma register | rng register | uart0 register
  | uart1 register | trace register => cases register <;> decide

/-- A row admits the accesses that the permissions and the value check of its register pass. -/
theorem admits_iff {register : MmioRegister} {access : Access} {value : U32} :
    register.row.admits access value = true ↔
      (access = .read ∨ access = .write) ∧ register.permissions.permits access false = true ∧
        (access = .write → register.validateWriteValue value = .ok ()) := by
  obtain ⟨readable, writable⟩ := register.permits_eq
  cases access with
  | fetch => simp only [Row.admits, Bool.false_eq_true, reduceCtorEq, or_self, false_and]
  | read => simp only [Row.admits, readable, reduceCtorEq, or_false, true_and, false_implies, and_true]
  | write =>
    rw [Row.admits, writable]
    cases written : register.row.written with
    | none => simp only [Option.any_none, Option.isSome_none, Bool.false_eq_true, false_and, and_false]
    | some admitted =>
      simp only [Option.any_some, Option.isSome_some, valid_iff written, reduceCtorEq, false_or,
        true_and, true_implies]

end MmioRegister

/-- What the decoder has checked of an accepted transaction. -/
theorem decodeMmio_eq_ok {transaction : MmioTransaction} {register : MmioRegister} :
    decodeMmio transaction = .ok register ↔
      transaction.width = .u32 ∧ transaction.address.get &&& 3#32 = 0#32 ∧
        (transaction.access = .read ∨ transaction.access = .write) ∧
        (∃ region, MemRegion.ofAddress transaction.address = some region ∧
          MmioRegister.decode region (transaction.address.get - region.base.get) = some register) ∧
        register.permissions.permits transaction.access false = true ∧
        (transaction.access = .write → register.validateWriteValue transaction.value = .ok ()) := by
  constructor
  · intro decoded
    simp only [decodeMmio] at decoded
    split at decoded
    · cases decoded
    rename_i width
    split at decoded
    · cases decoded
    rename_i aligned
    split at decoded
    · cases decoded
    rename_i direction
    cases located : MemRegion.ofAddress transaction.address with
    | none => 
      rw [located] at decoded
      cases decoded
    | some region =>
      simp only [located] at decoded
      cases found : MmioRegister.decode region (transaction.address.get - region.base.get) with
      | none => 
        rw [found] at decoded
        cases decoded
      | some listed =>
        simp only [found] at decoded
        split at decoded
        · cases decoded
        rename_i permitted
        have direction := not_and_or.mp direction
        simp only [not_not] at width aligned direction
        split at decoded
        · obtain ⟨_, valid, same⟩ := Library.bind_ok decoded
          cases same
          exact ⟨width, aligned, direction, ⟨region, rfl, found⟩, by simpa using permitted,
            fun _ => valid⟩
        · rename_i reads
          cases decoded
          exact ⟨width, aligned, direction, ⟨region, rfl, found⟩, by simpa using permitted,
            fun writes => absurd writes reads⟩
  · rintro ⟨width, aligned, direction, ⟨region, located, found⟩, permitted, valid⟩
    have passed : ¬ (transaction.access ≠ .read ∧ transaction.access ≠ .write) := by
      rcases direction with read | write
      · exact fun refused => refused.1 read
      · exact fun refused => refused.2 write
    simp only [decodeMmio, width, aligned, passed, located, found, permitted, ne_eq,
      not_true_eq_false, Bool.not_true, Bool.false_eq_true, ↓reduceIte]
    split
    · rename_i writes
      rw [valid writes]
      rfl
    · rfl

/-- The decoder accepts exactly the 32-bit accesses that the register tables admit. -/
theorem decodeMmio_iff_listed {transaction : MmioTransaction} {register : MmioRegister} :
    decodeMmio transaction = .ok register ↔
      transaction.width = .u32 ∧ transaction.address.get.toNat = register.address ∧
        register.row.admits transaction.access transaction.value = true := by
  rw [decodeMmio_eq_ok, MmioRegister.located_iff, MmioRegister.admits_iff]
  constructor
  · rintro ⟨width, _, access, located, permitted, valid⟩
    exact ⟨width, located, access, permitted, valid⟩
  · rintro ⟨width, located, access, permitted, valid⟩
    refine ⟨width, ?_, access, located, permitted, valid⟩
    have aligned := register.address_aligned
    have low := Library.toNat_and_low transaction.address.get 2 (by decide)
    exact BitVec.eq_of_toNat_eq (low.trans (by rw [located, BitVec.toNat_ofNat]; omega))

end Minemu.Platform
