import Minemu.Core.Memory
import Minemu.Library.FlatMemory

/-! Physical memory as one flat partial byte map: where reads and writes of every width succeed,
and what any run of them leaves. -/

namespace Minemu.Platform.MemRegion

/-- The region has all of `length` places from `start` on. -/
def Spans (region : MemRegion) (start length : Nat) : Prop :=
  region.range.start.get.toNat ≤ start ∧ start + length ≤ region.range.endExclusive

end Minemu.Platform.MemRegion

namespace Minemu.Core.PhysicalMemory

open Library Platform

def inspectRange (memory : PhysicalMemory) (range : PhysicalRange) : Except CoreError (List U8) :=
  memory.regionSlice range.start range.length.toNat

/-- A call on the memory; `readRange` carries the length of its destination. -/
inductive Call where
  | readU8 (address : PhysicalAddress)
  | readU32 (address : PhysicalAddress)
  | readRange (range : PhysicalRange) (destination : Nat)
  | inspectRange (range : PhysicalRange)
  | writeU8 (address : PhysicalAddress) (value : U8)
  | writeU32 (address : PhysicalAddress) (value : U32)
  | writeRange (address : PhysicalAddress) (bytes : List U8)

/-- What a call returns. -/
inductive Answer where
  | byte (value : U8)
  | word (value : U32)
  | bytes (values : List U8)
  | done
deriving DecidableEq

/-- The little-endian bytes of an answer. -/
def Answer.data : Answer → List U8
  | .byte value => [value]
  | .word value => toBytes 4 value.toNat
  | .bytes values => values
  | .done => []

/-- What a write leaves of the memory, refused or not. -/
def wrote (memory : PhysicalMemory) (result : Except CoreError PhysicalMemory) :
    Except CoreError Answer × PhysicalMemory :=
  match result with
  | .error error => (.error error, memory)
  | .ok memory => (.ok .done, memory)

def perform (memory : PhysicalMemory) : Call → Except CoreError Answer × PhysicalMemory
  | .readU8 address => ((memory.readU8 address).map .byte, memory)
  | .readU32 address => ((memory.readU32 address).map .word, memory)
  | .readRange range destination => ((memory.readRange range destination).map .bytes, memory)
  | .inspectRange range => ((memory.inspectRange range).map .bytes, memory)
  | .writeU8 address value => memory.wrote (memory.writeU8 address value)
  | .writeU32 address value => memory.wrote (memory.writeU32 address value)
  | .writeRange address bytes => memory.wrote (memory.writeRange address bytes)

/-- The memory after a call. -/
def next (memory : PhysicalMemory) (call : Call) : PhysicalMemory := (memory.perform call).2

namespace Call

/-- The first address of a call. -/
def start : Call → Nat
  | readU8 address | readU32 address | writeU8 address _ | writeU32 address _
  | writeRange address _ => address.get.toNat
  | readRange range _ | inspectRange range => range.start.get.toNat

/-- The bytes a call writes, and `none` for a read. -/
def written : Call → Option (List U8)
  | writeU8 _ value => some [value]
  | writeU32 _ value => some (toBytes 4 value.toNat)
  | writeRange _ bytes => some bytes
  | readU8 _ | readU32 _ | readRange _ _ | inspectRange _ => none

/-- How many bytes a call is about. -/
def length : Call → Nat
  | readU8 _ | writeU8 _ _ => 1
  | readU32 _ | writeU32 _ _ => 4
  | readRange range _ | inspectRange range => range.length.toNat
  | writeRange _ bytes => bytes.length

/-- The destination of a read of a range has the length of the range. -/
def Matched : Call → Prop
  | readRange range destination => destination = range.length.toNat
  | _ => True

/-- The regions a call may be about. -/
def regions (call : Call) : List MemRegion :=
  if call.written.isSome then [.ram] else [.bootRom, .systemRom, .ram]

/-- The bytes of a call lie in one region that it may be about. -/
def Lies (call : Call) : Prop := ∃ region ∈ call.regions, region.Spans call.start call.length

/-- The access of a flat memory that a call stands for. -/
def access (call : Call) : CellAccess U8 :=
  match call.written with
  | none => .read call.start call.length
  | some values => .write call.start values

end Call

/-- The storage behind one region. -/
structure Bank where
  size : Nat
  cells : Storage size U8

def bank (memory : PhysicalMemory) : MemRegion → Option Bank
  | .bootRom => some ⟨_, memory.bootRom⟩
  | .systemRom => some ⟨_, memory.systemRom⟩
  | .ram => some ⟨_, memory.ram⟩
  | _ => none

def Bank.cell (bank : Bank) (offset : Nat) : Option U8 :=
  if inside : offset < bank.size then some (bank.cells ⟨offset, inside⟩) else none

/-- The byte at an address of the physical map. -/
def byteAt (memory : PhysicalMemory) (place : Nat) : Option U8 :=
  if place < 2 ^ 32 then
    (MemRegion.ofAddress ⟨BitVec.ofNat 32 place⟩).bind fun region =>
      (memory.bank region).bind fun bank => bank.cell (place - region.base.get.toNat)
  else none

/-- The addresses that may be written. -/
def inRam (place : Nat) : Bool := 0x4000_0000 ≤ place ∧ place < 0x4400_0000

theorem ofAddress_spans {region : MemRegion} {place : Nat} (inside : region.Spans place 1) :
    place < 2 ^ 32 ∧ MemRegion.ofAddress ⟨BitVec.ofNat 32 place⟩ = some region := by
  obtain ⟨low, high⟩ := inside
  have fits := region.range.fits
  have small : place < 2 ^ 32 := Nat.lt_of_lt_of_le high fits
  refine ⟨small, MemRegion.ofAddress_eq_some.mpr (PhysicalRange.containsAddress_iff.mpr ?_)⟩
  rw [BitVec.toNat_ofNat, Nat.mod_eq_of_lt small]
  exact ⟨low, high⟩

theorem byteAt_spans (memory : PhysicalMemory) {region : MemRegion} {place : Nat}
    (inside : region.Spans place 1) : memory.byteAt place =
      (memory.bank region).bind fun bank => bank.cell (place - region.base.get.toNat) := by
  obtain ⟨small, found⟩ := ofAddress_spans inside
  rw [byteAt, if_pos small, found, Option.bind_some]

theorem bank_size {memory : PhysicalMemory} {region : MemRegion} {bank : Bank}
    (backed : memory.bank region = some bank) :
    region.range.start.get.toNat + bank.size = region.range.endExclusive := by
  cases region <;> cases backed <;> rfl

/-- Nothing is mapped where a backed region ends. -/
theorem byteAt_end {memory : PhysicalMemory} {region : MemRegion} {bank : Bank}
    (backed : memory.bank region = some bank) :
    memory.byteAt region.range.endExclusive = none := by
  have unmapped : MemRegion.ofAddress ⟨BitVec.ofNat 32 region.range.endExclusive⟩ = none := by
    cases region with
    | bootRom | systemRom | ram => decide
    | interruptController | sysTick | dma | rng | uart0 | uart1 | trace => cases backed
  rw [byteAt, unmapped]
  exact ite_self _

theorem inRam_iff {place : Nat} : inRam place = true ↔ MemRegion.ram.Spans place 1 :=
  decide_eq_true_iff

/-- A byte of RAM, at its physical address. -/
theorem byteAt_ram (memory : PhysicalMemory) {place : Nat} (inside : inRam place = true) :
    memory.byteAt place = some (memory.ramByte place) := by
  have spans := inRam_iff.mp inside
  have window : 0x4000_0000 ≤ place ∧ place < 0x4400_0000 := spans
  have bound : place - 0x4000_0000 < 0x400_0000 := by omega
  have base : MemRegion.ram.base.get.toNat = 0x4000_0000 := by decide
  have backed : memory.bank .ram = some ⟨0x400_0000, memory.ram⟩ := rfl
  rw [memory.byteAt_spans spans, ramByte, dif_pos window, base, backed, Option.bind_some, Bank.cell,
    dif_pos bound]

/-- The memory as a flat map. -/
def flat (memory : PhysicalMemory) : FlatMemory U8 where
  cells := memory.byteAt
  writable := inRam
  mapped place inside := by
    rw [memory.byteAt_ram inside]
    rfl

variable {memory : PhysicalMemory} {address : PhysicalAddress} {length : Nat}

theorem bank_slice {region : MemRegion} {bank : Bank} (backed : memory.bank region = some bank)
    (offset length : Nat) :
    memory.regionBytes offset length region = some (bank.cells.slice offset length) := by
  cases region <;> cases backed <;> rfl

theorem unbacked_slice {region : MemRegion} (unbacked : memory.bank region = none)
    (offset length : Nat) : memory.regionBytes offset length region = none := by
  cases region <;> first | rfl | cases unbacked

theorem regionOffset_of {region : MemRegion} (found : MemRegion.ofAddress address = some region) :
    region.range.start.get.toNat ≤ address.get.toNat ∧
      address.get.toNat < region.range.endExclusive ∧
      regionOffset address =
        .ok (region, address.get.toNat - region.range.start.get.toNat) := by
  obtain ⟨low, high⟩ :=
    PhysicalRange.containsAddress_iff.mp (MemRegion.ofAddress_eq_some.mp found)
  refine ⟨low, high, ?_⟩
  have offset : (address.get - region.base.get).toNat =
      address.get.toNat - region.range.start.get.toNat :=
    BitVec.toNat_sub_of_le (BitVec.le_def.mpr low)
  rw [regionOffset, found]
  exact congrArg (fun offset => Except.ok (region, offset)) offset

/-- A slice that is not empty is a read of the flat map. -/
theorem regionSlice_flat (nonempty : 0 < length) :
    (memory.regionSlice address length).toOption =
      memory.flat.read address.get.toNat length := by
  cases found : MemRegion.ofAddress address with
  | none =>
    have hole : memory.flat.cells (address.get.toNat + 0) = none := by
      change memory.byteAt address.get.toNat = none
      rw [byteAt, if_pos address.get.isLt, BitVec.ofNat_toNat, BitVec.setWidth_eq, found]
      rfl
    rw [FlatMemory.read_hole nonempty hole, regionSlice, regionOffset, found]
    rfl
  | some region =>
    obtain ⟨low, high, located⟩ := regionOffset_of found
    have cell (index : Nat) (inside : address.get.toNat + index < region.range.endExclusive) :
        memory.flat.cells (address.get.toNat + index) = (memory.bank region).bind fun bank =>
          bank.cell (address.get.toNat - region.range.start.get.toNat + index) := by
      refine (memory.byteAt_spans ⟨Nat.le_add_right_of_le low, inside⟩).trans ?_
      rw [MemRegion.base, Nat.sub_add_comm low]
    cases backed : memory.bank region with
    | none =>
      have hole := cell 0 high
      rw [backed] at hole
      rw [FlatMemory.read_hole nonempty hole, regionSlice, located]
      simp only [bind, Except.bind, unbacked_slice backed]
      rfl
    | some bank =>
      have size := bank_size backed
      cases read : bank.cells.slice (address.get.toNat - region.range.start.get.toNat) length with
      | some bytes =>
        have answer : memory.regionSlice address length = .ok bytes := by
          rw [regionSlice, located]
          simp only [bind, Except.bind, bank_slice backed, read]
          rfl
        obtain ⟨fits, counted, values⟩ := Storage.slice_eq_some.mp read
        rw [answer]
        refine (FlatMemory.read_eq_some.mpr ⟨counted, fun index bound => ?_⟩).symm
        rw [values index bound, cell index (by omega), backed, Option.bind_some, Bank.cell,
          dif_pos]
      | none =>
        have outside : region.range.endExclusive < address.get.toNat + length := by
          by_contra fits
          have room : address.get.toNat - region.range.start.get.toNat + length ≤ bank.size := by
            omega
          rw [Storage.slice, dif_pos room] at read
          cases read
        have hole : memory.flat.cells (address.get.toNat +
            (region.range.endExclusive - address.get.toNat)) = none := by
          rw [Nat.add_sub_cancel' (Nat.le_of_lt high)]
          exact byteAt_end backed
        rw [FlatMemory.read_hole (by omega) hole, regionSlice, located]
        simp only [bind, Except.bind, bank_slice backed, read]
        rfl

/-- The ROMs hold what is mapped outside RAM. -/
theorem byteAt_rom {before after : PhysicalMemory} (bootRom : after.bootRom = before.bootRom)
    (systemRom : after.systemRom = before.systemRom) {place : Nat} (outside : inRam place = false) :
    after.byteAt place = before.byteAt place := by
  unfold byteAt
  split
  · rename_i small
    cases found : MemRegion.ofAddress ⟨BitVec.ofNat 32 place⟩ with
    | none => rfl
    | some region =>
      have same : after.bank region = before.bank region := by
        cases region with
        | bootRom => exact congrArg (fun cells => some (Bank.mk _ cells)) bootRom
        | systemRom => exact congrArg (fun cells => some (Bank.mk _ cells)) systemRom
        | ram =>
          have inside := MemRegion.ram_contains.mp (MemRegion.ofAddress_eq_some.mp found)
          rw [BitVec.toNat_ofNat, Nat.mod_eq_of_lt small] at inside
          rw [inRam, decide_eq_true inside] at outside
          cases outside
        | interruptController | sysTick | dma | rng | uart0 | uart1 | trace => rfl
      rw [Option.bind_some, Option.bind_some, same]
  · rfl

theorem passes_iff {start : Nat} {bytes : List U8} (nonempty : 0 < bytes.length) :
    CellAccess.passes inRam start bytes = true ↔ MemRegion.ram.Spans start bytes.length := by
  rw [FlatMemory.passes_iff]
  constructor
  · intro all
    have first := (inRam_iff.mp (all 0 nonempty)).1
    have last := (inRam_iff.mp (all (bytes.length - 1) (Nat.sub_one_lt_of_lt nonempty))).2
    constructor
    · exact first
    · omega
  · intro spans index bound
    obtain ⟨low, high⟩ := spans
    exact inRam_iff.mpr ⟨by omega, by omega⟩

variable {bytes : List U8}

/-- A store lays its bytes over the flat map. -/
theorem stored_flat {after : PhysicalMemory}
    (stored : memory.regionSliceMut address bytes = .ok after) :
    after.flat = memory.flat.after (.write address.get.toNat bytes) := by
  obtain ⟨inside, fits, laid⟩ := regionSliceMut_inv stored
  have passing : CellAccess.passes inRam address.get.toNat bytes = true :=
    FlatMemory.passes_iff.mpr fun index bound => decide_eq_true ⟨by omega, by omega⟩
  refine FlatMemory.ext (funext fun place => ?_) rfl
  change after.byteAt place =
    (CellAccess.leaves inRam place (.write address.get.toNat bytes)).or (memory.byteAt place)
  rw [CellAccess.leaves]
  by_cases within : address.get.toNat ≤ place ∧ place < address.get.toNat + bytes.length
  · have window : inRam place = true := decide_eq_true ⟨by omega, by omega⟩
    have cell := laid.inside (place - address.get.toNat) (by omega)
    rw [Nat.add_sub_cancel' within.1] at cell
    rw [if_pos ⟨passing, within.1⟩, List.getElem?_eq_getElem (by omega), byteAt_ram after window,
      cell, Option.some_or]
  · have left : (if CellAccess.passes inRam address.get.toNat bytes = true ∧
        address.get.toNat ≤ place then bytes[place - address.get.toNat]? else none) = none := by
      split
      · exact List.getElem?_eq_none (by omega)
      · rfl
    rw [left, Option.none_or]
    cases window : inRam place with
    | true => rw [byteAt_ram after window, byteAt_ram memory window, laid.outside place (by omega)]
    | false => exact byteAt_rom laid.bootRom laid.systemRom window

theorem passes_of_refused {error : CoreError}
    (refused : memory.regionSliceMut address bytes = .error error) :
    CellAccess.passes inRam address.get.toNat bytes = false ∨ bytes = [] := by
  cases passing : CellAccess.passes inRam address.get.toNat bytes with
  | false => exact .inl rfl
  | true =>
    refine .inr (List.eq_nil_of_length_eq_zero (Nat.eq_zero_of_not_pos fun nonempty => ?_))
    obtain ⟨low, high⟩ := (passes_iff nonempty).mp passing
    have window : 0x4000_0000 ≤ address.get.toNat := low
    have top : address.get.toNat + bytes.length ≤ 0x4400_0000 := high
    obtain ⟨after, stored, _⟩ := memory.regionSliceMut_ram address bytes ⟨window, by omega⟩ top
    rw [stored] at refused
    cases refused

theorem wrote_flat (memory : PhysicalMemory) (address : PhysicalAddress) (bytes : List U8) :
    (memory.wrote (memory.regionSliceMut address bytes)).2.flat =
      memory.flat.after (.write address.get.toNat bytes) := by
  cases result : memory.regionSliceMut address bytes with
  | ok after => exact stored_flat result
  | error error =>
    refine FlatMemory.ext (funext fun place => ?_) rfl
    have left : CellAccess.leaves inRam place (.write address.get.toNat bytes) = none :=
      FlatMemory.leaves_of_refused (passes_of_refused result)
    exact (congrArg (Option.or · (memory.byteAt place)) left).symm

/-- A call changes the flat map as its access does. -/
theorem next_flat (memory : PhysicalMemory) (call : Call) :
    (memory.next call).flat = memory.flat.after call.access := by
  cases call with
  | readU8 | readU32 | readRange | inspectRange => rfl
  | writeU8 address value => exact memory.wrote_flat address [value]
  | writeU32 address value => exact memory.wrote_flat address (toBytes 4 value.toNat)
  | writeRange address bytes => exact memory.wrote_flat address bytes

theorem run_flat (memory : PhysicalMemory) (calls : List Call) :
    (run next memory calls).flat = run FlatMemory.after memory.flat (calls.map Call.access) := by
  induction calls generalizing memory with
  | nil => rfl
  | cons call calls ih =>
    rw [List.map_cons, run_cons, run_cons, ih, next_flat]

theorem byteAt_run (memory : PhysicalMemory) (calls : List Call) (place : Nat) :
    (run next memory calls).byteAt place =
      (CellAccess.latest inRam place (calls.map Call.access)).or (memory.byteAt place) := by
  have cells := congrArg (fun flat => flat.cells place) (memory.run_flat calls)
  exact cells.trans (memory.flat.run_cells (calls.map Call.access) place)

theorem wrote_roms (memory : PhysicalMemory) (address : PhysicalAddress) (bytes : List U8) :
    (memory.wrote (memory.regionSliceMut address bytes)).2.bootRom = memory.bootRom ∧
      (memory.wrote (memory.regionSliceMut address bytes)).2.systemRom = memory.systemRom := by
  cases result : memory.regionSliceMut address bytes with
  | ok after =>
    obtain ⟨_, _, laid⟩ := regionSliceMut_inv result
    exact ⟨laid.bootRom, laid.systemRom⟩
  | error error => exact ⟨rfl, rfl⟩

theorem next_roms (memory : PhysicalMemory) (call : Call) :
    (memory.next call).bootRom = memory.bootRom ∧
      (memory.next call).systemRom = memory.systemRom := by
  cases call with
  | readU8 | readU32 | readRange | inspectRange => exact ⟨rfl, rfl⟩
  | writeU8 address value => exact memory.wrote_roms address [value]
  | writeU32 address value => exact memory.wrote_roms address (toBytes 4 value.toNat)
  | writeRange address bytes => exact memory.wrote_roms address bytes

theorem run_roms (memory : PhysicalMemory) (calls : List Call) :
    (run next memory calls).bootRom = memory.bootRom ∧
      (run next memory calls).systemRom = memory.systemRom := by
  induction calls generalizing memory with
  | nil => exact ⟨rfl, rfl⟩
  | cons call calls ih =>
    obtain ⟨bootRom, systemRom⟩ := ih (memory.next call)
    obtain ⟨sameBoot, sameSystem⟩ := memory.next_roms call
    exact ⟨bootRom.trans sameBoot, systemRom.trans sameSystem⟩

theorem wrote_answer (nonempty : 0 < bytes.length) :
    (memory.wrote (memory.regionSliceMut address bytes)).1.toOption.map Answer.data =
      memory.flat.answer (.write address.get.toNat bytes) := by
  cases result : memory.regionSliceMut address bytes with
  | ok after =>
    obtain ⟨inside, fits, _⟩ := regionSliceMut_inv result
    have passing : CellAccess.passes inRam address.get.toNat bytes = true :=
      (passes_iff nonempty).mpr ⟨inside.1, fits⟩
    exact (if_pos passing).symm
  | error error =>
    rcases passes_of_refused result with refused | empty
    · exact (if_neg (Bool.eq_false_iff.mp refused)).symm
    · rw [empty] at nonempty
      cases nonempty

theorem slice_answer (nonempty : 0 < length) {answer : List U8 → Answer}
    (kept : ∀ bytes : List U8, bytes.length = length → (answer bytes).data = bytes) :
    ((memory.regionSlice address length).map answer).toOption.map Answer.data =
      memory.flat.answer (.read address.get.toNat length) := by
  rw [FlatMemory.answer, ← regionSlice_flat nonempty]
  cases slice : memory.regionSlice address length with
  | ok bytes => exact congrArg some (kept bytes (length_regionSlice slice))
  | error error => rfl

/-- What a call returns is what the flat map answers. -/
theorem perform_answer (memory : PhysicalMemory) {call : Call} (nonempty : 0 < call.length)
    (matched : call.Matched) :
    (memory.perform call).1.toOption.map Answer.data = memory.flat.answer call.access := by
  cases call with
  | readU8 address =>
    have same : (memory.readU8 address).map Answer.byte =
        (memory.regionSlice address 1).map fun bytes => .byte (bytes.headD 0) := by
      unfold readU8
      cases memory.regionSlice address 1 <;> rfl
    change ((memory.readU8 address).map Answer.byte).toOption.map Answer.data = _
    rw [same]
    apply slice_answer nonempty
    intro bytes single
    obtain ⟨value, rfl⟩ := List.length_eq_one_iff.mp single
    rfl
  | readU32 address =>
    have same : (memory.readU32 address).map Answer.word =
        (memory.regionSlice address 4).map fun bytes =>
          .word (BitVec.ofNat 32 (littleEndian bytes)) := by
      unfold readU32
      cases memory.regionSlice address 4 <;> rfl
    change ((memory.readU32 address).map Answer.word).toOption.map Answer.data = _
    rw [same]
    apply slice_answer nonempty
    intro bytes counted
    have four : bytes.length = 4 := counted
    have small := littleEndian_lt bytes
    rw [four] at small
    have fits : littleEndian bytes < 2 ^ 32 := small
    have cells := toBytes_littleEndian bytes
    rw [four] at cells
    change toBytes 4 (BitVec.ofNat 32 (littleEndian bytes)).toNat = bytes
    rw [BitVec.toNat_ofNat, Nat.mod_eq_of_lt fits, cells]
  | readRange range destination =>
    have same : memory.readRange range destination =
        memory.regionSlice range.start range.length.toNat := by
      cases matched
      exact if_neg (not_not_intro rfl)
    change ((memory.readRange range destination).map Answer.bytes).toOption.map Answer.data = _
    rw [same]
    exact slice_answer nonempty fun bytes _ => rfl
  | inspectRange range => exact slice_answer nonempty fun bytes _ => rfl
  | writeU8 address value =>
    have single : 0 < [value].length := nonempty
    exact wrote_answer single
  | writeU32 address value =>
    have four : 0 < (toBytes 4 value.toNat).length := by
      rw [length_toBytes]
      exact nonempty
    exact wrote_answer four
  | writeRange address bytes => exact wrote_answer nonempty

/-- The flat map is defined on a range exactly when one region has it. -/
theorem read_spans (memory : PhysicalMemory) {start : Nat} (nonempty : 0 < length) :
    (memory.flat.read start length).isSome = true ↔
      ∃ region ∈ [MemRegion.bootRom, .systemRom, .ram], region.Spans start length := by
  rw [FlatMemory.read_isSome]
  constructor
  · intro mapped
    have first := mapped 0 nonempty
    change (memory.byteAt start).isSome = true at first
    unfold byteAt at first
    split at first
    · rename_i small
      obtain ⟨value, returned⟩ := Option.isSome_iff_exists.mp first
      obtain ⟨region, found, cell⟩ := Option.bind_eq_some_iff.mp returned
      obtain ⟨bank, backed, _⟩ := Option.bind_eq_some_iff.mp cell
      have inside := MemRegion.ofAddress_eq_some.mp found
      rw [PhysicalRange.containsAddress_iff, BitVec.toNat_ofNat, Nat.mod_eq_of_lt small] at inside
      refine ⟨region, ?_, inside.1, ?_⟩
      · cases region with
        | bootRom | systemRom | ram => decide
        | interruptController | sysTick | dma | rng | uart0 | uart1 | trace => cases backed
      · by_contra outside
        have past := mapped (region.range.endExclusive - start) (by omega)
        rw [Nat.add_sub_cancel' (Nat.le_of_lt inside.2)] at past
        change (memory.byteAt _).isSome = true at past
        rw [byteAt_end backed] at past
        cases past
    · cases first
  · intro spanned index bound
    obtain ⟨region, member, low, high⟩ := spanned
    obtain ⟨bank, backed⟩ : ∃ bank, memory.bank region = some bank := by
      rcases List.mem_cons.mp member with rfl | member
      · exact ⟨_, rfl⟩
      · rcases List.mem_cons.mp member with rfl | member
        · exact ⟨_, rfl⟩
        · obtain rfl := List.mem_singleton.mp member
          exact ⟨_, rfl⟩
    have size := bank_size backed
    have inside : region.Spans (start + index) 1 := ⟨by omega, by omega⟩
    have room : start + index - region.range.start.get.toNat < bank.size := by omega
    change (memory.byteAt (start + index)).isSome = true
    rw [memory.byteAt_spans inside, backed, Option.bind_some, Bank.cell, MemRegion.base,
      dif_pos room]
    rfl

theorem answer_spans (memory : PhysicalMemory) {call : Call} (nonempty : 0 < call.length) :
    (memory.flat.answer call.access).isSome = true ↔ call.Lies := by
  unfold Call.Lies Call.regions Call.access
  cases stores : call.written with
  | none => exact memory.read_spans nonempty
  | some bytes =>
    have counted : call.length = bytes.length := by
      cases call with
      | writeU8 | writeU32 | writeRange =>
        cases stores
        rfl
      | readU8 | readU32 | readRange | inspectRange => cases stores
    rw [counted] at nonempty ⊢
    refine FlatMemory.answer_write.trans ((passes_iff nonempty).trans ?_)
    constructor
    · intro spans
      exact ⟨.ram, List.mem_singleton_self _, spans⟩
    · intro spanned
      obtain ⟨region, member, spans⟩ := spanned
      obtain rfl := List.mem_singleton.mp member
      exact spans

/-- A read of a range into a destination of another length is refused. -/
theorem perform_unmatched (memory : PhysicalMemory) {call : Call} (other : ¬ call.Matched) :
    (memory.perform call).1.isOk = false := by
  cases call with
  | readRange range destination =>
    have refused : memory.readRange range destination =
        .error (.physicalAccessOutOfBounds range.start.get destination) := if_pos other
    change ((memory.readRange range destination).map Answer.bytes).isOk = false
    rw [refused]
    rfl
  | readU8 | readU32 | inspectRange | writeU8 | writeU32 | writeRange =>
    exact absurd trivial other

theorem perform_isOk (memory : PhysicalMemory) {call : Call} (nonempty : 0 < call.length) :
    (memory.perform call).1.isOk = true ↔ call.Matched ∧ call.Lies := by
  by_cases matched : call.Matched
  · have answer := congrArg Option.isSome (memory.perform_answer nonempty matched)
    rw [← memory.answer_spans nonempty, ← answer]
    cases (memory.perform call).1 with
    | ok answer => exact ⟨fun _ => ⟨matched, rfl⟩, fun _ => rfl⟩
    | error error => exact ⟨fun returned => (by cases returned), fun both => both.2⟩
  · rw [memory.perform_unmatched matched]
    exact ⟨fun returned => (by cases returned), fun both => absurd both.1 matched⟩

/-- Reads and refused calls leave the memory alone. -/
theorem perform_same (memory : PhysicalMemory) {call : Call}
    (reads : call.written = none ∨ (memory.perform call).1.isOk = false) :
    (memory.perform call).2 = memory := by
  have writes (result : Except CoreError PhysicalMemory)
      (refused : (memory.wrote result).1.isOk = false) : (memory.wrote result).2 = memory := by
    cases result with
    | ok after => cases refused
    | error error => rfl
  cases call with
  | readU8 | readU32 | readRange | inspectRange => rfl
  | writeU8 | writeU32 | writeRange =>
    rcases reads with read | refused
    · cases read
    · exact writes _ refused

theorem length_pos_of_read {call : Call} (reads : call.written = none) : 0 < call.length := by
  cases call with
  | readU8 | readU32 => exact Nat.succ_pos _
  | readRange range _ | inspectRange range =>
    exact Nat.pos_of_ne_zero fun empty => range.nonempty (BitVec.eq_of_toNat_eq empty)
  | writeU8 | writeU32 | writeRange => cases reads

/-- The bytes that a read returns. -/
theorem perform_read {call : Call} {answer : Answer} (reads : call.written = none)
    (returned : (memory.perform call).1 = .ok answer) : answer.data.length = call.length ∧
      ∀ index < call.length, answer.data[index]? = memory.byteAt (call.start + index) := by
  have nonempty := length_pos_of_read reads
  have ok : (memory.perform call).1.isOk = true := by
    rw [returned]
    rfl
  have matched := ((memory.perform_isOk nonempty).mp ok).1
  have same := memory.perform_answer nonempty matched
  rw [returned, Call.access, reads] at same
  exact FlatMemory.read_eq_some.mp same.symm

/-- After any run of calls, a call that is not empty succeeds exactly if its bytes lie in one
region that it may be about, and a read of a range only into a destination of that length; a read
returns the bytes last written at its addresses by any write, and the first bytes elsewhere; a
refused call changes nothing, and nothing changes the ROMs. -/
theorem memory_is_flat (memory : PhysicalMemory) (calls : List Call) (call : Call) :
    (0 < call.length → (((run next memory calls).perform call).1.isOk = true ↔
      call.Matched ∧ call.Lies)) ∧
    (∀ answer, call.written = none → ((run next memory calls).perform call).1 = .ok answer →
      answer.data.length = call.length ∧ ∀ index < call.length, answer.data[index]? =
        (CellAccess.latest inRam (call.start + index) (calls.map Call.access)).or
          (memory.byteAt (call.start + index))) ∧
    (call.written = none ∨ ((run next memory calls).perform call).1.isOk = false →
      ((run next memory calls).perform call).2 = run next memory calls) ∧
    ((run next memory calls).perform call).2.bootRom = memory.bootRom ∧
    ((run next memory calls).perform call).2.systemRom = memory.systemRom := by
  refine ⟨?_, ?_, ?_, ?_⟩
  · intro nonempty
    exact (run next memory calls).perform_isOk nonempty
  · intro answer reads returned
    obtain ⟨size, cells⟩ := perform_read reads returned
    refine ⟨size, fun index bound => ?_⟩
    rw [cells index bound, byteAt_run]
  · exact (run next memory calls).perform_same
  · obtain ⟨bootRom, systemRom⟩ := memory.run_roms calls
    obtain ⟨sameBoot, sameSystem⟩ := (run next memory calls).next_roms call
    exact ⟨sameBoot.trans bootRom, sameSystem.trans systemRom⟩

def shortRead : Call := .readRange ⟨MemRegion.ram.base, 2, by decide, by decide⟩ 1

/-- Two bytes of RAM are refused to a destination of one byte. -/
theorem short_destination_refused : 0 < shortRead.length ∧
    ¬ ((empty.perform shortRead).1.isOk = true ↔ shortRead.Lies) := by
  have lies : shortRead.Lies := ⟨.ram, by decide, by decide, by decide⟩
  refine ⟨by decide, fun exact' => ?_⟩
  have refused : (empty.perform shortRead).1.isOk = false := by decide
  rw [exact'.mpr lies] at refused
  cases refused

end Minemu.Core.PhysicalMemory
