import Minemu.Core.BlockProtocol
import Minemu.Library.Fallible

/-! Block transfers, with what they leave behind on every path: which requests succeed, what they
copy, and that a refused one changes nothing. -/

namespace Minemu.Core

open Library Platform

namespace PhysicalMemory

/-- `read_range` with what it leaves in the destination. -/
def readRangeCall (memory : PhysicalMemory) (range : PhysicalRange) (destination : List U8) :
    Except CoreError Unit × List U8 :=
  match memory.readRange range destination.length with
  | .error error => (.error error, destination)
  | .ok bytes => (.ok (), bytes)

/-- `write_range` with what it leaves of the memory. -/
def writeRangeCall (memory : PhysicalMemory) (address : PhysicalAddress) (bytes : List U8) :
    Except CoreError Unit × PhysicalMemory :=
  match memory.writeRange address bytes with
  | .error error => (.error error, memory)
  | .ok memory => (.ok (), memory)

end PhysicalMemory

namespace BlockDevice

/-- The loop that marks `first..last` dirty, one sector at a time. -/
def markDirty (state : MediaUnit) (first last : Nat) : MediaUnit :=
  (List.range' first (last - first)).foldl (fun state sector =>
    { state with dirtySectors := insert sector state.dirtySectors }) state

/-- `BlockDevice::execute` with the device and the memory at every return. The media slice is the
destination of the read, so whatever the read leaves in it stays in the media. -/
def executeCall (device : BlockDevice) (request : Request) (memory : PhysicalMemory) :
    Except BlockError BlockError × BlockDevice × PhysicalMemory :=
  match unitIndex request.unit with
  | .error _ => (.error .invalidUnit, device, memory)
  | .ok index =>
    match dmaRange request with
    | .error error => (.error error, device, memory)
    | .ok range =>
      let state := device.units index
      match state.media with
      | none => (.error .noMedia, device, memory)
      | some media =>
        let start := request.lba.toNat * sectorSize
        let stop := start + request.sectorCount.toNat * sectorSize
        match slice? media start stop with
        | none => (.error .invalidLba, device, memory)
        | some sectors =>
          if request.command = 1#32 then
            let (result, memory) := memory.writeRangeCall request.dmaAddress sectors
            match result with
            | .error _ => (.error .invalidDma, device, memory)
            | .ok () => (.ok .none, device, memory)
          else
            let (result, sectors) := memory.readRangeCall range sectors
            let state := { state with media := some ((overwrite? media start sectors).getD media) }
            match result with
            | .error _ => (.error .invalidDma, device.setUnitState index state, memory)
            | .ok () =>
              let state := markDirty state request.lba.toNat (request.lba + request.sectorCount).toNat
              (.ok .none, device.setUnitState index state, memory)

/-! ### The same function -/

theorem markDirty_eq (state : MediaUnit) (first last : Nat) :
    markDirty state first last =
      { state with dirtySectors := state.dirtySectors ∪ Finset.Ico first last } := by
  unfold markDirty
  have marked (count first : Nat) (state : MediaUnit) :
      (List.range' first count).foldl (fun (state : MediaUnit) sector =>
        { state with dirtySectors := insert sector state.dirtySectors }) state =
      { state with dirtySectors := state.dirtySectors ∪ Finset.Ico first (first + count) } := by
    induction count generalizing first state with
    | zero => simp
    | succ count ih =>
      rw [List.range'_succ, List.foldl_cons, ih]
      have rest : Finset.Ico first (first + (count + 1)) =
          insert first (Finset.Ico (first + 1) (first + 1 + count)) := by
        ext sector
        simp only [Finset.mem_insert, Finset.mem_Ico]
        omega
      rw [rest, Finset.insert_union, Finset.union_insert]
  rw [marked]
  by_cases ordered : first ≤ last
  · rw [Nat.add_sub_cancel' ordered]
  · rw [Nat.sub_eq_zero_of_le (Nat.le_of_not_le ordered), Finset.Ico_eq_empty (by omega),
      Finset.Ico_eq_empty (by omega)]

theorem overwrite_slice {media sectors : List U8} {start stop : Nat}
    (cut : slice? media start stop = some sectors) : overwrite? media start sectors = some media := by
  obtain ⟨ordered, fits, -⟩ := slice?_eq_some.mp cut
  have length := length_of_slice? cut
  cases written : overwrite? media start sectors with
  | none =>
    have outside : ¬ start + sectors.length ≤ media.length := by simpa [overwrite?] using written
    omega
  | some after =>
    refine congrArg some (List.ext_getElem? fun index => ?_)
    rw [getElem?_overwrite written, getElem?_slice cut]
    by_cases inside : start ≤ index ∧ index < start + sectors.length
    · rw [if_pos inside, if_pos (by omega), Nat.add_sub_cancel' inside.1]
    · rw [if_neg inside]

theorem setUnitState_same (device : BlockDevice) (index : Fin 2) :
    device.setUnitState index (device.units index) = device := by
  rw [setUnitState, Function.update_eq_self]

/-- What a call comes to whose outcome alone is known. -/
def concluded (device : BlockDevice) (memory : PhysicalMemory) :
    Except BlockError ((Fin 2 → MediaUnit) × PhysicalMemory) →
      Except BlockError BlockError × BlockDevice × PhysicalMemory
  | .ok (units, memory) => (.ok .none, { device with units }, memory)
  | .error error => (.error error, device, memory)

/-- `execute` is `executeCall`: a refused request leaves nothing behind. -/
theorem executeCall_eq (device : BlockDevice) (request : Request) (memory : PhysicalMemory) :
    device.executeCall request memory =
      device.concluded memory (execute device.units request memory) := by
  unfold executeCall execute
  cases unitIndex request.unit with
  | error error => rfl
  | ok index =>
    cases dmaRange request with
    | error error => rfl
    | ok range =>
      simp only [Except.mapError, bind, Except.bind]
      cases attached : (device.units index).media with
      | none => rfl
      | some media =>
        simp only
        cases cut : slice? media (request.lba.toNat * sectorSize)
            (request.lba.toNat * sectorSize + request.sectorCount.toNat * sectorSize) with
        | none => rfl
        | some sectors =>
          simp only
          by_cases load : request.command = 1#32
          · rw [if_pos load, if_pos load, PhysicalMemory.writeRangeCall]
            cases memory.writeRange request.dmaAddress sectors <;> rfl
          · rw [if_neg load, if_neg load, PhysicalMemory.readRangeCall]
            cases memory.readRange range sectors.length with
            | error error =>
              have same : (⟨some media, (device.units index).dirtySectors⟩ : MediaUnit) =
                  device.units index := by rw [← attached]
              simp only [overwrite_slice cut, Option.getD_some, same, setUnitState_same]
              rfl
            | ok bytes =>
              simp only [markDirty_eq]
              rfl

/-! ### Which requests are carried out -/

/-- A command, and a DMA range of whole sectors that lies in RAM. -/
structure Addressable (request : Request) : Prop where
  command : request.command = 1#32 ∨ request.command = 2#32
  aligned : 512 ∣ request.dmaAddress.get.toNat
  nonempty : 1 ≤ request.sectorCount.toNat
  start : 0x4000_0000 ≤ request.dmaAddress.get.toNat
  stop : request.dmaAddress.get.toNat + 512 * request.sectorCount.toNat ≤ 0x4400_0000

theorem aligned_iff (address : U32) : address &&& 511#32 = 0#32 ↔ 512 ∣ address.toNat := by
  have masked : (address &&& 511#32).toNat = address.toNat % 2 ^ 9 := by
    rw [BitVec.toNat_and]
    exact Nat.and_two_pow_sub_one_eq_mod address.toNat 9
  rw [← BitVec.toNat_inj, masked, Nat.dvd_iff_mod_eq_zero]
  rfl

/-- The checks up to the DMA range, one by one. -/
theorem dmaRange_checks {request : Request} {range : PhysicalRange} :
    dmaRange request = .ok range ↔
      (request.command = 1#32 ∨ request.command = 2#32) ∧
        request.sectorCount.toNat * sectorSize < 2 ^ 32 ∧
        PhysicalRange.new request.dmaAddress
          (BitVec.ofNat 32 (request.sectorCount.toNat * sectorSize)) = .ok range ∧
        request.dmaAddress.get &&& 511#32 = 0#32 ∧ MemRegion.ram.range.containsRange range = true := by
  unfold dmaRange
  simp only [bind, Except.bind, pure, Except.pure, throw, throwThe, MonadExceptOf.throw]
  by_cases unknown : request.command ≠ 1#32 ∧ request.command ≠ 2#32
  · rw [if_pos unknown]
    refine ⟨fun refused => (by cases refused), fun checks => ?_⟩
    rcases checks.1 with load | store
    · exact absurd load unknown.1
    · exact absurd store unknown.2
  · have known : request.command = 1#32 ∨ request.command = 2#32 := by
      rwa [← not_and_or.trans (or_congr not_not not_not)]
    rw [if_neg unknown]
    by_cases large : 2 ^ 32 ≤ request.sectorCount.toNat * sectorSize
    · simp only [if_pos large, not_lt.mpr large, false_and, and_false, reduceCtorEq]
    · simp only [if_neg large, not_le.mp large, known, true_and]
      cases PhysicalRange.new request.dmaAddress
          (BitVec.ofNat 32 (request.sectorCount.toNat * sectorSize)) with
      | error error => simp only [reduceCtorEq, false_and]
      | ok dma =>
        by_cases refused : request.dmaAddress.get &&& 511#32 ≠ 0#32 ∨
            (!MemRegion.ram.range.containsRange dma) = true
        · simp only [if_pos refused, Except.ok.injEq, reduceCtorEq, false_iff]
          rintro ⟨rfl, aligned, inside⟩
          rcases refused with askew | outside
          · exact askew aligned
          · rw [inside] at outside
            cases outside
        · simp only [if_neg refused, Except.ok.injEq]
          obtain ⟨aligned, inside⟩ := not_or.mp refused
          rw [not_not] at aligned
          rw [Bool.not_eq_true', Bool.not_eq_false] at inside
          exact ⟨fun same => ⟨same, aligned, same ▸ inside⟩, fun checks => checks.1⟩

/-- The checks up to the DMA range pass exactly on an addressable request. -/
theorem dmaRange_eq_ok {request : Request} {range : PhysicalRange} :
    dmaRange request = .ok range ↔ Addressable request ∧ range.start = request.dmaAddress ∧
      range.length.toNat = 512 * request.sectorCount.toNat := by
  have count (fits : request.sectorCount.toNat * sectorSize < 2 ^ 32) :
      (BitVec.ofNat 32 (request.sectorCount.toNat * sectorSize)).toNat =
        512 * request.sectorCount.toNat := by
    rw [BitVec.toNat_ofNat, Nat.mod_eq_of_lt fits, Nat.mul_comm]
    rfl
  rw [dmaRange_checks, aligned_iff, MemRegion.ram_containsRange, PhysicalRange.new_eq_ok,
    PhysicalRange.endExclusive]
  constructor
  · rintro ⟨command, fits, ⟨start, length⟩, aligned, low, high⟩
    have positive : 0 < range.length.toNat := by
      have nonempty := range.nonempty
      rw [Ne, ← BitVec.toNat_inj, BitVec.toNat_ofNat] at nonempty
      omega
    rw [start] at low high
    rw [length, count fits] at high positive
    exact ⟨⟨command, aligned, by omega, low, high⟩, start, by rw [length, count fits]⟩
  · rintro ⟨addressable, start, length⟩
    have stop := addressable.stop
    have fits : request.sectorCount.toNat * sectorSize < 2 ^ 32 := by
      have size : sectorSize = 512 := rfl
      rw [size]
      omega
    refine ⟨addressable.command, fits, ⟨start, ?_⟩, addressable.aligned, ?_, ?_⟩
    · rw [← BitVec.toNat_inj, count fits, length]
    · rw [start]
      exact addressable.start
    · rw [start, length]
      exact stop

/-- A request fails the checks up to the DMA range exactly when it is not addressable. -/
theorem exists_dmaRange {request : Request} :
    (∃ range, dmaRange request = .ok range) ↔ Addressable request := by
  constructor
  · rintro ⟨range, checked⟩
    exact (dmaRange_eq_ok.mp checked).1
  · intro addressable
    have stop := addressable.stop
    have nonempty := addressable.nonempty
    have length : (BitVec.ofNat 32 (512 * request.sectorCount.toNat)).toNat =
        512 * request.sectorCount.toNat := by
      rw [BitVec.toNat_ofNat, Nat.mod_eq_of_lt (by omega)]
    obtain ⟨range, built⟩ := PhysicalRange.exists_new.mpr
      (⟨by omega, by omega⟩ : 0 < (BitVec.ofNat 32 (512 * request.sectorCount.toNat)).toNat ∧
        request.dmaAddress.get.toNat + (BitVec.ofNat 32 (512 * request.sectorCount.toNat)).toNat ≤
          2 ^ 32)
    obtain ⟨start, size⟩ := PhysicalRange.new_eq_ok.mp built
    exact ⟨range, dmaRange_eq_ok.mpr ⟨addressable, start, by rw [size, length]⟩⟩

/-- The request names an attached medium, is addressable, and its sectors lie in the medium. -/
structure Transfers (device : BlockDevice) (request : Request) (index : Fin 2) (media : List U8) :
    Prop where
  unit : request.unit.toNat = index
  attached : (device.units index).media = some media
  addressable : Addressable request
  within : 512 * (request.lba.toNat + request.sectorCount.toNat) ≤ media.length

/-- The media bytes of the sectors of a request. -/
def sectorBytes (request : Request) (media : List U8) : List U8 :=
  (media.drop (512 * request.lba.toNat)).take (512 * request.sectorCount.toNat)

/-- The RAM bytes of the DMA range of a request. -/
def dmaBytes (request : Request) (memory : PhysicalMemory) : List U8 :=
  (List.range (512 * request.sectorCount.toNat)).map fun index =>
    memory.ramByte (request.dmaAddress.get.toNat + index)

/-- The medium with the sectors of a request replaced by its DMA range. -/
def replaceSectors (request : Request) (memory : PhysicalMemory) (media : List U8) : List U8 :=
  media.take (512 * request.lba.toNat) ++ dmaBytes request memory ++
    media.drop (512 * (request.lba.toNat + request.sectorCount.toNat))

variable {device : BlockDevice} {request : Request} {memory : PhysicalMemory} {index : Fin 2}
  {media : List U8}

theorem unitIndex_eq_ok : unitIndex request.unit = .ok index ↔ request.unit.toNat = index := by
  refine ⟨fun found => (BlockPersistence.unitIndex_ok found).symm, fun unit => ?_⟩
  unfold unitIndex
  rw [dif_pos (unit ▸ index.isLt)]
  exact congrArg Except.ok (Fin.ext unit)

namespace Transfers

theorem slice_eq (transfers : device.Transfers request index media) :
    slice? media (request.lba.toNat * sectorSize)
    (request.lba.toNat * sectorSize + request.sectorCount.toNat * sectorSize) =
      some (sectorBytes request media) := by
  have within := transfers.within
  have size : sectorSize = 512 := rfl
  rw [slice?_eq_some, size]
  refine ⟨Nat.le_add_right _ _, by omega, ?_⟩
  rw [sectorBytes, List.drop_take, Nat.add_sub_cancel_left, Nat.mul_comm, Nat.mul_comm 512]

theorem length_sectorBytes (transfers : device.Transfers request index media) :
    (sectorBytes request media).length = 512 * request.sectorCount.toNat := by
  have within := transfers.within
  rw [sectorBytes, List.length_take, List.length_drop]
  omega

/-- A load stores the sectors in the DMA range and leaves the device alone. -/
theorem load (transfers : device.Transfers request index media) (command : request.command = 1#32) :
    ∃ after, device.executeCall request memory = (.ok .none, device, after) ∧
      memory.Stored after request.dmaAddress.get.toNat (sectorBytes request media) := by
  have length := transfers.length_sectorBytes
  have start := transfers.addressable.start
  have stop := transfers.addressable.stop
  have nonempty := transfers.addressable.nonempty
  obtain ⟨range, checked⟩ := exists_dmaRange.mpr transfers.addressable
  obtain ⟨after, written, stored⟩ := memory.regionSliceMut_ram request.dmaAddress
    (sectorBytes request media) ⟨start, by omega⟩ (by omega)
  refine ⟨after, ?_, stored⟩
  simp only [executeCall, unitIndex_eq_ok.mpr transfers.unit, checked, transfers.attached,
    transfers.slice_eq, if_pos command, PhysicalMemory.writeRangeCall, PhysicalMemory.writeRange,
    written]

/-- A store replaces the sectors by the DMA range, marks them dirty and leaves memory alone. -/
theorem store (transfers : device.Transfers request index media) (command : request.command = 2#32)
    (short : media.length < 2 ^ 32 * sectorSize) :
    device.executeCall request memory =
      (.ok .none, device.setUnitState index ⟨some (replaceSectors request memory media),
        (device.units index).dirtySectors ∪ Finset.Ico request.lba.toNat
          (request.lba.toNat + request.sectorCount.toNat)⟩, memory) := by
  have length := transfers.length_sectorBytes
  have addressable := transfers.addressable
  have within := transfers.within
  have stop := addressable.stop
  have nonempty := addressable.nonempty
  obtain ⟨range, checked⟩ := exists_dmaRange.mpr addressable
  obtain ⟨-, start, size⟩ := dmaRange_eq_ok.mp checked
  have read : memory.readRange range (sectorBytes request media).length =
      .ok (dmaBytes request memory) := by
    unfold PhysicalMemory.readRange
    rw [length, if_neg (not_not.mpr size.symm), start]
    exact memory.regionSlice_ram ⟨addressable.start, by omega⟩ stop
  have bytes : (dmaBytes request memory).length = 512 * request.sectorCount.toNat := by
    rw [dmaBytes, List.length_map, List.length_range]
  have written : overwrite? media (request.lba.toNat * sectorSize) (dmaBytes request memory) =
      some (replaceSectors request memory media) := by
    have width : sectorSize = 512 := rfl
    unfold overwrite? replaceSectors
    rw [bytes, width, Nat.mul_comm request.lba.toNat, ← Nat.mul_add, if_pos within]
  have sum : (request.lba + request.sectorCount).toNat =
      request.lba.toNat + request.sectorCount.toNat := by
    have width : sectorSize = 512 := rfl
    rw [width] at short
    rw [BitVec.toNat_add, Nat.mod_eq_of_lt (by omega)]
  have other : request.command ≠ 1#32 := by
    rw [command]
    decide
  simp only [executeCall, unitIndex_eq_ok.mpr transfers.unit, checked, transfers.attached,
    transfers.slice_eq, if_neg other, PhysicalMemory.readRangeCall, read, written, Option.getD_some,
    markDirty_eq, sum]

end Transfers

/-- A request that succeeds transfers. -/
theorem transfers_of_executed (executed : (device.executeCall request memory).1.isOk = true) :
    ∃ index media, device.Transfers request index media := by
  rw [executeCall_eq] at executed
  cases outcome : execute device.units request memory with
  | error error =>
    rw [outcome] at executed
    cases executed
  | ok result =>
    obtain ⟨after, memory'⟩ := result
    obtain ⟨index, found, media, attached, within, -⟩ := BlockPersistence.execute_ok outcome
    have size : sectorSize = 512 := rfl
    unfold execute at outcome
    obtain ⟨_, -, outcome⟩ := bind_ok outcome
    obtain ⟨range, checked, -⟩ := bind_ok outcome
    refine ⟨index, media, unitIndex_eq_ok.mp found, attached,
      exists_dmaRange.mp ⟨range, checked⟩, ?_⟩
    rw [size] at within
    omega

/-- A refused request changes nothing. -/
theorem refused_unchanged {error : BlockError}
    (refused : (device.executeCall request memory).1 = .error error) :
    (device.executeCall request memory).2 = (device, memory) := by
  rw [executeCall_eq] at refused ⊢
  cases outcome : execute device.units request memory with
  | error error => rfl
  | ok result =>
    rw [outcome] at refused
    cases refused

/-- Block transfers are exact and atomic: a request succeeds exactly when it is addressable and its
sectors lie in the attached medium it names; a load then copies exactly those sectors to RAM, a
store exactly the DMA range to those sectors, which become dirty; a refused request changes
nothing. -/
theorem block_transfer_exact (device : BlockDevice) (request : Request) (memory : PhysicalMemory)
    (short : ∀ index media, (device.units index).media = some media →
      media.length < 2 ^ 32 * sectorSize) :
    ((device.executeCall request memory).1.isOk = true ↔
      ∃ index media, device.Transfers request index media) ∧
    (∀ index media, device.Transfers request index media →
      (request.command = 1#32 →
        ∃ after, device.executeCall request memory = (.ok .none, device, after) ∧
          memory.Stored after request.dmaAddress.get.toNat (sectorBytes request media)) ∧
      (request.command = 2#32 →
        device.executeCall request memory =
          (.ok .none, device.setUnitState index ⟨some (replaceSectors request memory media),
            (device.units index).dirtySectors ∪ Finset.Ico request.lba.toNat
              (request.lba.toNat + request.sectorCount.toNat)⟩, memory))) ∧
    ∀ error, (device.executeCall request memory).1 = .error error →
      (device.executeCall request memory).2 = (device, memory) := by
  refine ⟨⟨transfers_of_executed, ?_⟩, ?_, fun _ => refused_unchanged⟩
  · rintro ⟨index, media, transfers⟩
    rcases transfers.addressable.command with load | store
    · obtain ⟨after, executed, -⟩ := transfers.load load
      rw [executed]
      rfl
    · rw [transfers.store store (short index media transfers.attached)]
      rfl
  · intro index media transfers
    exact ⟨transfers.load, fun store =>
      transfers.store store (short index media transfers.attached)⟩

/-- One sector of zeros in unit 0. -/
def oneSector : BlockDevice := new.setUnitState ⟨0, Nat.two_pos⟩ ⟨some (List.replicate 512 0), ∅⟩

theorem block_transfer_exact_store :
    (oneSector.executeCall ⟨2, 0, 1, ⟨0x4000_0000⟩, 0, 32⟩ .empty).1.isOk = true := by
  refine (block_transfer_exact oneSector ⟨2, 0, 1, ⟨0x4000_0000⟩, 0, 32⟩ .empty ?_).1.mpr
    ⟨⟨0, Nat.two_pos⟩, List.replicate 512 0, rfl, rfl, ⟨.inr rfl, by decide, le_rfl, le_rfl, by decide⟩, ?_⟩
  · intro index media attached
    by_cases first : index = ⟨0, Nat.two_pos⟩
    · subst first
      cases attached
      rw [List.length_replicate]
      decide
    · simp only [oneSector, setUnitState, Function.update_of_ne first] at attached
      cases attached
  · rw [List.length_replicate]
    decide

/-! ### Which error a request completes with -/

/-- The error code a request completes with. -/
def completionError (device : BlockDevice) (request : Request) (memory : PhysicalMemory) :
    BlockError := (device.carriedOut request memory).1.error

theorem completionError_of_error {error : BlockError}
    (refused : execute device.units request memory = .error error) :
    device.completionError request memory = error := by
  rw [completionError, carriedOut, refused]

/-- The checks up to the DMA range report an invalid command or an invalid range, nothing else. -/
theorem dmaRange_error {error : BlockError} (refused : dmaRange request = .error error) :
    error = .invalidCommand ∨ error = .invalidDma := by
  unfold dmaRange at refused
  simp only [bind, Except.bind, pure, Except.pure, throw, throwThe, MonadExceptOf.throw] at refused
  by_cases unknown : request.command ≠ 1#32 ∧ request.command ≠ 2#32
  · rw [if_pos unknown] at refused
    cases refused
    exact .inl rfl
  · rw [if_neg unknown] at refused
    apply Or.inr
    split at refused
    · cases refused
      rfl
    · split at refused
      · cases refused
        rfl
      · split at refused
        · cases refused
          rfl
        · cases refused

/-- A unit the device does not have is reported before anything else. -/
theorem completionError_invalidUnit (unit : 2 ≤ request.unit.toNat) :
    device.completionError request memory = .invalidUnit := by
  apply completionError_of_error
  have missing : unitIndex request.unit = .error (.invalidBlockUnit request.unit) := by
    unfold unitIndex
    rw [dif_neg (not_lt.mpr unit)]
  unfold execute
  rw [missing]
  rfl

/-- A missing medium is reported after the checks up to the DMA range. -/
theorem completionError_noMedia (unit : request.unit.toNat = index)
    (missing : (device.units index).media = none) :
    device.completionError request memory = .noMedia ↔ Addressable request := by
  rw [← exists_dmaRange]
  cases checked : dmaRange request with
  | error error =>
    have refused : execute device.units request memory = .error error := by
      unfold execute
      rw [unitIndex_eq_ok.mpr unit, checked]
      rfl
    rw [completionError_of_error refused]
    constructor
    · rintro rfl
      rcases dmaRange_error checked with same | same <;> cases same
    · rintro ⟨range, same⟩
      cases same
  | ok range =>
    have refused : execute device.units request memory = .error .noMedia := by
      unfold execute
      rw [unitIndex_eq_ok.mpr unit, checked]
      simp only [Except.mapError, bind, Except.bind, missing]
      rfl
    exact ⟨fun _ => ⟨range, rfl⟩, fun _ => completionError_of_error refused⟩

/-- Unit errors are the ones reported exactly when a request for a unit without a medium is
addressable. -/
theorem unit_errors_first (device : BlockDevice) (request : Request) (memory : PhysicalMemory) :
    ((2 ≤ request.unit.toNat → device.completionError request memory = .invalidUnit) ∧
      ∀ index : Fin 2, request.unit.toNat = index → (device.units index).media = none →
        device.completionError request memory = .noMedia) ↔
    ∀ index : Fin 2, request.unit.toNat = index → (device.units index).media = none →
      Addressable request := by
  constructor
  · rintro ⟨-, noMedia⟩ index unit missing
    exact (completionError_noMedia unit missing).mp (noMedia index unit missing)
  · intro addressable
    refine ⟨completionError_invalidUnit, fun index unit missing => ?_⟩
    exact (completionError_noMedia unit missing).mpr (addressable index unit missing)

/-- Command 3 for unit 0 without a medium completes with Invalid command. -/
theorem invalid_command_hides_missing_media :
    (new.units ⟨0, Nat.two_pos⟩).media = none ∧
      new.completionError ⟨3, 0, 1, ⟨0x4000_0000⟩, 0, 32⟩ .empty = .invalidCommand :=
  ⟨rfl, rfl⟩

end BlockDevice

end Minemu.Core
