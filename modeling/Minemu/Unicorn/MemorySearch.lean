import Minemu.Library.Search
import Minemu.Unicorn.Inspection

/-! Searching RAM in overlapping chunks finds what a search of the whole RAM finds. -/

namespace Minemu.Unicorn

open Library Platform Minemu.Core

/-- Reading mapped RAM returns its bytes and calls back for no device. -/
def Inspector.ReadsRam (inspector : Inspector) (machine : Machine) : Prop :=
  ∀ (address : PhysicalAddress) (length : Nat), 0 < length →
    ramBase.toNat ≤ address.get.toNat →
    address.get.toNat + length ≤ ramBase.toNat + ramSize.toNat →
    inspector.memRead machine address length =
      ([], .ok (window machine.memory.ramByte address.get.toNat length))

theorem ofMemory_readsRam (machine : Machine) : Inspector.ofMemory.ReadsRam machine := by
  intro address length positive above fits
  have base : ramBase.toNat = 0x4000_0000 := rfl
  have size : ramSize.toNat = 0x400_0000 := rfl
  have read : machine.memory.regionSlice address length =
      .ok (window machine.memory.ramByte address.get.toNat length) :=
    PhysicalMemory.regionSlice_ram machine.memory ⟨by omega, by omega⟩ (by omega)
  exact congrArg (fun result => ([], result.mapError fun _ => UcError.other 6)) read

/-- The pattern stands in RAM at an address, all of it inside RAM. -/
def OccursInRam (memory : PhysicalMemory) (pattern : List U8) (address : PhysicalAddress) : Prop :=
  ramBase.toNat ≤ address.get.toNat ∧
    address.get.toNat + pattern.length ≤ ramBase.toNat + ramSize.toNat ∧
    Matches memory.ramByte pattern address.get.toNat

namespace UnicornBackend

variable {inspector : Inspector} {backend : UnicornBackend} {pattern : List U8}

theorem position_eq (bytes pattern : List U8) : position bytes pattern = firstIndex bytes pattern :=
  rfl

/-- RAM as a text that starts at offset 0. -/
def ramText (memory : PhysicalMemory) (offset : Nat) : U8 :=
  memory.ramByte (ramBase.toNat + offset)

theorem matches_ramText {memory : PhysicalMemory} {offset : Nat} :
    Matches (ramText memory) pattern offset ↔
      Matches memory.ramByte pattern (ramBase.toNat + offset) := by
  simp only [Matches, ramText, Nat.add_assoc]

/-- The address at an offset in RAM. -/
def ramAddress (offset : Nat) : PhysicalAddress := ⟨ramBase + BitVec.ofNat 32 offset⟩

theorem toNat_ramAddress {offset : Nat} (inside : offset ≤ ramSize.toNat) :
    (ramAddress offset).get.toNat = ramBase.toNat + offset := by
  have base : ramBase.toNat = 0x4000_0000 := rfl
  have size : ramSize.toNat = 0x400_0000 := rfl
  rw [ramAddress, BitVec.toNat_add, BitVec.toNat_ofNat]
  omega

theorem occursInRam_ramAddress {memory : PhysicalMemory} {offset : Nat}
    (inside : offset ≤ ramSize.toNat) :
    OccursInRam memory pattern (ramAddress offset) ↔
      Occurs (ramText memory) ramSize.toNat pattern offset := by
  rw [OccursInRam, Occurs, toNat_ramAddress inside, matches_ramText]
  constructor
  · intro ⟨_, fits, same⟩
    exact ⟨by omega, same⟩
  · intro ⟨fits, same⟩
    exact ⟨Nat.le_add_right _ _, by omega, same⟩

theorem exists_ramAddress {memory : PhysicalMemory} {address : PhysicalAddress}
    (occurs : OccursInRam memory pattern address) :
    ∃ offset ≤ ramSize.toNat, address = ramAddress offset := by
  obtain ⟨above, fits, _⟩ := occurs
  have inside : address.get.toNat - ramBase.toNat ≤ ramSize.toNat := by omega
  refine ⟨address.get.toNat - ramBase.toNat, inside, ?_⟩
  have same : address.get = (ramAddress (address.get.toNat - ramBase.toNat)).get := by
    apply BitVec.eq_of_toNat_eq
    rw [toNat_ramAddress inside, Nat.add_sub_cancel' above]
  exact congrArg PhysicalAddress.mk same

theorem window_ramText (memory : PhysicalMemory) (offset length : Nat) :
    window memory.ramByte (ramBase.toNat + offset) length =
      window (ramText memory) offset length := by
  simp only [window, ramText, Nat.add_assoc]

theorem readPhysicalMemory_ram (reads : inspector.ReadsRam backend.machine) {offset length : Nat}
    (positive : 0 < length) (fits : offset + length ≤ ramSize.toNat) :
    backend.readPhysicalMemory inspector (ramAddress offset) length =
      (.ok (window (ramText backend.machine.memory) offset length), backend) := by
  have placed := toNat_ramAddress ((Nat.le_add_right _ _).trans fits)
  have read := reads (ramAddress offset) length positive (by omega) (by omega)
  rw [placed, window_ramText] at read
  rw [readPhysicalMemory, read]
  rfl

/-- Chunks of RAM are read as they are and scanned in order. -/
theorem searchChunks_eq (reads : inspector.ReadsRam backend.machine) {offsets : List Nat}
    (inside : ∀ offset ∈ offsets, offset < ramSize.toNat) :
    backend.searchChunks inspector pattern offsets =
      (.ok ((scan (ramText backend.machine.memory) ramSize.toNat memorySearchChunkSize pattern
        offsets).map ramAddress), backend) := by
  induction offsets with
  | nil => rfl
  | cons offset offsets ih =>
    rw [List.forall_mem_cons] at inside
    have chunk : backend.readPhysicalMemory inspector ⟨ramBase + BitVec.ofNat 32 offset⟩
        (min (memorySearchChunkSize + (pattern.length - 1)) (ramSize.toNat - offset)) = _ :=
      readPhysicalMemory_ram reads
        (Nat.lt_min.mpr ⟨Nat.lt_add_right _ (by decide), Nat.sub_pos_of_lt inside.1⟩) (by omega)
    rw [searchChunks, scan]
    dsimp only
    rw [chunk]
    dsimp only
    rw [position_eq]
    generalize firstIndex _ pattern = found
    cases found with
    | some index =>
      have sum : ramBase + BitVec.ofNat 32 offset + BitVec.ofNat 32 index =
          ramBase + BitVec.ofNat 32 (offset + index) := by
        rw [BitVec.add_assoc, BitVec.ofNat_add]
      dsimp only
      rw [sum]
      rfl
    | none => exact ih inside.2

/-- A search returns the least address in RAM at which the pattern stands, and none exactly when it
stands nowhere in RAM. -/
theorem searchMemory_exact (reads : inspector.ReadsRam backend.machine)
    (nonempty : 1 ≤ pattern.length) (bounded : pattern.length ≤ 1024 * 1024) :
    ∃ found, backend.searchMemory inspector pattern = (.ok found, backend) ∧
      (∀ address, found = some address ↔ OccursInRam backend.machine.memory pattern address ∧
        ∀ other, OccursInRam backend.machine.memory pattern other →
          address.get.toNat ≤ other.get.toNat) ∧
      (found = none ↔ ∀ address, ¬OccursInRam backend.machine.memory pattern address) := by
  have whole : ramSize.toNat ≤ ramSize.toNat / memorySearchChunkSize * memorySearchChunkSize := by
    decide
  have first := firstOf_scan (ramText backend.machine.memory) nonempty whole
  refine ⟨(scan (ramText backend.machine.memory) ramSize.toNat memorySearchChunkSize pattern
    ((List.range (ramSize.toNat / memorySearchChunkSize)).map (· * memorySearchChunkSize))).map
      ramAddress, ?_, ?_⟩
  · have some : ¬pattern.isEmpty = true := by
      rw [List.isEmpty_iff_length_eq_zero]
      exact Nat.ne_of_gt nonempty
    have small : ¬memorySearchChunkSize < pattern.length := Nat.not_lt.mpr bounded
    rw [searchMemory, if_neg some, if_neg small]
    apply searchChunks_eq reads
    intro offset member
    obtain ⟨index, few, rfl⟩ := List.mem_map.mp member
    rw [List.mem_range] at few
    exact (Nat.mul_lt_mul_of_pos_right few (by decide)).trans_le (by decide)
  · generalize scan (ramText backend.machine.memory) ramSize.toNat memorySearchChunkSize pattern
      ((List.range (ramSize.toNat / memorySearchChunkSize)).map (· * memorySearchChunkSize)) =
        found at first ⊢
    cases found with
    | none =>
      have nowhere (address : PhysicalAddress) :
          ¬OccursInRam backend.machine.memory pattern address := by
        intro occurs
        obtain ⟨offset, inside, rfl⟩ := exists_ramAddress occurs
        exact first offset ((occursInRam_ramAddress inside).mp occurs)
      refine ⟨fun address => ?_, iff_of_true rfl nowhere⟩
      exact iff_of_false (by rintro ⟨⟩) fun both => nowhere address both.1
    | some index =>
      have inside : index ≤ ramSize.toNat := (Nat.le_add_right _ _).trans first.1.1
      have here := (occursInRam_ramAddress inside).mpr first.1
      have least (other : PhysicalAddress)
          (occurs : OccursInRam backend.machine.memory pattern other) :
          (ramAddress index).get.toNat ≤ other.get.toNat := by
        obtain ⟨offset, within, rfl⟩ := exists_ramAddress occurs
        rw [toNat_ramAddress inside, toNat_ramAddress within]
        exact Nat.add_le_add_left (first.2 offset ((occursInRam_ramAddress within).mp occurs)) _
      refine ⟨fun address => ?_, iff_of_false (by rintro ⟨⟩) fun nowhere => nowhere _ here⟩
      constructor
      · intro same
        cases same
        exact ⟨here, least⟩
      · intro both
        have same : (ramAddress index).get = address.get := by
          apply BitVec.eq_of_toNat_eq
          exact Nat.le_antisymm (least address both.1) (both.2 _ here)
        exact congrArg some (congrArg PhysicalAddress.mk same)

/-- RAM with four bytes around its first chunk boundary. -/
def straddling : PhysicalMemory :=
  { PhysicalMemory.empty with
    ram := fun index =>
      if index.val = 0xf_fffe then 1 else if index.val = 0xf_ffff then 2
      else if index.val = 0x10_0000 then 3 else if index.val = 0x10_0001 then 4 else 0 }

theorem ramByte_straddling {offset : Nat} (inside : offset < 0x400_0000) :
    straddling.ramByte (0x4000_0000 + offset) =
      if offset = 0xf_fffe then 1 else if offset = 0xf_ffff then 2
      else if offset = 0x10_0000 then 3 else if offset = 0x10_0001 then 4 else 0 := by
  have within : 0x4000_0000 ≤ 0x4000_0000 + offset ∧ 0x4000_0000 + offset < 0x4400_0000 := by omega
  rw [PhysicalMemory.ramByte, dif_pos within]
  simp only [straddling, Nat.add_sub_cancel_left]

/-- The four bytes are found across the boundary of two chunks. -/
theorem searchMemory_straddling :
    searchMemory .ofMemory (.new (.new straddling 4096)) [1, 2, 3, 4] =
      (.ok (some ⟨0x400f_fffe⟩), .new (.new straddling 4096)) := by
  obtain ⟨found, searched, exact, -⟩ := searchMemory_exact
    (ofMemory_readsRam (UnicornBackend.new (.new straddling 4096)).machine)
    (show 1 ≤ ([1, 2, 3, 4] : List U8).length by decide) (by decide)
  have here : OccursInRam straddling [1, 2, 3, 4] ⟨0x400f_fffe⟩ := by
    refine ⟨by decide, by decide, ?_⟩
    intro index bound
    have place : (0x400f_fffe : U32).toNat = 0x4000_0000 + 0xf_fffe := by decide
    have short : index < 4 := bound
    dsimp only
    rw [place, Nat.add_assoc, ramByte_straddling (by omega)]
    rcases index with _ | _ | _ | _ | _
    · rfl
    · rfl
    · rfl
    · rfl
    · omega
  have least (other : PhysicalAddress) (occurs : OccursInRam straddling [1, 2, 3, 4] other) :
      0x400f_fffe ≤ other.get.toNat := by
    obtain ⟨above, fits, same⟩ := occurs
    have base : ramBase.toNat = 0x4000_0000 := rfl
    have size : ramSize.toNat = 0x400_0000 := rfl
    have length : ([1, 2, 3, 4] : List U8).length = 4 := rfl
    obtain ⟨offset, apart⟩ := Nat.exists_eq_add_of_le above
    have first := same 0 (by decide)
    rw [apart, base, Nat.add_zero, ramByte_straddling (by omega)] at first
    have found : offset = 0xf_fffe := by
      by_contra other
      rw [if_neg other] at first
      split_ifs at first <;> exact absurd first (by decide)
    omega
  rw [searched, (exact ⟨0x400f_fffe⟩).mpr ⟨here, least⟩]

end UnicornBackend

end Minemu.Unicorn
