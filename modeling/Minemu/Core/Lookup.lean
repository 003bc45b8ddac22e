import Minemu.Core.Translation

/-! What a lookup leaves behind, said of the tables, the fault registers and the address: the bits
it sets in the entry it goes through, and the fault it records. -/

namespace Minemu.Core.Translation

open Library Platform

/-- The table entry a walk reads below its directory word. -/
def entryRead (mmu : Mmu) (memory : PhysicalMemory) (address : VirtualAddress) : U32 :=
  entryWord memory (directoryRead mmu memory address) address

/-- The physical address an access is for: its own, or one in the page of an entry that
permits it. -/
inductive Reaches (mmu : Mmu) (memory : PhysicalMemory) (address : VirtualAddress)
    (access : Access) (userMode : Bool) : PhysicalAddress → Prop
  | direct (disabled : mmu.enabled = false) :
      Reaches mmu memory address access userMode ⟨address.get⟩
  | mapped (enabled : mmu.enabled = true)
      (permitted : Permitted (directoryRead mmu memory address) (entryRead mmu memory address)
        access userMode) :
      Reaches mmu memory address access userMode
        ⟨(entryRead mmu memory address &&& ptePageMask) ||| (address.get &&& 0xfff#32)⟩

/-- The cause of the fault a lookup ends with: the tables refuse the access, or it would fetch
from a device. -/
inductive Faults (mmu : Mmu) (memory : PhysicalMemory) (address : VirtualAddress)
    (access : Access) (userMode : Bool) : FaultCause → Prop
  | refused {cause : FaultCause} (enabled : mmu.enabled = true)
      (refused : Refused (directoryRead mmu memory address) (entryRead mmu memory address)
        access userMode cause) :
      Faults mmu memory address access userMode cause
  | fetched {physical : PhysicalAddress} (fetch : access = .fetch)
      (reaches : Reaches mmu memory address access userMode physical)
      (device : (MemRegion.ofAddress physical).any MemRegion.isDevice = true) :
      Faults mmu memory address access userMode .deviceAccess

/-- A lookup that has nothing left to leave behind: the entry it goes through is marked as it
would mark it, and the fault it ends with, if any, is the last one recorded. -/
structure Familiar (mmu : Mmu) (memory : PhysicalMemory) (address : VirtualAddress)
    (access : Access) (userMode : Bool) : Prop where
  marked : mmu.enabled = true →
    Permitted (directoryRead mmu memory address) (entryRead mmu memory address) access userMode →
      entryRead mmu memory address &&& metadata access = metadata access
  recorded : ∀ cause, Faults mmu memory address access userMode cause →
    mmu.lastFault = some ⟨address, .new cause userMode access⟩

variable {mmu : Mmu} {memory : PhysicalMemory} {address : VirtualAddress} {access : Access}
  {userMode : Bool} {physical : PhysicalAddress} {cause : FaultCause}

theorem refused_or_reaches (mmu : Mmu) (memory : PhysicalMemory) (address : VirtualAddress)
    (access : Access) (userMode : Bool) :
    (∃ cause, mmu.enabled = true ∧
      Refused (directoryRead mmu memory address) (entryRead mmu memory address) access userMode
        cause) ∨
      ∃ physical, Reaches mmu memory address access userMode physical := by
  cases enabled : mmu.enabled with
  | false => exact .inr ⟨_, .direct enabled⟩
  | true =>
    rcases permitted_or_refused (directoryRead mmu memory address) (entryRead mmu memory address)
      access userMode with permitted | ⟨cause, refused⟩
    · exact .inr ⟨_, .mapped enabled permitted⟩
    · exact .inl ⟨cause, rfl, refused⟩

/-- A refused access translates to its fault and leaves memory as it was. -/
theorem translate_refused (enabled : mmu.enabled = true)
    (refused : Refused (directoryRead mmu memory address) (entryRead mmu memory address) access
      userMode cause) :
    mmu.translate memory address access userMode =
      (.error ⟨address, .new cause userMode access⟩,
        mmu.recordFault ⟨address, .new cause userMode access⟩, memory) := by
  have walked := walk_refused (directory_read mmu memory address) refused
  simp only [Mmu.translate, enabled, walked, Bool.not_true, Bool.false_eq_true, ↓reduceIte]

/-- An access that reaches an address translates to it, and records itself in the entry. -/
theorem translate_reaches (reaches : Reaches mmu memory address access userMode physical) :
    ∃ after, mmu.translate memory address access userMode = (.ok physical, mmu, after) ∧
      (mmu.enabled = false → after = memory) ∧
      (mmu.enabled = true → PhysicalMemory.Stored memory after
        (entryPosition (directoryRead mmu memory address) address)
        (toBytes 4 (entryRead mmu memory address ||| metadata access).toNat)) := by
  cases reaches with
  | direct disabled =>
    refine ⟨memory, ?_, fun _ => rfl, fun enabled => ?_⟩
    · simp only [Mmu.translate, disabled, Bool.not_false, ↓reduceIte]
    · rw [disabled] at enabled
      cases enabled
  | mapped enabled permitted =>
    obtain ⟨after, walked, stored⟩ := walk_permitted (directory_read mmu memory address) permitted
    refine ⟨after, ?_, fun disabled => ?_, fun _ => stored⟩
    · simp only [Mmu.translate, enabled, walked, Bool.not_true, Bool.false_eq_true, ↓reduceIte]
      rfl
    · rw [enabled] at disabled
      cases disabled

theorem Reaches.not_refused (reaches : Reaches mmu memory address access userMode physical)
    (enabled : mmu.enabled = true)
    (refused : Refused (directoryRead mmu memory address) (entryRead mmu memory address) access
      userMode cause) : False := by
  cases reaches with
  | direct disabled =>
    rw [disabled] at enabled
    cases enabled
  | mapped _ permitted => exact refused.not_permitted permitted

theorem Reaches.unique {other : PhysicalAddress}
    (first : Reaches mmu memory address access userMode physical)
    (second : Reaches mmu memory address access userMode other) : physical = other := by
  obtain ⟨_, left, _⟩ := translate_reaches first
  obtain ⟨_, right, _⟩ := translate_reaches second
  have same := congrArg Prod.fst (left.symm.trans right)
  exact Except.ok.inj same

/-- Writing a word over itself is no change, and no other write leaves it. -/
theorem stored_same_iff {before after : PhysicalMemory} {position : Nat} {value : U32}
    (stored : PhysicalMemory.Stored before after position (toBytes 4 value.toNat)) :
    after = before ↔ before.ramWord position = value := by
  constructor
  · rintro rfl
    exact stored.ramWord_same
  · rintro rfl
    exact stored.unique (.refl before position)

theorem metadata_kept_iff {raw mask : U32} : raw = raw ||| mask ↔ raw &&& mask = mask := by
  constructor
  · intro same
    rw [same]
    ext bit
    simp only [BitVec.getElem_and, BitVec.getElem_or, Bool.and_eq_right_iff_imp, Bool.or_eq_true]
    exact Or.inr
  · intro marked
    rw [← marked]
    ext bit
    rw [BitVec.getElem_or, BitVec.getElem_and]
    exact (Bool.or_eq_left_iff_imp.mpr fun both => (Bool.and_eq_true_iff.mp both).1).symm

/-- What a lookup leaves in memory is what was there, exactly when its entry is marked. -/
theorem translate_memory_iff :
    (mmu.translate memory address access userMode).2.2 = memory ↔
      (mmu.enabled = true →
        Permitted (directoryRead mmu memory address) (entryRead mmu memory address) access
            userMode →
          entryRead mmu memory address &&& metadata access = metadata access) := by
  rcases refused_or_reaches mmu memory address access userMode with
    ⟨cause, enabled, refused⟩ | ⟨physical, reaches⟩
  · rw [translate_refused enabled refused]
    exact iff_of_true rfl fun _ permitted => absurd permitted refused.not_permitted
  · obtain ⟨after, translated, direct, mapped⟩ := translate_reaches reaches
    rw [translated]
    cases reaches with
    | direct disabled =>
      refine iff_of_true (direct disabled) fun enabled => ?_
      rw [disabled] at enabled
      cases enabled
    | mapped enabled permitted =>
      rw [stored_same_iff (mapped enabled)]
      change entryRead mmu memory address = _ ↔ _
      rw [metadata_kept_iff]
      exact ⟨fun marked _ _ => marked, fun marked => marked enabled permitted⟩

end Minemu.Core.Translation
