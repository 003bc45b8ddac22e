import Minemu.Core.Isolation
import Minemu.Library.Marks

/-! Translations in any order. The walker marks the entries it uses, and the directory may be one of
its own tables; a word that a translation marks is one no walk takes for a directory entry, so no
translation sees the marks of another. -/

namespace Minemu.Core.TranslationOrder

open Library Platform Translation Isolation

/-- One translation attempt. -/
structure Attempt where
  address : VirtualAddress
  access : Access
  userMode : Bool
deriving DecidableEq

/-- The aligned words of RAM. -/
def words (memory : PhysicalMemory) (index : Nat) : U32 := memory.ramWord (4 * index)

namespace Attempt

def run (attempt : Attempt) (mmu : Mmu) (memory : PhysicalMemory) :
    Except MmuFault PhysicalAddress × Mmu × PhysicalMemory :=
  mmu.translate memory attempt.address attempt.access attempt.userMode

/-- What the two descriptor words decide. -/
def decision (attempt : Attempt) (pde pte : U32) : Except FaultCause PhysicalAddress :=
  match Mmu.tableOf pde with
  | none => .error .translation
  | some _ => (Mmu.checkEntry ⟨pte⟩ attempt.access attempt.userMode).map fun target =>
      ⟨target.get ||| (attempt.address.get &&& 0x0fff#32)⟩

/-- The word index of the entry below a directory word. -/
def cell (attempt : Attempt) (pde : U32) : Nat := entryPosition pde attempt.address / 4

def pde (attempt : Attempt) (mmu : Mmu) (store : Nat → U32) : U32 :=
  store (mmu.ttbr0.get.toNat / 4 + attempt.address.get.toNat / 2 ^ 22)

/-- The attempt as a user of the words of RAM. -/
def marker (attempt : Attempt) (mmu : Mmu) : Marker Nat U32 (Except FaultCause PhysicalAddress) where
  answer store := attempt.decision (attempt.pde mmu store) (store (attempt.cell (attempt.pde mmu store)))
  choice store :=
    (attempt.decision (attempt.pde mmu store)
      (store (attempt.cell (attempt.pde mmu store)))).toOption.map fun _ =>
        (attempt.cell (attempt.pde mmu store), metadata attempt.access)

end Attempt

/-! ### The words of RAM -/

variable {before after memory : PhysicalMemory} {mmu : Mmu} {attempt : Attempt}

theorem ext_words (bootRom : before.bootRom = after.bootRom)
    (systemRom : before.systemRom = after.systemRom) (same : words before = words after) :
    before = after := by
  apply PhysicalMemory.ext_ramByte bootRom systemRom
  intro address
  have word := congrArg (fun word : U32 => (toBytes 4 word.toNat)[address % 4]?)
    (congrFun same (address / 4))
  have position : 4 * (address / 4) + address % 4 = address := Nat.div_add_mod address 4
  have inside : address % 4 < 4 := Nat.mod_lt _ (by decide)
  simpa only [words, PhysicalMemory.toBytes_ramWord, List.getElem?_map, List.getElem?_range inside,
    Option.map_some, position, Option.some.injEq] using word

theorem words_stored {index : Nat} {value : U32}
    (stored : PhysicalMemory.Stored before after (4 * index) (toBytes 4 value.toNat)) :
    words after = Function.update (words before) index value := by
  funext other
  by_cases same : other = index
  · subst same
    rw [Function.update_self]
    exact stored.ramWord_same
  · rw [Function.update_of_ne same]
    exact stored.ramWord_apart (by simp only [length_toBytes]; omega)

/-! ### A walk as a mark -/

theorem decision_unnamed {pde pte : U32} (unnamed : ¬ NamesTable pde) :
    attempt.decision pde pte = .error .translation := by
  have none : Mmu.tableOf pde = none := by
    by_contra found
    obtain ⟨table, named⟩ := Option.ne_none_iff_exists'.mp found
    exact unnamed (tableOf_eq_some.mp named).1
  rw [Attempt.decision, none]

theorem decision_refused {pde pte : U32} {cause : FaultCause}
    (refused : Refused pde pte attempt.access attempt.userMode cause) :
    attempt.decision pde pte = .error cause := by
  by_cases names : NamesTable pde
  · rw [Attempt.decision, tableOf_eq_some.mpr ⟨names, rfl⟩]
    simp only [checkEntry_refused names refused]
    rfl
  · rw [decision_unnamed names]
    cases refused with
    | table => rfl
    | _ => contradiction

theorem decision_permitted {pde pte : U32}
    (permitted : Permitted pde pte attempt.access attempt.userMode) :
    attempt.decision pde pte =
      .ok ⟨(pte &&& ptePageMask) ||| (attempt.address.get &&& 0xfff#32)⟩ := by
  rw [Attempt.decision, tableOf_eq_some.mpr ⟨permitted.table, rfl⟩]
  simp only [checkEntry_permitted permitted]
  rfl

theorem pde_words (accepted : Accepted mmu) (memory : PhysicalMemory) :
    attempt.pde mmu (words memory) = directoryWord mmu memory attempt.address := by
  have window := accepted_iff.mp accepted
  unfold Attempt.pde words directoryWord
  congr 1
  omega

theorem position_cell (attempt : Attempt) (pde : U32) :
    4 * attempt.cell pde = entryPosition pde attempt.address := by
  have aligned := pageOf_multiple pde
  unfold Attempt.cell entryPosition
  omega

theorem words_cell (memory : PhysicalMemory) (pde : U32) :
    words memory (attempt.cell pde) = entryWord memory pde attempt.address := by
  rw [words, position_cell]
  rfl

/-- A translation answers, marks the words of RAM and leaves the rest of the state as its marker
says. -/
theorem run_marks (enabled : mmu.enabled = true) (accepted : Accepted mmu) (attempt : Attempt)
    (memory : PhysicalMemory) :
    let ran := attempt.run mmu memory
    ran.1 = ((attempt.marker mmu).answer (words memory)).mapError
        (fun cause => ⟨attempt.address, .new cause attempt.userMode attempt.access⟩) ∧
      words ran.2.2 = (attempt.marker mmu).mark (· ||| ·) (words memory) ∧
      ran.2.2.bootRom = memory.bootRom ∧ ran.2.2.systemRom = memory.systemRom ∧
      ran.2.1.enabled = true ∧ ran.2.1.ttbr0 = mmu.ttbr0 := by
  have answer : (attempt.marker mmu).answer (words memory) =
      attempt.decision (directoryWord mmu memory attempt.address)
        (entryWord memory (directoryWord mmu memory attempt.address) attempt.address) := by
    simp only [Attempt.marker, pde_words accepted, words_cell]
  have choice : (attempt.marker mmu).choice (words memory) =
      ((attempt.marker mmu).answer (words memory)).toOption.map fun _ =>
        (attempt.cell (directoryWord mmu memory attempt.address), metadata attempt.access) := by
    simp only [Attempt.marker, pde_words accepted]
  intro ran
  rcases walk_eq (directory_eq accepted memory attempt.address) attempt.access
    attempt.userMode with
    ⟨cause, refused, walked⟩ | ⟨permitted, after, walked, stored⟩
  · rw [decision_refused refused] at answer
    rw [answer] at choice
    have unmarked : (attempt.marker mmu).mark (· ||| ·) (words memory) = words memory :=
      Marker.mark_none choice
    have result : ran = (.error ⟨attempt.address, .new cause attempt.userMode attempt.access⟩,
        mmu.recordFault ⟨attempt.address, .new cause attempt.userMode attempt.access⟩, memory) := by
      simp only [ran, Attempt.run, Mmu.translate, enabled, Bool.not_true, Bool.false_eq_true,
        ↓reduceIte, walked]
    rw [result, answer, unmarked]
    exact ⟨rfl, rfl, rfl, rfl, enabled, rfl⟩
  · rw [decision_permitted permitted] at answer
    rw [answer] at choice
    have marked : (attempt.marker mmu).mark (· ||| ·) (words memory) =
        Marker.joinAt (· ||| ·) (words memory)
          (attempt.cell (directoryWord mmu memory attempt.address)) (metadata attempt.access) :=
      Marker.mark_some choice
    rw [← position_cell] at stored
    have result : ran = (.ok ⟨(entryWord memory (directoryWord mmu memory attempt.address)
        attempt.address &&& ptePageMask) ||| (attempt.address.get &&& 0xfff#32)⟩, mmu, after) := by
      simp only [ran, Attempt.run, Mmu.translate, enabled, Bool.not_true, Bool.false_eq_true,
        ↓reduceIte, walked]
    rw [result, answer, marked, words_stored stored, Marker.joinAt, words_cell]
    exact ⟨rfl, rfl, stored.bootRom, stored.systemRom, enabled, rfl⟩

/-! ### No attempt sees a mark -/

/-- A word that a translation may have marked: it grants an access, or it is as it was. -/
def Touched (before after : U32) : Prop :=
  after = before ∨ Alike before after ∧ ∃ access, before.getLsbD (accessBit access) = true

theorem Touched.alike {before after : U32} (touched : Touched before after) : Alike before after := by
  rcases touched with same | ⟨alike, -⟩
  · rw [same]
    rfl
  · exact alike

/-- A marked word is no directory entry, before or after. -/
theorem Touched.names {before after : U32} (touched : Touched before after) :
    after = before ∨ (¬ NamesTable before ∧ ¬ NamesTable after) := by
  refine touched.imp_right ?_
  rintro ⟨alike, access, set⟩
  have field : 1 ≤ accessBit access ∧ accessBit access ≤ 4 := by cases access <;> decide
  exact alike.unnamed field set

/-- Metadata changes no decision. -/
theorem decision_alike {pde pte pte' : U32} (alike : Alike pte pte') :
    attempt.decision pde pte' = attempt.decision pde pte := by
  rcases permitted_or_refused pde pte attempt.access attempt.userMode with
    permitted | ⟨cause, refused⟩
  · rw [decision_permitted permitted, decision_permitted (alike.permitted.mpr permitted),
      alike.pageMask]
  · rw [decision_refused refused, decision_refused (alike.refused refused)]

/-- An attempt makes the same of a store whose words translations have marked. -/
theorem blind_touched {store other : Nat → U32}
    (touched : ∀ index, Touched (store index) (other index)) :
    (attempt.marker mmu).Blind store other := by
  have directory : Touched (attempt.pde mmu store) (attempt.pde mmu other) := touched _
  rcases directory.names with same | ⟨unnamed, unnamed'⟩
  · have entry := (touched (attempt.cell (attempt.pde mmu store))).alike
    constructor
    · simp only [Attempt.marker, same, decision_alike entry]
    · simp only [Attempt.marker, same, decision_alike entry]
  · constructor
    · simp only [Attempt.marker, decision_unnamed unnamed, decision_unnamed unnamed']
    · simp only [Attempt.marker, decision_unnamed unnamed, decision_unnamed unnamed',
        Except.toOption, Option.map_none]

/-- The mark of an attempt touches a word that grants its access. -/
theorem mark_touches (mmu : Mmu) (attempt : Attempt) (store : Nat → U32) (index : Nat) :
    Touched (store index) ((attempt.marker mmu).mark (· ||| ·) store index) := by
  cases chosen : (attempt.marker mmu).choice store with
  | none =>
    rw [Marker.mark_none chosen]
    exact .inl rfl
  | some mark =>
    obtain ⟨cell, value⟩ := mark
    simp only [Attempt.marker, Option.map_eq_some_iff, Prod.mk.injEq] at chosen
    obtain ⟨target, decided, rfl, rfl⟩ := chosen
    have granted : Grants (store (attempt.cell (attempt.pde mmu store))) attempt.access
        attempt.userMode := by
      rcases permitted_or_refused (attempt.pde mmu store)
        (store (attempt.cell (attempt.pde mmu store))) attempt.access attempt.userMode with
        permitted | ⟨cause, refused⟩
      · exact permitted.grants
      · rw [decision_refused refused] at decided
        cases decided
    have marked : (attempt.marker mmu).mark (· ||| ·) store =
        Marker.joinAt (· ||| ·) store (attempt.cell (attempt.pde mmu store))
          (metadata attempt.access) :=
      Marker.mark_some (by simp only [Attempt.marker, decided, Option.map_some])
    rw [marked, Marker.joinAt]
    by_cases same : index = attempt.cell (attempt.pde mmu store)
    · subst same
      rw [Function.update_self]
      have alike : Alike (store (attempt.cell (attempt.pde mmu store)))
          (store (attempt.cell (attempt.pde mmu store))) := rfl
      exact .inr ⟨alike.record attempt.access, attempt.access, granted.1⟩
    · rw [Function.update_of_ne same]
      exact .inl rfl

/-- No attempt sees the mark of another, or its own. -/
theorem blind_mark (mmu : Mmu) (first second : Attempt) (store : Nat → U32) :
    (second.marker mmu).Blind store ((first.marker mmu).mark (· ||| ·) store) :=
  blind_touched (mark_touches mmu first store)

/-! ### Two attempts -/

/-- What an attempt answers and leaves after another. -/
theorem run_after (enabled : mmu.enabled = true) (accepted : Accepted mmu) (first second : Attempt)
    (memory : PhysicalMemory) :
    let alone := first.run mmu memory
    let after := second.run alone.2.1 alone.2.2
    after.1 = (second.run mmu memory).1 ∧
      words after.2.2 =
        (second.marker mmu).mark (· ||| ·) ((first.marker mmu).mark (· ||| ·) (words memory)) ∧
      after.2.2.bootRom = memory.bootRom ∧ after.2.2.systemRom = memory.systemRom := by
  intro alone after
  obtain ⟨-, marked, boot, system, stays, ttbr0⟩ := run_marks enabled accepted first memory
  have acceptedLater : Accepted alone.2.1 := by
    rw [Accepted, ttbr0]
    exact accepted
  have same : second.marker alone.2.1 = second.marker mmu := by
    unfold Attempt.marker Attempt.pde
    rw [ttbr0]
  obtain ⟨answer, markedLater, bootLater, systemLater, -, -⟩ :=
    run_marks stays acceptedLater second alone.2.2
  obtain ⟨answerAlone, -⟩ := run_marks enabled accepted second memory
  rw [same, marked] at answer markedLater
  rw [(blind_mark mmu first second (words memory)).answer] at answer
  exact ⟨answer.trans answerAlone.symm, markedLater, bootLater.trans boot, systemLater.trans system⟩

/-- Accessed and Dirty updates never disturb other translations: an attempt has the same result
before and after another, the two leave the same memory in either order, and repeating one changes
nothing more. -/
theorem translations_commute (mmu : Mmu) (memory : PhysicalMemory) (enabled : mmu.enabled = true)
    (accepted : Cp15Operation.ofTtbr0 mmu.ttbr0.get = .ok (.setTtbr0 mmu.ttbr0))
    (first second : Attempt) :
    let alone := first.run mmu memory
    let other := second.run mmu memory
    let after := second.run alone.2.1 alone.2.2
    let swapped := first.run other.2.1 other.2.2
    let again := first.run alone.2.1 alone.2.2
    after.1 = other.1 ∧ swapped.1 = alone.1 ∧ after.2.2 = swapped.2.2 ∧
      again.1 = alone.1 ∧ again.2.2 = alone.2.2 := by
  intro alone other after swapped again
  obtain ⟨answer, marked, boot, system⟩ := run_after enabled accepted first second memory
  obtain ⟨answerSwapped, markedSwapped, bootSwapped, systemSwapped⟩ :=
    run_after enabled accepted second first memory
  obtain ⟨answerAgain, markedAgain, bootAgain, systemAgain⟩ :=
    run_after enabled accepted first first memory
  obtain ⟨-, markedAlone, bootAlone, systemAlone, -⟩ := run_marks enabled accepted first memory
  refine ⟨answer, answerSwapped, ?_, answerAgain, ?_⟩
  · apply ext_words (boot.trans bootSwapped.symm) (system.trans systemSwapped.symm)
    rw [marked, markedSwapped]
    exact Marker.mark_comm (blind_mark mmu first second _) (blind_mark mmu second first _)
  · apply ext_words (bootAgain.trans bootAlone.symm) (systemAgain.trans systemAlone.symm)
    rw [markedAgain, markedAlone]
    exact Marker.mark_again (blind_mark mmu first first _)

/-- Reading and writing the one page of `onePage`. -/
theorem translations_commute_onePage :
    let mmu : Mmu := ⟨true, ⟨ramBase⟩, ⟨0⟩, none⟩
    let read : Attempt := ⟨⟨0x10⟩, .read, true⟩
    let write : Attempt := ⟨⟨0x14⟩, .write, true⟩
    (write.run (read.run mmu onePage).2.1 (read.run mmu onePage).2.2).2.2 =
      (read.run (write.run mmu onePage).2.1 (write.run mmu onePage).2.2).2.2 :=
  (translations_commute ⟨true, ⟨ramBase⟩, ⟨0⟩, none⟩ onePage rfl (by decide) ⟨⟨0x10⟩, .read, true⟩
    ⟨⟨0x14⟩, .write, true⟩).2.2.1

end Minemu.Core.TranslationOrder
