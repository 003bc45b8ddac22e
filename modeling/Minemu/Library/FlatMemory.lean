import Minemu.Library.Runs

/-! A flat partial memory: places that hold a value, some of which may be written. An access of
any length goes through as a whole or not at all. -/

namespace Minemu.Library

/-- One access to a flat memory. -/
inductive CellAccess (α : Type u) where
  | read (start length : Nat)
  | write (start : Nat) (values : List α)

/-- Values at places; what may be written is there. -/
@[ext]
structure FlatMemory (α : Type u) where
  cells : Nat → Option α
  writable : Nat → Bool
  mapped : ∀ place, writable place = true → (cells place).isSome = true

variable {α : Type u}

namespace CellAccess

/-- A write that goes through. -/
def passes (writable : Nat → Bool) (start : Nat) (values : List α) : Bool :=
  (List.range' start values.length).all writable

/-- What an access leaves at a place. -/
def leaves (writable : Nat → Bool) (place : Nat) : CellAccess α → Option α
  | read _ _ => none
  | write start values =>
    if passes writable start values = true ∧ start ≤ place then values[place - start]? else none

/-- What the last write to a place has left there. -/
def latest (writable : Nat → Bool) (place : Nat) : List (CellAccess α) → Option α
  | [] => none
  | access :: later => (latest writable place later).or (access.leaves writable place)

end CellAccess

namespace FlatMemory

variable {memory : FlatMemory α} {start length place : Nat} {values : List α}

def read (memory : FlatMemory α) (start length : Nat) : Option (List α) :=
  (List.range' start length).mapM memory.cells

/-- The memory after an access. -/
def after (memory : FlatMemory α) (access : CellAccess α) : FlatMemory α where
  cells place := (access.leaves memory.writable place).or (memory.cells place)
  writable := memory.writable
  mapped place inside := by
    rw [Option.isSome_or, memory.mapped place inside, Bool.or_true]

/-- What an access returns, and `none` if it is refused. -/
def answer (memory : FlatMemory α) : CellAccess α → Option (List α)
  | .read start length => memory.read start length
  | .write start values => if CellAccess.passes memory.writable start values then some [] else none

theorem read_succ (memory : FlatMemory α) (start length : Nat) :
    memory.read start (length + 1) = (memory.cells start).bind fun value =>
      (memory.read (start + 1) length).map (value :: ·) := by
  rw [read, List.range'_succ, List.mapM_cons]
  cases memory.cells start with
  | none => rfl
  | some value =>
    rw [Option.bind_some, ← Option.map_eq_map, map_eq_pure_bind]
    rfl

/-- A read returns the values of its places, and no read is partial. -/
theorem read_eq_some : memory.read start length = some values ↔
    values.length = length ∧ ∀ index < length, values[index]? = memory.cells (start + index) := by
  induction length generalizing start values with
  | zero =>
    constructor
    · intro returned
      cases returned
      exact ⟨rfl, fun index bound => absurd bound (Nat.not_lt_zero index)⟩
    · intro described
      rw [List.eq_nil_of_length_eq_zero described.1]
      rfl
  | succ length ih =>
    rw [read_succ]
    constructor
    · intro returned
      obtain ⟨value, first, tail⟩ := Option.bind_eq_some_iff.mp returned
      obtain ⟨rest, read, same⟩ := Option.map_eq_some_iff.mp tail
      cases same
      obtain ⟨size, cells⟩ := ih.mp read
      refine ⟨congrArg Nat.succ size, fun index bound => ?_⟩
      cases index with
      | zero => exact first.symm
      | succ index =>
        rw [List.getElem?_cons_succ, cells index (Nat.lt_of_succ_lt_succ bound), Nat.add_assoc,
          Nat.add_comm 1]
    · intro described
      obtain ⟨size, cells⟩ := described
      cases values with
      | nil => cases size
      | cons value rest =>
        have read : memory.read (start + 1) length = some rest := by
          refine ih.mpr ⟨Nat.succ.inj size, fun index bound => ?_⟩
          have same := cells (index + 1) (Nat.succ_lt_succ bound)
          rwa [List.getElem?_cons_succ, ← Nat.add_assoc, Nat.add_right_comm] at same
        have first : memory.cells start = some value := (cells 0 (Nat.succ_pos length)).symm
        rw [first, read]
        rfl

theorem leaves_of_refused {writable : Nat → Bool}
    (refused : CellAccess.passes writable start values = false ∨ values = []) :
    (CellAccess.write start values).leaves writable place = none := by
  rw [CellAccess.leaves]
  split
  · rename_i passing
    rcases refused with failed | empty
    · rw [passing.1] at failed
      cases failed
    · rw [empty, List.getElem?_nil]
  · rfl

theorem read_isSome : (memory.read start length).isSome = true ↔
    ∀ index < length, (memory.cells (start + index)).isSome = true := by
  constructor
  · intro returned index bound
    obtain ⟨values, read⟩ := Option.isSome_iff_exists.mp returned
    obtain ⟨size, cells⟩ := read_eq_some.mp read
    rw [← cells index bound, List.getElem?_eq_getElem (size ▸ bound)]
    rfl
  · induction length generalizing start with
    | zero =>
      intro _
      rfl
    | succ length ih =>
      intro mapped
      obtain ⟨value, first⟩ := Option.isSome_iff_exists.mp (mapped 0 (Nat.succ_pos length))
      have tail : (memory.read (start + 1) length).isSome = true := by
        apply ih
        intro index bound
        rw [Nat.add_assoc, Nat.add_comm 1]
        exact mapped (index + 1) (Nat.succ_lt_succ bound)
      rw [read_succ]
      rw [Nat.add_zero] at first
      rw [first, Option.bind_some, Option.isSome_map]
      exact tail

/-- A hole in the range refuses a read. -/
theorem read_hole {index : Nat} (bound : index < length)
    (hole : memory.cells (start + index) = none) : memory.read start length = none := by
  rw [← Option.not_isSome_iff_eq_none, read_isSome]
  intro mapped
  have there := mapped index bound
  rw [hole] at there
  cases there

theorem passes_iff {writable : Nat → Bool} : CellAccess.passes writable start values = true ↔
    ∀ index < values.length, writable (start + index) = true := by
  unfold CellAccess.passes
  rw [List.all_eq_true]
  constructor
  · intro all index bound
    exact all (start + index) (List.mem_range'_1.mpr ⟨Nat.le_add_right _ _, by omega⟩)
  · intro all place member
    obtain ⟨low, high⟩ := List.mem_range'_1.mp member
    have inside := all (place - start) (by omega)
    rwa [Nat.add_sub_cancel' low] at inside

theorem answer_write : (memory.answer (.write start values)).isSome = true ↔
    CellAccess.passes memory.writable start values = true := by
  rw [answer]
  split
  · rename_i passing
    exact ⟨fun _ => passing, fun _ => rfl⟩
  · rename_i refused
    exact ⟨fun returned => (by cases returned), fun passing => absurd passing refused⟩

/-- After a run a place holds what was last written there, and what it held before if nothing
was. -/
theorem run_cells (memory : FlatMemory α) (accesses : List (CellAccess α)) (place : Nat) :
    (run after memory accesses).cells place =
      (CellAccess.latest memory.writable place accesses).or (memory.cells place) := by
  induction accesses generalizing memory with
  | nil => rfl
  | cons access later ih =>
    rw [run_cons, ih]
    exact (Option.or_assoc ..).symm

end FlatMemory

end Minemu.Library
