import Mathlib

/-! Bounded queues that make room by dropping their oldest item, with an account of everything
that has left them: what was taken, and what was displaced by which newcomer from which queue. -/

namespace Minemu.Library

/-- How an item left a queue. -/
inductive Departure (α : Type u) where
  | taken
  /-- Dropped when the newcomer was added to the queue. -/
  | displaced (queue : List α) (newcomer : α)

/-- The departure is one from a queue of the capacity: a loss is that of the oldest item of a full
queue, or of a newcomer that there can be no room for. -/
def Departure.Sound (capacity : Nat) (item : α) : Departure α → Prop
  | taken => capacity ≠ 0
  | displaced queue newcomer =>
    queue.length = capacity ∧ (queue.head? = some item ∨ capacity = 0 ∧ item = newcomer)

/-- A bounded queue, oldest first, and the items that have left it, oldest first. -/
structure Fifo (α : Type u) where
  capacity : Nat
  past : List (α × Departure α)
  queue : List α
  bounded : queue.length ≤ capacity
  sound : ∀ item departure, (item, departure) ∈ past → departure.Sound capacity item

namespace Fifo

variable {α : Type u} {fifo : Fifo α} {value : α}

def empty (capacity : Nat) : Fifo α where
  capacity
  past := []
  queue := []
  bounded := Nat.zero_le _
  sound := by simp

/-- Everything ever added. -/
def added (fifo : Fifo α) : List α := fifo.past.map Prod.fst ++ fifo.queue

def takenOf : α × Departure α → Option α
  | (item, .taken) => some item
  | (_, .displaced _ _) => none

def displacedOf : α × Departure α → Option α
  | (_, .taken) => none
  | (item, .displaced _ _) => some item

/-- Everything ever taken. -/
def taken (fifo : Fifo α) : List α := fifo.past.filterMap takenOf

/-- Everything ever lost. -/
def lost (fifo : Fifo α) : List α := fifo.past.filterMap displacedOf

theorem sound_append {departures : List (α × Departure α)}
    (fresh : ∀ item departure, (item, departure) ∈ departures → departure.Sound fifo.capacity item) :
    ∀ item departure, (item, departure) ∈ fifo.past ++ departures →
      departure.Sound fifo.capacity item := by
  intro item departure member
  rcases List.mem_append.mp member with old | new
  · exact fifo.sound item departure old
  · exact fresh item departure new

/-- Adds an item. A full queue loses its oldest, and one without any capacity the item itself. -/
def add (fifo : Fifo α) (value : α) : Fifo α :=
  if room : fifo.queue.length < fifo.capacity then
    { fifo with
      queue := fifo.queue ++ [value]
      bounded := by simpa using room }
  else
    { fifo with
      past := fifo.past ++ [(fifo.queue.headD value, .displaced fifo.queue value)]
      queue := (fifo.queue ++ [value]).tail
      bounded := by simpa using fifo.bounded
      sound := sound_append (by
        intro item departure member
        cases List.mem_singleton.mp member
        have full := Nat.le_antisymm fifo.bounded (Nat.le_of_not_lt room)
        refine ⟨full, ?_⟩
        cases queued : fifo.queue with
        | nil =>
          rw [queued] at full
          exact .inr ⟨full.symm, rfl⟩
        | cons oldest rest => exact .inl rfl) }

/-- Takes the oldest item, if there is one. -/
def take (fifo : Fifo α) : Fifo α :=
  { fifo with
    past := fifo.past ++ (fifo.queue.head?.map (·, .taken)).toList
    queue := fifo.queue.tail
    bounded := by
      have bounded := fifo.bounded
      rw [List.length_tail]
      omega
    sound := sound_append (by
      intro item departure member
      cases queued : fifo.queue with
      | nil => simp [queued] at member
      | cons oldest rest =>
        have bounded := fifo.bounded
        simp only [queued, List.head?_cons, Option.map_some, Option.toList_some,
          List.mem_singleton, Prod.mk.injEq, List.length_cons] at member bounded
        obtain ⟨_, rfl⟩ := member
        exact Nat.ne_of_gt (Nat.lt_of_lt_of_le (Nat.succ_pos _) bounded)) }

/-- Takes everything there is. -/
def takeAll (fifo : Fifo α) : Fifo α :=
  { fifo with
    past := fifo.past ++ fifo.queue.map (·, .taken)
    queue := []
    bounded := Nat.zero_le _
    sound := sound_append (by
      intro item departure member
      obtain ⟨_, queued, same⟩ := List.mem_map.mp member
      cases same
      have positive := List.length_pos_of_mem queued
      exact Nat.ne_of_gt (Nat.lt_of_lt_of_le positive fifo.bounded)) }

def addAll (fifo : Fifo α) (values : List α) : Fifo α := values.foldl add fifo

/-! ### Capacity and queue -/

@[simp] theorem capacity_add : (fifo.add value).capacity = fifo.capacity := by
  unfold add
  split <;> rfl

@[simp] theorem queue_take : fifo.take.queue = fifo.queue.tail := rfl

/-- The queue after an addition, dropping first where there is no room. -/
theorem queue_add (fifo : Fifo α) (value : α) (positive : 0 < fifo.capacity) :
    (fifo.add value).queue =
    (if fifo.queue.length = fifo.capacity then fifo.queue.drop 1 else fifo.queue) ++ [value] := by
  have bounded := fifo.bounded
  unfold add
  split
  · rename_i room
    rw [if_neg room.ne]
  · rename_i full
    have same : fifo.queue.length = fifo.capacity := by omega
    rw [if_pos same]
    dsimp only
    cases queued : fifo.queue with
    | nil =>
      rw [queued] at same
      exact absurd same positive.ne
    | cons oldest rest => rfl

/-! ### The account -/

@[simp] theorem added_add : (fifo.add value).added = fifo.added ++ [value] := by
  unfold add added
  split
  · exact (List.append_assoc _ _ _).symm
  · dsimp only
    cases queued : fifo.queue with
    | nil => simp
    | cons oldest rest => simp

@[simp] theorem taken_add : (fifo.add value).taken = fifo.taken := by
  unfold add taken
  split
  · rfl
  · simp [takenOf]

@[simp] theorem added_take : fifo.take.added = fifo.added := by
  unfold take added
  dsimp only
  cases queued : fifo.queue with
  | nil => simp
  | cons oldest rest => simp

@[simp] theorem taken_take : fifo.take.taken = fifo.taken ++ fifo.queue.head?.toList := by
  unfold take taken
  dsimp only
  cases queued : fifo.queue with
  | nil => simp
  | cons oldest rest => simp [takenOf]

@[simp] theorem added_takeAll : fifo.takeAll.added = fifo.added := by
  simp [takeAll, added, Function.comp_def]

@[simp] theorem taken_takeAll : fifo.takeAll.taken = fifo.taken ++ fifo.queue := by
  simp [takeAll, taken, takenOf, List.filterMap_map, Function.comp_def]

@[simp] theorem lost_take : fifo.take.lost = fifo.lost := by
  unfold take lost
  dsimp only
  cases queued : fifo.queue with
  | nil => simp
  | cons oldest rest => simp [displacedOf]

@[simp] theorem lost_takeAll : fifo.takeAll.lost = fifo.lost := by
  simp [takeAll, lost, displacedOf, List.filterMap_map, Function.comp_def]

/-- Nothing is lost where there is room. -/
theorem add_room (fifo : Fifo α) (value : α) (room : fifo.queue.length < fifo.capacity) :
    (fifo.add value).lost = fifo.lost ∧ (fifo.add value).queue = fifo.queue ++ [value] := by
  unfold add
  rw [dif_pos room]
  exact ⟨rfl, rfl⟩

/-! ### Several additions -/

@[simp] theorem addAll_nil : fifo.addAll [] = fifo := rfl

@[simp] theorem addAll_cons (value : α) (values : List α) :
    fifo.addAll (value :: values) = (fifo.add value).addAll values := rfl

@[simp] theorem capacity_addAll (fifo : Fifo α) (values : List α) :
    (fifo.addAll values).capacity = fifo.capacity := by
  induction values generalizing fifo with
  | nil => rfl
  | cons value values ih => rw [addAll_cons, ih, capacity_add]

@[simp] theorem added_addAll (fifo : Fifo α) (values : List α) :
    (fifo.addAll values).added = fifo.added ++ values := by
  induction values generalizing fifo with
  | nil => simp
  | cons value values ih => rw [addAll_cons, ih, added_add, List.append_assoc, List.singleton_append]

@[simp] theorem taken_addAll (fifo : Fifo α) (values : List α) :
    (fifo.addAll values).taken = fifo.taken := by
  induction values generalizing fifo with
  | nil => rfl
  | cons value values ih => rw [addAll_cons, ih, taken_add]

theorem lost_addAll (fifo : Fifo α) (values : List α)
    (room : fifo.queue.length + values.length ≤ fifo.capacity) :
    (fifo.addAll values).lost = fifo.lost := by
  induction values generalizing fifo with
  | nil => rfl
  | cons value values ih =>
    rw [List.length_cons] at room
    obtain ⟨kept, queue⟩ := fifo.add_room value (by omega)
    rw [addAll_cons, ih, kept]
    rw [queue, capacity_add, List.length_append, List.length_singleton]
    omega

/-- Without any capacity everything added is lost. -/
theorem lost_eq_added (fifo : Fifo α) (nothing : fifo.capacity = 0) : fifo.lost = fifo.added := by
  have empty : fifo.queue = [] :=
    List.length_eq_zero_iff.mp (Nat.le_zero.mp (nothing ▸ fifo.bounded))
  have displaced (entries : List (α × Departure α))
      (sound : ∀ item departure, (item, departure) ∈ entries → departure.Sound 0 item) :
      entries.filterMap displacedOf = entries.map Prod.fst := by
    induction entries with
    | nil => rfl
    | cons entry entries ih =>
      obtain ⟨item, departure⟩ := entry
      have rest := ih fun item departure member => sound item departure (.tail _ member)
      cases departure with
      | taken => exact absurd rfl (sound item .taken (.head _))
      | displaced queue newcomer => simp [displacedOf, rest]
  rw [lost, added, empty, List.append_nil]
  exact displaced fifo.past (nothing ▸ fifo.sound)

/-- What is taken is a subsequence of what was added. -/
theorem taken_sublist (fifo : Fifo α) : fifo.taken.Sublist fifo.added := by
  have passed : fifo.taken.Sublist (fifo.past.map Prod.fst) := by
    unfold taken
    induction fifo.past with
    | nil => exact .slnil
    | cons entry entries ih =>
      obtain ⟨item, departure⟩ := entry
      cases departure with
      | taken => exact ih.cons_cons item
      | displaced queue newcomer => exact ih.cons item
  exact passed.trans (List.sublist_append_left _ _)

end Fifo

end Minemu.Library
