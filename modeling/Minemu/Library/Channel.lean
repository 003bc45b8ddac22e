import Mathlib

/-! Bounded channels: sends that never wait, and a receiver that can go away. -/

namespace Minemu.Library

/-- How a send that does not wait ends. -/
inductive SendOutcome where
  | sent
  | full
  | disconnected
deriving DecidableEq

/-- A queue of at most `capacity` messages, oldest first, and whether its receiver is there. -/
structure Channel (α : Type u) where
  capacity : Nat
  queue : List α
  connected : Bool
  bounded : queue.length ≤ capacity

namespace Channel

variable {α : Type u} {channel : Channel α} {message : α}

def empty (capacity : Nat) : Channel α := ⟨capacity, [], true, Nat.zero_le _⟩

def HasRoom (channel : Channel α) : Prop := channel.queue.length < channel.capacity

instance (channel : Channel α) : Decidable channel.HasRoom := inferInstanceAs (Decidable (_ < _))

def trySend (channel : Channel α) (message : α) : SendOutcome × Channel α :=
  if channel.connected = false then (.disconnected, channel)
  else if room : channel.HasRoom then
    (.sent, { channel with
      queue := channel.queue ++ [message]
      bounded := by rw [List.length_append]; exact room })
  else (.full, channel)

/-- The oldest message, and the channel without it. -/
def receive (channel : Channel α) : Option α × Channel α :=
  (channel.queue.head?, { channel with
    queue := channel.queue.tail
    bounded := by
      have bounded := channel.bounded
      rw [List.length_tail]
      omega })

/-- The receiver goes away with everything that is still queued. -/
def disconnect (channel : Channel α) : Channel α :=
  { channel with queue := [], connected := false, bounded := Nat.zero_le _ }

theorem trySend_sent (connected : channel.connected = true) (room : channel.HasRoom) :
    (channel.trySend message).1 = .sent ∧
      (channel.trySend message).2.queue = channel.queue ++ [message] ∧
      (channel.trySend message).2.connected = true := by
  unfold trySend
  rw [connected, if_neg (by decide), dif_pos room]
  exact ⟨rfl, rfl, rfl⟩

/-- A send that fails changes nothing. -/
theorem trySend_failed (failed : channel.connected = false ∨ ¬ channel.HasRoom) :
    (channel.trySend message).1 ≠ .sent ∧ (channel.trySend message).2 = channel := by
  unfold trySend
  by_cases gone : channel.connected = false
  · rw [if_pos gone]
    exact ⟨nofun, rfl⟩
  · rw [if_neg gone, dif_neg (failed.resolve_left gone)]
    exact ⟨nofun, rfl⟩

theorem trySend_sent_iff : (channel.trySend message).1 = .sent ↔
    channel.connected = true ∧ channel.HasRoom := by
  constructor
  · intro sent
    by_contra failed
    rw [not_and_or, Bool.not_eq_true] at failed
    exact (trySend_failed failed).1 sent
  · rintro ⟨connected, room⟩
    exact (trySend_sent connected room).1

/-- What was queued before a send is queued after it. -/
theorem mem_trySend {other : α} (queued : other ∈ channel.queue) :
    other ∈ (channel.trySend message).2.queue := by
  by_cases sent : (channel.trySend message).1 = .sent
  · obtain ⟨connected, room⟩ := trySend_sent_iff.mp sent
    rw [(trySend_sent connected room).2.1]
    exact List.mem_append_left _ queued
  · rw [trySend_sent_iff, not_and_or, Bool.not_eq_true] at sent
    have same : (channel.trySend message).2 = channel := (trySend_failed sent).2
    rw [same]
    exact queued

@[simp] theorem trySend_connected : (channel.trySend message).2.connected = channel.connected := by
  unfold trySend
  split
  · rfl
  · split <;> rfl

end Channel

end Minemu.Library
