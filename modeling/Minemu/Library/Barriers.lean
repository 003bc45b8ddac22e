import Mathlib

/-! Requests and barriers in one queue. A message carries the number of barriers sent up to it, a
barrier its own number; a barrier that is taken succeeds or fails. What has become of the barriers
before a request when the request is taken? -/

namespace Minemu.Library

variable {Message : Type u} (barrier : Message → Prop) (number : Message → Nat)

/-- A queue of messages after `sent` barriers, of which `done` is the last that succeeded. -/
structure BarrierQueue (queue : List Message) (sent done : Nat) (failed : List Nat) : Prop where
  sorted : queue.Pairwise fun first second =>
    number first ≤ number second ∧ (barrier second → number first < number second)
  numbered : ∀ message ∈ queue, done ≤ number message ∧ number message ≤ sent
  done_le : done ≤ sent
  accounted : ∀ index, 0 < index → index ≤ sent →
    (∃ message ∈ queue, barrier message ∧ number message = index) ∨ index ∈ failed ∨ index ≤ done

namespace BarrierQueue

variable {barrier number} {queue : List Message} {message : Message} {sent done : Nat}
  {failed : List Nat}

theorem empty : BarrierQueue barrier number [] 0 0 [] where
  sorted := .nil
  numbered _ member := absurd member List.not_mem_nil
  done_le := le_rfl
  accounted _ positive within := absurd positive (Nat.not_lt.mpr within)

theorem sendRequest (ordered : BarrierQueue barrier number queue sent done failed)
    (message : Message) (request : ¬barrier message) (latest : number message = sent) :
    BarrierQueue barrier number (queue ++ [message]) sent done failed where
  sorted := by
    rw [List.pairwise_append]
    refine ⟨ordered.sorted, List.pairwise_singleton _ _, ?_⟩
    intro first inside second last
    obtain rfl := List.mem_singleton.mp last
    rw [latest]
    exact ⟨(ordered.numbered first inside).2, fun isBarrier => absurd isBarrier request⟩
  numbered other member := by
    rcases List.mem_append.mp member with inside | last
    · exact ordered.numbered other inside
    · obtain rfl := List.mem_singleton.mp last
      rw [latest]
      exact ⟨ordered.done_le, le_rfl⟩
  done_le := ordered.done_le
  accounted index positive within := by
    rcases ordered.accounted index positive within with ⟨queued, inside, same⟩ | settled
    · exact .inl ⟨queued, List.mem_append_left _ inside, same⟩
    · exact .inr settled

theorem sendBarrier (ordered : BarrierQueue barrier number queue sent done failed)
    (message : Message) (isBarrier : barrier message) (next : number message = sent + 1) :
    BarrierQueue barrier number (queue ++ [message]) (sent + 1) done failed where
  sorted := by
    rw [List.pairwise_append]
    refine ⟨ordered.sorted, List.pairwise_singleton _ _, ?_⟩
    intro first inside second last
    obtain rfl := List.mem_singleton.mp last
    have before := Nat.lt_succ_of_le (ordered.numbered first inside).2
    rw [next]
    exact ⟨before.le, fun _ => before⟩
  numbered other member := by
    rcases List.mem_append.mp member with inside | last
    · have within := ordered.numbered other inside
      exact ⟨within.1, within.2.trans (Nat.le_succ _)⟩
    · obtain rfl := List.mem_singleton.mp last
      rw [next]
      exact ⟨ordered.done_le.trans (Nat.le_succ _), le_rfl⟩
  done_le := ordered.done_le.trans (Nat.le_succ _)
  accounted index positive within := by
    rcases Nat.lt_or_eq_of_le within with earlier | rfl
    · rcases ordered.accounted index positive (Nat.le_of_lt_succ earlier) with
        ⟨queued, inside, same⟩ | settled
      · exact .inl ⟨queued, List.mem_append_left _ inside, same⟩
      · exact .inr settled
    · exact .inl ⟨message, List.mem_append_right _ (.head _), isBarrier, next⟩

theorem takeRequest (ordered : BarrierQueue barrier number (message :: queue) sent done failed)
    (request : ¬barrier message) : BarrierQueue barrier number queue sent done failed where
  sorted := ordered.sorted.of_cons
  numbered other member := ordered.numbered other (.tail _ member)
  done_le := ordered.done_le
  accounted index positive within := by
    rcases ordered.accounted index positive within with ⟨queued, inside, isBarrier, same⟩ | settled
    · rcases List.mem_cons.mp inside with rfl | later
      · exact absurd isBarrier request
      · exact .inl ⟨queued, later, isBarrier, same⟩
    · exact .inr settled

/-- When a request is taken every barrier sent before it has failed or is done. -/
theorem settled (ordered : BarrierQueue barrier number (message :: queue) sent done failed)
    (request : ¬barrier message) {index : Nat} (positive : 0 < index)
    (before : index ≤ number message) : index ∈ failed ∨ index ≤ done := by
  have within := before.trans (ordered.numbered message (.head _)).2
  rcases ordered.accounted index positive within with ⟨queued, inside, isBarrier, same⟩ | settled
  · rcases List.mem_cons.mp inside with rfl | later
    · exact absurd isBarrier request
    · have behind := (List.pairwise_cons.mp ordered.sorted).1 queued later
      have further := behind.2 isBarrier
      rw [same] at further
      exact absurd before (Nat.not_le.mpr further)
  · exact settled

theorem takeDone (ordered : BarrierQueue barrier number (message :: queue) sent done failed) :
    BarrierQueue barrier number queue sent (number message) failed where
  sorted := ordered.sorted.of_cons
  numbered other member := by
    have behind := (List.pairwise_cons.mp ordered.sorted).1 other member
    exact ⟨behind.1, (ordered.numbered other (.tail _ member)).2⟩
  done_le := (ordered.numbered message (.head _)).2
  accounted index positive within := by
    rcases ordered.accounted index positive within with ⟨queued, inside, same⟩ | settled
    · rcases List.mem_cons.mp inside with rfl | later
      · exact .inr (.inr same.2.ge)
      · exact .inl ⟨queued, later, same⟩
    · have grown := (ordered.numbered message (.head _)).1
      exact .inr (settled.imp_right fun before => before.trans grown)

theorem takeFailed (ordered : BarrierQueue barrier number (message :: queue) sent done failed) :
    BarrierQueue barrier number queue sent done (number message :: failed) where
  sorted := ordered.sorted.of_cons
  numbered other member := ordered.numbered other (.tail _ member)
  done_le := ordered.done_le
  accounted index positive within := by
    rcases ordered.accounted index positive within with ⟨queued, inside, same⟩ | settled
    · rcases List.mem_cons.mp inside with rfl | later
      · exact .inr (.inl (same.2 ▸ .head _))
      · exact .inl ⟨queued, later, same⟩
    · exact .inr (settled.imp_left (.tail _))

/-- Barriers that are dropped with the queue have failed. -/
theorem drop (ordered : BarrierQueue barrier number queue sent done failed) {dropped : List Nat}
    (all : ∀ message ∈ queue, barrier message → number message ∈ dropped) :
    BarrierQueue barrier number [] sent done (failed ++ dropped) where
  sorted := .nil
  numbered _ member := absurd member List.not_mem_nil
  done_le := ordered.done_le
  accounted index positive within := by
    rcases ordered.accounted index positive within with ⟨queued, inside, isBarrier, same⟩ | settled
    · exact .inr (.inl (List.mem_append_right _ (same ▸ all queued inside isBarrier)))
    · exact .inr (settled.imp_left (List.mem_append_left _))

end BarrierQueue

end Minemu.Library
