import Mathlib

/-! Levels kept twice: at their sources, and on a board that sources keep up to
date through a queue of announcements. -/

namespace Minemu.Library

variable {Line : Type u} [DecidableEq Line]

/-- The board after every queued announcement, oldest first. -/
def drain (board : Line → Bool) (queue : List (Line × Bool)) : Line → Bool :=
  queue.foldl (fun board message => Function.update board message.1 message.2) board

/-- An announcement that is followed by a later one of its line is not seen. -/
theorem drain_overtaken (board : Line → Bool) (line : Line) (first last : Bool)
    {messages : List (Line × Bool)} (others : ∀ message ∈ messages, message.1 ≠ line)
    (rest : List (Line × Bool)) :
    drain board ((line, first) :: messages ++ (line, last) :: rest) =
      drain board ((line, last) :: messages ++ rest) := by
  induction messages generalizing board with
  | nil =>
    simp only [drain, List.cons_append, List.nil_append, List.foldl_cons, Function.update_idem]
  | cons message messages ih =>
    rw [List.forall_mem_cons] at others
    have swapped := ih (Function.update board message.1 message.2) others.2
    simp only [drain, List.cons_append, List.foldl_cons] at swapped ⊢
    have swap (value : Bool) :
        Function.update (Function.update board line value) message.1 message.2 =
          Function.update (Function.update board message.1 message.2) line value :=
      Function.update_comm (Ne.symm others.1) value message.2 board
    rw [swap, swap]
    exact swapped

/-- The queue brings the board up to date with the levels. -/
def Synced (board : Line → Bool) (queue : List (Line × Bool)) (levels : Line → Bool) : Prop :=
  drain board queue = levels

namespace Synced

variable {board levels after : Line → Bool} {queue : List (Line × Bool)}

theorem drained (synced : Synced board queue levels) : Synced (drain board queue) [] levels :=
  synced

/-- A source that announces its level after changing it keeps the board in step. -/
theorem announce (synced : Synced board queue levels) {line : Line}
    (others : ∀ other, other ≠ line → after other = levels other) :
    Synced board (queue ++ [(line, after line)]) after := by
  rw [Synced, drain, List.foldl_append]
  funext other
  by_cases same : other = line
  · subst same
    simp
  · have kept := congrFun synced other
    rw [drain] at kept
    simp only [List.foldl_cons, List.foldl_nil, ne_eq, same, not_false_eq_true,
      Function.update_of_ne, kept, others other same]

end Synced

end Minemu.Library
