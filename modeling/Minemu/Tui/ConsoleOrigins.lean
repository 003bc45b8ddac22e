import Minemu.Tui.Console

/-! Where the bytes of a console transcript come from: a list of origins beside the transcript,
one for each byte, that goes through what the stream goes through. -/

namespace Minemu.Tui

open Platform Minemu.Core

/-- A stream with the origin of each byte of its transcript. -/
structure TracedStream where
  stream : ConsoleStream
  origins : List Nat

namespace TracedStream

/-- The origins of bytes appended one by one. -/
def push (origins new : List Nat) : List Nat :=
  new.foldl (pushBounded · transcriptCapacity ·) origins

def observe (traced : TracedStream) (uart : UartInspection) (origin : Nat) : TracedStream where
  stream := traced.stream.observe uart
  origins :=
    let new := List.replicate (traced.stream.newOutput uart).length origin
    if !traced.stream.initialized then push (push [] new) traced.origins else push traced.origins new

def echoByte (origin : Nat) (traced : TracedStream) (byte : U8) : TracedStream where
  stream := traced.stream.echoByte byte
  origins :=
    if byte ≠ 10 ∧ (byte = 8 ∨ byte = 127) then
      traced.origins.take (traced.stream.echoByte byte).transcript.length
    else push traced.origins [origin]

def echoInput (traced : TracedStream) (bytes : List U8) (origin : Nat) : TracedStream :=
  bytes.foldl (echoByte origin) traced

/-- There is an origin for each byte. -/
def Parallel (traced : TracedStream) : Prop :=
  traced.origins.length = traced.stream.transcript.length

variable {traced : TracedStream} {origin : Nat}

theorem stream_echoInput (traced : TracedStream) (bytes : List U8) (origin : Nat) :
    (traced.echoInput bytes origin).stream = traced.stream.echoInput bytes := by
  induction bytes generalizing traced with
  | nil => rfl
  | cons byte bytes ih => exact ih (echoByte origin traced byte)

theorem length_push {origins new : List Nat} {queue bytes : List U8}
    (same : origins.length = queue.length) (added : new.length = bytes.length) :
    (push origins new).length = (bytes.foldl (pushBounded · transcriptCapacity ·) queue).length := by
  induction bytes generalizing origins new queue with
  | nil =>
    obtain rfl := List.length_eq_zero_iff.mp added
    exact same
  | cons byte bytes ih =>
    cases new with
    | nil => cases added
    | cons first new =>
      have one : (pushBounded origins transcriptCapacity first).length =
          (pushBounded queue transcriptCapacity byte).length := by
        rw [pushBounded, pushBounded, List.length_append, List.length_append, same]
        split
        · rw [List.length_drop, List.length_drop, same]
          rfl
        · rw [same]
          rfl
      have tails : new.length = bytes.length := Nat.succ.inj added
      have rest := ih one tails
      exact rest

theorem mem_push {origins new : List Nat} {other : Nat} (member : other ∈ push origins new) :
    other ∈ origins ∨ other ∈ new := by
  induction new generalizing origins with
  | nil => exact .inl member
  | cons first new ih =>
    rcases ih member with inside | later
    · rcases List.mem_append.mp inside with old | last
      · left
        split at old
        · exact List.mem_of_mem_drop old
        · exact old
      · exact .inr (List.mem_singleton.mp last ▸ .head _)
    · exact .inr (.tail _ later)

theorem Parallel.observe (parallel : traced.Parallel) (uart : UartInspection) (origin : Nat) :
    (traced.observe uart origin).Parallel := by
  have added : (List.replicate (traced.stream.newOutput uart).length origin).length =
      (traced.stream.newOutput uart).length := List.length_replicate
  rw [Parallel, TracedStream.observe, ConsoleStream.observe]
  cases traced.stream.initialized with
  | false => exact length_push (length_push rfl added) parallel
  | true => exact length_push parallel added

theorem length_backspace (stream : ConsoleStream) :
    stream.backspace.transcript.length ≤ stream.transcript.length := by
  rw [ConsoleStream.backspace]
  split
  · exact le_rfl
  · dsimp only
    split
    · exact List.length_take_le' _ _
    · exact le_rfl

theorem Parallel.echoByte (parallel : traced.Parallel) (origin : Nat) (byte : U8) :
    (TracedStream.echoByte origin traced byte).Parallel := by
  rw [Parallel, TracedStream.echoByte, ConsoleStream.echoByte]
  by_cases feed : byte = 10
  · rw [if_pos feed, if_neg fun both => both.1 feed]
    exact length_push parallel rfl
  · rw [if_neg feed]
    by_cases erase : byte = 8 ∨ byte = 127
    · rw [if_pos erase, if_pos ⟨feed, erase⟩, List.length_take, parallel]
      exact Nat.min_eq_left (length_backspace _)
    · rw [if_neg erase, if_neg fun both => erase both.2]
      exact length_push parallel rfl

theorem Parallel.echoInput (parallel : traced.Parallel) (bytes : List U8) (origin : Nat) :
    (traced.echoInput bytes origin).Parallel := by
  induction bytes generalizing traced with
  | nil => exact parallel
  | cons byte bytes ih => exact ih (parallel.echoByte origin byte)

theorem mem_echoByte {byte : U8} {other : Nat}
    (member : other ∈ (TracedStream.echoByte origin traced byte).origins) :
    other ∈ traced.origins ∨ other = origin := by
  rw [TracedStream.echoByte] at member
  dsimp only at member
  split at member
  · exact .inl (List.mem_of_mem_take member)
  · exact (mem_push member).imp_right List.mem_singleton.mp

theorem mem_echoInput {bytes : List U8} {other : Nat}
    (member : other ∈ (traced.echoInput bytes origin).origins) :
    other ∈ traced.origins ∨ other = origin := by
  induction bytes generalizing traced with
  | nil => exact .inl member
  | cons byte bytes ih =>
    rcases ih member with inside | new
    · exact mem_echoByte inside
    · exact .inr new

/-- A snapshot without guest bytes leaves the origins there are. -/
theorem mem_observe {uart : UartInspection} {other : Nat}
    (member : other ∈ (traced.observe uart origin).origins) :
    other ∈ traced.origins ∨ uart.txHistory ≠ [] ∧ other = origin := by
  have new (inside : other ∈ List.replicate (traced.stream.newOutput uart).length origin) :
      uart.txHistory ≠ [] ∧ other = origin := by
    obtain ⟨some, same⟩ := List.mem_replicate.mp inside
    refine ⟨fun none => some ?_, same⟩
    rw [ConsoleStream.newOutput, none]
    split
    · rfl
    · rw [List.drop_nil, List.length_nil]
  rw [TracedStream.observe] at member
  dsimp only at member
  split at member
  · rcases mem_push member with inside | old
    · rcases mem_push inside with none | added
      · cases none
      · exact .inr (new added)
    · exact .inl old
  · exact (mem_push member).imp_right new

end TracedStream

end Minemu.Tui
