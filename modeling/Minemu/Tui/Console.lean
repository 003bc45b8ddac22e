import Minemu.Core.Peripherals
import Minemu.Library.Overlaps

/-! The console's transcript of one UART. New guest output is what a snapshot of the transmit
history adds to the one before, found by the longest overlap of the two. -/

namespace Minemu.Core

open Platform

/-- A snapshot of one UART. -/
structure UartInspection where
  status : U32
  control : U32
  rxQueued : Nat
  rxIrqEnabled : Bool
  txHistory : List U8
deriving DecidableEq

def Uart.inspect (uart : Uart) : UartInspection :=
  ⟨uart.status, uart.control, uart.rx.length, uart.rxIrqEnabled, uart.tx⟩

end Minemu.Core

namespace Minemu.Tui

open Platform Minemu.Core Library

def transcriptCapacity : Nat := 16 * 1024

/-- The inner loop of both passes: falls back until the next byte of `current` is `byte`. An
entry is smaller than its position, so it falls `matched` times at most. -/
def fallBack (current : List U8) (table : List Nat) (byte : U8) : Nat → Nat → Nat
  | 0, matched => matched
  | fuel + 1, matched =>
    if 0 < matched ∧ current[matched]? ≠ some byte then
      fallBack current table byte fuel (table.getD (matched - 1) 0)
    else matched

/-- One more byte of either pass. -/
def advance (current : List U8) (table : List Nat) (matched : Nat) (byte : U8) : Nat :=
  let matched := fallBack current table byte matched matched
  if current[matched]? = some byte then matched + 1 else matched

def prefixTable (current : List U8) : List Nat :=
  (List.range' 1 (current.length - 1)).foldl
    (fun table index => table.set index
      (advance current table (table.getD (index - 1) 0) (current.getD index 0)))
    (List.replicate current.length 0)

/-- The pass over `previous`. A full match falls back unless it is at the very end. -/
def scan (current : List U8) (table : List Nat) : Nat → List U8 → Nat
  | matched, [] => matched
  | matched, byte :: rest =>
    let matched := advance current table matched byte
    if matched = current.length ∧ rest ≠ [] then
      scan current table (table.getD (matched - 1) 0) rest
    else scan current table matched rest

def suffixPrefixOverlap (previous current : List U8) : Nat :=
  if previous = [] ∨ current = [] then 0
  else scan current (prefixTable current) 0 previous

structure ConsoleStream where
  transcript : List U8 := []
  inputLine : List U8 := []
  observedTx : List U8 := []
  initialized : Bool := false
deriving DecidableEq

namespace ConsoleStream

def append (stream : ConsoleStream) (bytes : List U8) : ConsoleStream :=
  { stream with
    transcript := bytes.foldl (pushBounded · transcriptCapacity ·) stream.transcript }

/-- The guest bytes that a snapshot adds. -/
def newOutput (stream : ConsoleStream) (uart : UartInspection) : List U8 :=
  if !stream.initialized then uart.txHistory
  else uart.txHistory.drop (suffixPrefixOverlap stream.observedTx uart.txHistory)

/-- Before the first snapshot the transcript holds local input only, which goes behind it. -/
def observe (stream : ConsoleStream) (uart : UartInspection) : ConsoleStream :=
  let output := stream.newOutput uart
  let stream :=
    if !stream.initialized then
      let input := stream.transcript
      { ({ stream with transcript := [] }.append output).append input with initialized := true }
    else stream.append output
  { stream with observedTx := uart.txHistory }

/-- The position of the last character of a line that is not empty: a byte that continues a
character belongs to the one before it. -/
def lastCharacter (line : List U8) : Nat → Nat
  | 0 => 0
  | start + 1 =>
    if line.getD (start + 1) 0 &&& 0xc0 = 0x80 then lastCharacter line start else start + 1

def backspace (stream : ConsoleStream) : ConsoleStream :=
  if stream.inputLine = [] then stream
  else
    let start := lastCharacter stream.inputLine (stream.inputLine.length - 1)
    let removed := stream.inputLine.drop start
    let stream := { stream with inputLine := stream.inputLine.take start }
    let kept := stream.transcript.length - removed.length
    if removed.length ≤ stream.transcript.length ∧ stream.transcript.drop kept = removed then
      { stream with transcript := stream.transcript.take kept }
    else stream

/-- A line feed ends the input line, a backspace or a delete takes its last character. -/
def echoByte (stream : ConsoleStream) (byte : U8) : ConsoleStream :=
  if byte = 10 then { stream.append [byte] with inputLine := [] }
  else if byte = 8 ∨ byte = 127 then stream.backspace
  else
    let stream := stream.append [byte]
    { stream with inputLine := stream.inputLine ++ [byte] }

def echoInput (stream : ConsoleStream) (bytes : List U8) : ConsoleStream :=
  bytes.foldl echoByte stream

def reset (_stream : ConsoleStream) : ConsoleStream := {}

end ConsoleStream

/-! ### The overlap is the longest one -/

section Overlap

variable {current text : List U8} {table : List Nat} {byte : U8} {bound matched reach : Nat}

/-- The entries for the prefixes up to that length: the longest proper overlap of each prefix
with itself. -/
def Filled (current : List U8) (table : List Nat) (reach : Nat) : Prop :=
  ∀ length, 0 < length → length ≤ reach →
    LongestOverlap current (current.take length) length (table.getD (length - 1) 0)

theorem fallBack_overlap (filled : Filled current table reach) (fuel : Nat)
    (candidate : OverlapFor current text byte bound matched) (enough : matched ≤ fuel)
    (known : matched ≤ reach) :
    OverlapFor current text byte bound (fallBack current table byte fuel matched) ∧
      (0 < fallBack current table byte fuel matched →
        current[fallBack current table byte fuel matched]? = some byte) := by
  induction fuel generalizing matched with
  | zero =>
    rw [fallBack]
    exact ⟨candidate, fun positive => absurd enough (Nat.not_le.mpr positive)⟩
  | succ fuel ih =>
    rw [fallBack]
    split
    · rename_i refused
      have inner := filled matched refused.1 known
      have smaller : table.getD (matched - 1) 0 < matched := inner.1.1
      apply ih (candidate.fall refused.2 inner)
      · exact Nat.le_of_lt_succ (smaller.trans_le enough)
      · exact smaller.le.trans known
    · rename_i settled
      refine ⟨candidate, fun positive => ?_⟩
      by_contra refused
      exact settled ⟨positive, refused⟩

theorem advance_overlap (filled : Filled current table reach)
    (longest : LongestOverlap current text bound matched) (known : matched ≤ reach) (byte : U8) :
    LongestOverlap current (text ++ [byte]) (bound + 1) (advance current table matched byte) := by
  have fallen := fallBack_overlap filled matched (longest.forValue byte) le_rfl known
  rw [advance]
  by_cases next : current[fallBack current table byte matched matched]? = some byte
  · rw [if_pos next]
    exact fallen.1.extend next
  · rw [if_neg next]
    have zero : fallBack current table byte matched matched = 0 := by
      by_contra nonzero
      exact next (fallen.2 (Nat.pos_of_ne_zero nonzero))
    rw [zero] at fallen next ⊢
    exact fallen.1.restart next

theorem Filled.set (filled : Filled current table reach) (inside : reach < table.length)
    {entry : Nat}
    (longest : LongestOverlap current (current.take (reach + 1)) (reach + 1) entry) :
    Filled current (table.set reach entry) (reach + 1) := by
  intro length positive within
  rcases Nat.lt_or_eq_of_le within with earlier | rfl
  · have other : reach ≠ length - 1 := by omega
    have same : (table.set reach entry).getD (length - 1) 0 = table.getD (length - 1) 0 := by
      rw [List.getD_eq_getElem?_getD, List.getD_eq_getElem?_getD, List.getElem?_set_ne other]
    rw [same]
    exact filled length positive (Nat.le_of_lt_succ earlier)
  · have new : (table.set reach entry).getD (reach + 1 - 1) 0 = entry := by
      rw [Nat.add_sub_cancel, List.getD_eq_getElem?_getD, List.getElem?_set_self inside,
        Option.getD_some]
    rw [new]
    exact longest

/-- The table after some rounds of its loop. -/
def prefixRounds (current : List U8) (count : Nat) : List Nat :=
  (List.range' 1 count).foldl
    (fun table index => table.set index
      (advance current table (table.getD (index - 1) 0) (current.getD index 0)))
    (List.replicate current.length 0)

theorem prefixRounds_succ (current : List U8) (count : Nat) :
    prefixRounds current (count + 1) = (prefixRounds current count).set (count + 1)
      (advance current (prefixRounds current count) ((prefixRounds current count).getD count 0)
        (current.getD (count + 1) 0)) := by
  rw [prefixRounds, List.range'_1_concat, List.foldl_append, List.foldl_cons, List.foldl_nil,
    ← prefixRounds, Nat.add_comm 1 count, Nat.add_sub_cancel]

theorem prefixRounds_filled {count : Nat} (more : count < current.length) :
    (prefixRounds current count).length = current.length ∧
      Filled current (prefixRounds current count) (count + 1) := by
  induction count with
  | zero =>
    refine ⟨List.length_replicate, fun length positive within => ?_⟩
    obtain rfl : length = 1 := Nat.le_antisymm within positive
    have first : (prefixRounds current 0).getD (1 - 1) 0 = 0 := by
      rw [prefixRounds, List.range'_zero, List.foldl_nil, List.getD_eq_getElem?_getD,
        List.getElem?_replicate]
      split <;> rfl
    rw [first]
    exact ⟨⟨Nat.one_pos, overlap_zero⟩, fun candidate below => Nat.le_of_lt_succ below.1⟩
  | succ count ih =>
    obtain ⟨sized, filled⟩ := ih (Nat.lt_of_succ_lt more)
    rw [prefixRounds_succ]
    refine ⟨by rw [List.length_set]; exact sized, ?_⟩
    apply filled.set (by rw [sized]; exact more)
    have inner := filled (count + 1) (Nat.succ_pos _) le_rfl
    have next := advance_overlap filled inner inner.1.1.le (current.getD (count + 1) 0)
    have grown : current.take (count + 1 + 1) =
        current.take (count + 1) ++ [current.getD (count + 1) 0] := by
      rw [List.take_add_one, List.getElem?_eq_getElem more, List.getD_eq_getElem?_getD,
        List.getElem?_eq_getElem more]
      rfl
    rw [grown]
    exact next

theorem prefixTable_filled (current : List U8) :
    Filled current (prefixTable current) current.length := by
  intro length positive within
  have filled := (prefixRounds_filled (by omega : current.length - 1 < current.length)).2
  exact filled length positive (by omega)

theorem scan_overlap (filled : Filled current table current.length) (byte : U8) (rest : List U8)
    (longest : LongestOverlap current text current.length matched) :
    LongestOverlap current (text ++ byte :: rest) (current.length + 1)
      (scan current table matched (byte :: rest)) := by
  induction rest generalizing text byte matched with
  | nil =>
    have next := advance_overlap filled longest longest.1.1.le byte
    rw [scan]
    simpa only [ne_eq, not_true_eq_false, and_false, if_false, scan] using next
  | cons second rest ih =>
    have next := advance_overlap filled longest longest.1.1.le byte
    have split : text ++ byte :: second :: rest = text ++ [byte] ++ second :: rest := by
      rw [List.append_assoc, List.singleton_append]
    rw [scan, split]
    simp only [ne_eq, reduceCtorEq, not_false_eq_true, and_true]
    by_cases full : advance current table matched byte = current.length
    · rw [if_pos full, full]
      apply ih second
      rw [full] at next
      apply LongestOverlap.fall next.1.2
      apply filled current.length _ le_rfl
      exact (Nat.zero_le matched).trans_lt longest.1.1
    · rw [if_neg full]
      apply ih second
      apply next.lower _ (Nat.le_succ _)
      exact Nat.lt_of_le_of_ne (Nat.le_of_lt_succ next.1.1) full

theorem suffixPrefixOverlap_longest (previous current : List U8) :
    LongestOverlap current previous (current.length + 1)
      (suffixPrefixOverlap previous current) := by
  rw [suffixPrefixOverlap]
  split
  · rename_i empty
    refine ⟨⟨Nat.succ_pos _, overlap_zero⟩, fun candidate within => ?_⟩
    have short := within.2.length_le
    have fits := within.2.1
    rcases empty with rfl | rfl
    · exact short
    · exact fits
  · rename_i some
    rw [not_or] at some
    obtain ⟨byte, rest, rfl⟩ := List.exists_cons_of_ne_nil some.1
    have positive := List.length_pos_of_ne_nil some.2
    have start : LongestOverlap current [] current.length 0 :=
      ⟨⟨positive, overlap_zero⟩, fun candidate within => within.2.length_le⟩
    have scanned := scan_overlap (prefixTable_filled current) byte rest start
    rw [List.nil_append] at scanned
    exact scanned

end Overlap

example : suffixPrefixOverlap [97, 98, 99, 97, 98] [97, 98, 97, 98] = 2 := by decide

end Minemu.Tui
