import Minemu.Core.TraceHistory
import Minemu.Library.Runs
import Minemu.Tui.Console

/-! What the console shows of a guest's output when it polls the newest part of it: each byte once,
unless the output repeats itself across a poll of a full history. -/

namespace Minemu.Tui

open Platform Minemu.Core Library

def txCapacity : Nat := 8192

/-- The bytes that uses of a UART transmit. -/
def transmitted (updates : List UartUpdate) : List U8 :=
  updates.filterMap fun update => match update with
    | .write .transmitData value => some (value.setWidth 8)
    | _ => none

/-- A UART, the console's stream of it, and all that observing it has appended. -/
structure ConsoleSession where
  uart : Uart
  stream : ConsoleStream
  appended : List U8

namespace ConsoleSession

def new (interruptSource : Source) : ConsoleSession := ⟨.new 4096 txCapacity interruptSource, {}, []⟩

/-- The guest and the host use the UART, then the console observes a snapshot of it. -/
def poll (session : ConsoleSession) (updates : List UartUpdate) : ConsoleSession :=
  let uart := updates.foldl (fun uart update => (uart.update update).1) session.uart
  ⟨uart, session.stream.observe uart.inspect,
    session.appended ++ session.stream.newOutput uart.inspect⟩

/-- Between polls the UART is used, and has sent `sent` so far, of which the console has
observed the newest part. -/
structure Follows (session : ConsoleSession) (sent : List U8) : Prop where
  capacity : session.uart.txCapacity = txCapacity
  history : session.uart.tx = sent.rtake txCapacity
  observed : session.stream.observedTx = sent.rtake txCapacity
  initialized : session.stream.initialized = true
  transcript : session.stream.transcript = session.appended.rtake transcriptCapacity

/-- At no poll do the bytes sent since the poll before carry on a repetition that fills the
history. -/
def NeverRepeats (sent : List U8) : List (List U8) → Prop
  | [] => True
  | fresh :: later => ¬Repeats sent fresh txCapacity ∧ NeverRepeats (sent ++ fresh) later

end ConsoleSession

section Sending

variable {uart : Uart} {sent : List U8}

theorem transmitted_cons (update : UartUpdate) (updates : List UartUpdate) :
    transmitted (update :: updates) = transmitted [update] ++ transmitted updates := by
  rw [transmitted, transmitted, transmitted, ← List.filterMap_append, List.singleton_append]

theorem tx_update (capacity : uart.txCapacity = txCapacity)
    (history : uart.tx = sent.rtake txCapacity) (update : UartUpdate) :
    (uart.update update).1.txCapacity = txCapacity ∧
      (uart.update update).1.tx = (sent ++ transmitted [update]).rtake txCapacity := by
  cases update with
  | receive byte =>
    simp only [Uart.update, Uart.receive, transmitted, List.filterMap_cons, List.filterMap_nil,
      List.append_nil]
    split
    · exact ⟨capacity, history⟩
    · exact ⟨capacity, history⟩
  | write register value =>
    cases register with
    | transmitData =>
      have some : uart.txCapacity ≠ 0 := by
        rw [capacity]
        decide
      simp only [Uart.update, Uart.writeTx, if_neg some, transmitted, List.filterMap_cons,
        List.filterMap_nil]
      refine ⟨capacity, ?_⟩
      rw [history, capacity, pushBounded_rtake sent (by decide)]
    | receiveData | status => simpa [Uart.update, transmitted] using ⟨capacity, history⟩
    | control => simpa [Uart.update, Uart.setControl, transmitted] using ⟨capacity, history⟩

theorem tx_updates (capacity : uart.txCapacity = txCapacity)
    (history : uart.tx = sent.rtake txCapacity) (updates : List UartUpdate) :
    let after := updates.foldl (fun uart update => (uart.update update).1) uart
    after.txCapacity = txCapacity ∧ after.tx = (sent ++ transmitted updates).rtake txCapacity := by
  induction updates generalizing uart sent with
  | nil =>
    rw [transmitted, List.filterMap_nil, List.append_nil]
    exact ⟨capacity, history⟩
  | cons update updates ih =>
    obtain ⟨sized, sentOne⟩ := tx_update capacity history update
    rw [List.foldl_cons, transmitted_cons, ← List.append_assoc]
    exact ih sized sentOne

end Sending

namespace ConsoleStream

theorem transcript_append (stream : ConsoleStream) (shown bytes : List U8)
    (transcript : stream.transcript = shown.rtake transcriptCapacity) :
    (stream.append bytes).transcript = (shown ++ bytes).rtake transcriptCapacity := by
  rw [append, transcript]
  exact foldl_pushBounded_rtake shown bytes (by decide)

end ConsoleStream

namespace ConsoleSession

variable {session : ConsoleSession} {sent : List U8}

theorem follows_first (interruptSource : Source) (updates : List UartUpdate) :
    ((new interruptSource).poll updates).Follows (transmitted updates) ∧
      ((new interruptSource).poll updates).appended =
        (transmitted updates).rtake txCapacity := by
  have none : (new interruptSource).uart.tx = ([] : List U8).rtake txCapacity :=
    (List.rtake_nil _).symm
  obtain ⟨capacity, history⟩ := tx_updates rfl none updates
  rw [List.nil_append] at history
  have appended : ((new interruptSource).poll updates).appended =
      (transmitted updates).rtake txCapacity := history
  have transcript := ConsoleStream.transcript_append {} []
    ((new interruptSource).poll updates).uart.tx (List.rtake_nil _).symm
  exact ⟨⟨capacity, history, history, rfl, transcript⟩, appended⟩

/-- A poll appends the new bytes, or less when the output repeats itself. -/
theorem Follows.poll (follows : session.Follows sent) (updates : List UartUpdate)
    (brief : (transmitted updates).length ≤ txCapacity) :
    (session.poll updates).Follows (sent ++ transmitted updates) ∧
      ∃ output, (session.poll updates).appended = session.appended ++ output ∧
        (¬Repeats sent (transmitted updates) txCapacity → output = transmitted updates) ∧
        (Repeats sent (transmitted updates) txCapacity →
          output.length < (transmitted updates).length) := by
  obtain ⟨capacity, history⟩ := tx_updates follows.capacity follows.history updates
  have observing : session.stream.newOutput (session.poll updates).uart.inspect =
      ((sent ++ transmitted updates).rtake txCapacity).drop (suffixPrefixOverlap
        (sent.rtake txCapacity) ((sent ++ transmitted updates).rtake txCapacity)) := by
    simp only [ConsoleStream.newOutput, follows.initialized, Bool.not_true, Bool.false_eq_true,
      if_false, follows.observed]
    rw [← history]
    rfl
  refine ⟨⟨capacity, history, history, ?_, ?_⟩,
    session.stream.newOutput (session.poll updates).uart.inspect, rfl, ?_⟩
  · simp only [ConsoleSession.poll, ConsoleStream.observe, follows.initialized, Bool.not_true,
      Bool.false_eq_true, if_false, ConsoleStream.append]
  · have appended := session.stream.transcript_append session.appended
      (session.stream.newOutput (session.poll updates).uart.inspect) follows.transcript
    simpa only [ConsoleSession.poll, ConsoleStream.observe, follows.initialized, Bool.not_true,
      Bool.false_eq_true, if_false] using appended
  · rw [observing]
    exact drop_longest brief (suffixPrefixOverlap_longest _ _)

theorem run_polls (follows : session.Follows sent) (polls : List (List UartUpdate))
    (brief : ∀ updates ∈ polls, (transmitted updates).length < txCapacity) :
    (run poll session polls).Follows (sent ++ (polls.map transmitted).flatten) ∧
      ∃ output, (run poll session polls).appended = session.appended ++ output ∧
        output.length ≤ (polls.map transmitted).flatten.length ∧
        (output = (polls.map transmitted).flatten ↔ NeverRepeats sent (polls.map transmitted)) := by
  induction polls generalizing session sent with
  | nil =>
    refine ⟨?_, [], (List.append_nil _).symm, le_rfl, ?_⟩
    · simpa [run] using follows
    · simp [NeverRepeats]
  | cons updates polls ih =>
    rw [List.forall_mem_cons] at brief
    obtain ⟨next, first, firstAppended, all, fewer⟩ := follows.poll updates brief.1.le
    obtain ⟨final, later, laterAppended, bounded, exact⟩ := ih next brief.2
    rw [List.map_cons, List.flatten_cons, run_cons]
    have firstBounded : first.length ≤ (transmitted updates).length := by
      by_cases repeats : Repeats sent (transmitted updates) txCapacity
      · exact (fewer repeats).le
      · rw [all repeats]
    refine ⟨by rwa [← List.append_assoc], first ++ later, ?_, ?_, ?_⟩
    · rw [laterAppended, firstAppended, List.append_assoc]
    · rw [List.length_append, List.length_append]
      exact Nat.add_le_add firstBounded bounded
    · rw [NeverRepeats, ← exact]
      constructor
      · intro same
        have lengths := congrArg List.length same
        rw [List.length_append, List.length_append] at lengths
        have halves := List.append_inj same (by omega)
        refine ⟨fun repeats => ?_, halves.2⟩
        have shorter := fewer repeats
        rw [halves.1] at shorter
        exact Nat.lt_irrefl _ shorter
      · intro both
        rw [all both.1, both.2]

/-- Over every use of a UART and every pattern of polls with fewer new bytes than the history
holds, what the console appends is the first snapshot and then every byte sent after it, exactly
when the output repeats itself at no poll. The transcript is the newest part of what it appends. -/
theorem shows_each_byte_once_iff (interruptSource : Source) (first : List UartUpdate)
    (polls : List (List UartUpdate))
    (brief : ∀ updates ∈ polls, (transmitted updates).length < txCapacity) :
    let session := run poll (new interruptSource) (first :: polls)
    session.stream.transcript = session.appended.rtake transcriptCapacity ∧
      (session.appended =
          (transmitted first).rtake txCapacity ++ (polls.map transmitted).flatten ↔
        NeverRepeats (transmitted first) (polls.map transmitted)) := by
  obtain ⟨start, begins⟩ := follows_first interruptSource first
  obtain ⟨final, output, appended, _, exact⟩ := run_polls start polls brief
  rw [begins] at appended
  refine ⟨final.transcript, ?_⟩
  rw [run_cons, appended, List.append_cancel_left_eq]
  exact exact

theorem shows_each_byte_once_prompt :
    (run poll (new .uart0) [[.write .transmitData 62], [.write .transmitData 104]]).appended =
      [62, 104] := by
  have brief : ∀ updates ∈ [[UartUpdate.write .transmitData 104]],
      (transmitted updates).length < txCapacity := by decide
  apply (shows_each_byte_once_iff .uart0 [.write .transmitData 62] _ brief).2.mpr
  refine ⟨fun repeats => ?_, trivial⟩
  obtain ⟨period, positive, short, full, _⟩ := repeats
  simp [transmitted, txCapacity] at full
  omega

/-- The history is full of one byte and the guest sends it again: nothing is appended. -/
theorem repeated_byte_lost :
    (run poll (new .uart0) [.replicate 8192 (.write .transmitData 97),
      [.write .transmitData 97]]).appended ≠
        (transmitted (.replicate 8192 (.write .transmitData 97))).rtake txCapacity ++ [97] := by
  have sent (count : Nat) : transmitted (.replicate count (.write .transmitData 97)) =
      .replicate count 97 := by
    rw [transmitted, List.filterMap_replicate]
    rfl
  obtain ⟨start, begins⟩ := follows_first .uart0 (.replicate 8192 (.write .transmitData 97))
  obtain ⟨_, output, appended, _, fewer⟩ := start.poll [.write .transmitData 97] (by decide)
  have repeats : Repeats (transmitted (.replicate 8192 (.write .transmitData 97)))
      (transmitted [.write .transmitData 97]) txCapacity := by
    have whole : (List.replicate 8192 (97 : U8)) ++ [97] = .replicate 8193 97 :=
      List.replicate_succ'.symm
    refine ⟨1, Nat.one_pos, le_rfl, ?_, fun index _ early => ?_⟩
    · rw [sent, List.length_append, List.length_replicate]
      decide
    · rw [sent, List.length_replicate] at early
      have last : transmitted [.write .transmitData 97] = [97] := rfl
      rw [sent, last, whole, List.getElem?_replicate_of_lt (by omega),
        List.getElem?_replicate_of_lt (by omega)]
  intro once
  have lengths := congrArg List.length once
  have none : output.length < 1 := fewer repeats
  rw [run_cons, run_cons, run_nil, appended, begins, List.length_append, List.length_append,
    List.length_singleton] at lengths
  omega

end ConsoleSession

end Minemu.Tui
