import Mathlib.Data.List.DropRight
import Minemu.Core.TickOrder

/-! What the trace device retains: the newest committed events. Whatever time passes on the
machine commits what is staged at its first tick. -/

namespace Minemu.Core

open Platform

/-- Pushing to the newest entries of a log gives the newest entries of the longer log. -/
theorem pushBounded_rtake (log : List α) {capacity : Nat} (positive : 0 < capacity) (value : α) :
    pushBounded (log.rtake capacity) capacity value = (log ++ [value]).rtake capacity := by
  obtain ⟨room, rfl⟩ := Nat.exists_eq_add_of_lt positive
  rw [Nat.zero_add, List.rtake_concat_succ, pushBounded]
  congr 1
  by_cases full : (log.rtake (room + 1)).length = room + 1
  · rw [if_pos full]
    rw [List.rtake, List.length_drop] at full
    rw [List.rtake, List.rtake, List.drop_drop]
    congr 1
    omega
  · rw [if_neg full]
    have short : log.length ≤ room := by
      rw [List.rtake, List.length_drop] at full
      omega
    rw [List.rtake, List.rtake, Nat.sub_eq_zero_of_le short,
      Nat.sub_eq_zero_of_le (short.trans (Nat.le_succ room))]

theorem foldl_pushBounded_rtake (log values : List α) {capacity : Nat} (positive : 0 < capacity) :
    values.foldl (fun queue value => pushBounded queue capacity value) (log.rtake capacity) =
      (log ++ values).rtake capacity := by
  induction values generalizing log with
  | nil => rw [List.foldl_nil, List.append_nil]
  | cons value values ih =>
    rw [List.foldl_cons, pushBounded_rtake log positive, ih, List.append_assoc,
      List.singleton_append]

namespace TraceDevice

variable {trace : TraceDevice} {size : Nat} {log : List TraceEvent}

/-- Nothing is staged, and the history is the newest part of the log that fits. -/
structure Retains (trace : TraceDevice) (size : Nat) (log : List TraceEvent) : Prop where
  staged : trace.staged = []
  capacity : trace.capacity = size
  events : trace.events = log.rtake size

theorem retains_new (size : Nat) : (new size).Retains size [] :=
  ⟨rfl, rfl, (List.rtake_nil _).symm⟩

@[simp] theorem capacity_retire (trace : TraceDevice) (tick : Nat) :
    (trace.retire tick).2.capacity = trace.capacity := by
  unfold retire
  split <;> rfl

@[simp] theorem staged_retire (trace : TraceDevice) (tick : Nat) :
    (trace.retire tick).2.staged = [] := by
  unfold retire
  split <;> rfl

/-- Nothing staged, nothing committed. -/
theorem retire_nothing (nothing : trace.staged = []) (tick : Nat) : (trace.retire tick).2 = trace := by
  obtain ⟨staged, events, capacity⟩ := trace
  cases nothing
  unfold retire
  split <;> rfl

/-- Retiring what was staged on a history appends it to the log, at the tick. -/
theorem retains_retire (retains : trace.Retains size log) (values : List U32) (tick : Nat) :
    ({ trace with staged := values }.retire tick).2.Retains size
      (log ++ values.map (TraceEvent.mk tick)) := by
  obtain ⟨-, rfl, events⟩ := retains
  refine ⟨staged_retire _ _, capacity_retire _ _, ?_⟩
  unfold retire
  split
  · rename_i none
    dsimp only at none ⊢
    rw [events, none, List.rtake_zero, List.rtake_zero]
  · rename_i some
    dsimp only at some ⊢
    rw [events, foldl_pushBounded_rtake log _ (Nat.pos_of_ne_zero some)]

end TraceDevice

/-- The value a transaction writes to EVENT. -/
def eventWrite (transaction : MmioTransaction) : Option U32 :=
  match transaction.access, decodeMmio transaction with
  | .write, .ok (.trace .event) => some transaction.value
  | _, _ => none

namespace MmioBus

variable {bus after : MmioBus} {transaction : MmioTransaction} {now : Nat}

/-- An accepted access stages the value it writes to EVENT, and nothing else. -/
theorem access_stages {value : Option U32}
    (accepted : bus.access transaction now = .ok (value, after)) :
    after.trace = { bus.trace with
      staged := bus.trace.staged ++ (eventWrite transaction).toList } := by
  have kept : bus.trace = { bus.trace with staged := bus.trace.staged ++ [] } := by
    rw [List.append_nil]
  unfold access at accepted
  unfold eventWrite
  cases decoded : decodeMmio transaction with
  | error error => simp only [decoded, reduceCtorEq] at accepted
  | ok register =>
    rw [decoded] at accepted
    cases direction : transaction.access with
    | write =>
      simp only [direction] at accepted
      cases written : bus.writeRegister register transaction.value now with
      | error error => simp only [written, Except.map, reduceCtorEq] at accepted
      | ok raw =>
        simp only [written, Except.map, Except.ok.injEq, Prod.mk.injEq] at accepted
        obtain ⟨-, rfl⟩ := accepted
        cases register with
        | trace register =>
          cases written
          rfl
        | interrupt register =>
          have plain : bus.writesCurrent now (.interrupt register) transaction.value = true := rfl
          exact (writeRegister_trace plain written).1.trans kept
        | _ => cases written; exact kept
    | _ =>
      simp only [direction, Except.ok.injEq, Prod.mk.injEq] at accepted
      obtain ⟨-, rfl⟩ := accepted
      exact (bus.trace_readRegister register).trans kept

/-- The bus rejects no EVENT write that decodes. -/
theorem eventWrite_rejected {error : CoreError}
    (rejected : bus.access transaction now = .error error) : eventWrite transaction = none := by
  unfold access at rejected
  unfold eventWrite
  cases decoded : decodeMmio transaction with
  | error error => cases transaction.access <;> rfl
  | ok register =>
    rw [decoded] at rejected
    cases direction : transaction.access with
    | write =>
      simp only [direction] at rejected
      cases register with
      | trace register => cases rejected
      | _ => rfl
    | _ => rfl

end MmioBus

namespace Machine

variable {before middle after : Machine}

@[simp] theorem trace_recordEvent (machine : Machine) (event : ObservableEvent) :
    (machine.recordEvent event).bus.trace = machine.bus.trace := by
  unfold recordEvent
  split <;> rfl

theorem trace_tick (machine : Machine) : machine.tick.bus.trace = machine.bus.trace := rfl

theorem trace_advanceTicks (machine : Machine) (count : Nat) :
    (machine.advanceTicks count).bus.trace =
      (machine.bus.trace.retire (machine.ticks + count)).2 := by
  have ticked (count : Nat) (machine : Machine) :
      (tick^[count] machine).bus.trace = machine.bus.trace := by
    induction count generalizing machine with
    | zero => rfl
    | succ count ih => rw [Function.iterate_succ_apply, ih, trace_tick]
  rw [advanceTicks, retireTraces_eq, ticks_iterate]
  exact congrArg (fun trace : TraceDevice => (trace.retire _).2) (ticked count machine)

/-- Time has passed from one machine to the other, and what was staged was committed at its first
tick. -/
structure Retires (before after : Machine) : Prop where
  time : before.ticks ≤ after.ticks
  trace : after.bus.trace = if after.ticks = before.ticks then before.bus.trace
    else (before.bus.trace.retire (before.ticks + 1)).2

theorem Retires.refl (machine : Machine) : Retires machine machine :=
  ⟨le_rfl, by rw [if_pos rfl]⟩

/-- No time has passed and the trace device is as it was. -/
theorem Retires.still (ticks : after.ticks = before.ticks) (trace : after.bus.trace = before.bus.trace) :
    Retires before after :=
  ⟨ticks.ge, by rw [if_pos ticks, trace]⟩

theorem Retires.trans (first : Retires before middle) (second : Retires middle after) :
    Retires before after := by
  refine ⟨first.time.trans second.time, ?_⟩
  have started := first.time
  have ended := second.time
  rw [second.trace, first.trace]
  by_cases early : middle.ticks = before.ticks
  · simp only [early, ↓reduceIte]
  · have late : after.ticks ≠ before.ticks := by omega
    rw [if_neg early, TraceDevice.retire_nothing (TraceDevice.staged_retire _ _), ite_self,
      if_neg late]

/-- One tick commits what is staged. -/
theorem retires_advanceTicks_one (machine : Machine) : Retires machine (machine.advanceTicks 1) := by
  refine ⟨by rw [ticks_advanceTicks]; omega, ?_⟩
  rw [trace_advanceTicks, ticks_advanceTicks, if_neg (by omega)]

theorem retires_recordEvent (machine : Machine) (event : ObservableEvent) :
    Retires machine (machine.recordEvent event) :=
  .still (ticks_recordEvent machine event) (trace_recordEvent machine event)

theorem retires_entry (machine : Machine) (kind : ExceptionKind) :
    Retires machine (machine.advanceTicks kind.entryTicks) := machine.retires_advanceTicks_one

theorem retires_finishInstruction (machine : Machine) (outcome : InstructionOutcome) :
    Retires machine (machine.finishInstruction outcome).2 := by
  have ticked := machine.retires_advanceTicks_one
  cases outcome with
  | completed => exact ticked
  | synchronousException kind pc =>
    simp only [finishInstruction]
    exact (ticked.trans (retires_entry _ kind)).trans (retires_recordEvent _ _)
  | fault fault pc =>
    simp only [finishInstruction]
    exact (machine.retires_entry _).trans (retires_recordEvent _ _)

theorem retires_enterException (machine : Machine) (kind : ExceptionKind) (pc : VirtualAddress) :
    Retires machine (machine.enterException kind pc).2 := by
  simp only [enterException]
  exact (machine.retires_entry kind).trans (retires_recordEvent _ _)

/-- A history stays as it is while nothing is staged. -/
theorem Retires.retains {size : Nat} {log : List TraceEvent} (retires : Retires before after)
    (retains : before.bus.trace.Retains size log) : after.bus.trace.Retains size log := by
  rw [retires.trace, TraceDevice.retire_nothing retains.staged, ite_self]
  exact retains

end Machine

end Minemu.Core
