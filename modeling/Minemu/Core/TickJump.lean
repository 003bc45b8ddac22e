import Minemu.Core.InterruptLevels
import Minemu.Core.Settled
import Minemu.Library.Runs

/-! One jump over many ticks does what the ticks do one by one. -/

namespace Minemu.Core

open Library Platform InterruptLevels

namespace SysTick

variable {timer : SysTick} {period deadline now later : Nat}

/-- The catch-up loop stops at the first deadline of its phase that is in the future. -/
theorem catchUp_least (positive : 0 < period) (due : deadline ≤ now) :
    IsLeast {tick | now < tick ∧ tick ≡ deadline [MOD period]}
      (catchUp period now (now + 1 - deadline) deadline) := by
  obtain ⟨future, near, turns, landed⟩ := catchUp_spec positive (le_refl (now + 1 - deadline))
  have phase : catchUp period now (now + 1 - deadline) deadline ≡ deadline [MOD period] := by
    rw [landed]
    exact (Nat.modEq_iff_dvd' (Nat.le_add_right _ _)).mpr
      (by rw [Nat.add_sub_cancel_left]; exact dvd_mul_left _ _) |>.symm
  refine ⟨⟨future, phase⟩, ?_⟩
  rintro tick ⟨above, same⟩
  -- a smaller one would be a whole period below, at or before `now`
  by_contra smaller
  have gap := (Nat.modEq_iff_dvd' (not_le.mp smaller).le).mp (same.trans phase.symm)
  have step := Nat.le_of_dvd (by omega) gap
  have close := near due
  omega

/-- What is behind a deadline of the same phase is behind the deadline itself. -/
theorem catchUp_catchUp (positive : 0 < period) (due : deadline ≤ now)
    (again : catchUp period now (now + 1 - deadline) deadline ≤ later) :
    catchUp period later (later + 1 - catchUp period now (now + 1 - deadline) deadline)
        (catchUp period now (now + 1 - deadline) deadline) =
      catchUp period later (later + 1 - deadline) deadline := by
  obtain ⟨⟨future, phase⟩, _⟩ := catchUp_least positive due
  have first := catchUp_least positive again
  have whole : IsLeast {tick | later < tick ∧ tick ≡ deadline [MOD period]}
      (catchUp period later (later + 1 - deadline) deadline) :=
    catchUp_least positive (by omega)
  have same : {tick | later < tick ∧
      tick ≡ catchUp period now (now + 1 - deadline) deadline [MOD period]} =
        {tick | later < tick ∧ tick ≡ deadline [MOD period]} := by
    ext tick
    exact and_congr_right fun _ => ⟨fun near => near.trans phase, fun near => near.trans phase.symm⟩
  rw [same] at first
  exact first.unique whole

theorem advanceTo_advanceTo (timer : SysTick) (early : now ≤ later) :
    (timer.advanceTo now).advanceTo later = timer.advanceTo later := by
  cases scheduled : timer.nextDeadline with
  | none =>
    have idle (now : Nat) : timer.advanceTo now = timer := by simp only [advanceTo, scheduled]
    rw [idle, idle]
  | some deadline =>
    by_cases ahead : now < deadline
    · have idle : timer.advanceTo now = timer := by simp only [advanceTo, scheduled, if_pos ahead]
      rw [idle]
    · have due : deadline ≤ now := not_lt.mp ahead
      have overdue : ¬ later < deadline := by omega
      by_cases periodic : timer.periodic = true ∧ timer.period ≠ 0#32
      · have positive : 0 < timer.period.toNat := by
          refine Nat.pos_of_ne_zero fun zero => periodic.2 ?_
          exact BitVec.eq_of_toNat_eq zero
        have fired (now : Nat) (due : ¬ now < deadline) : timer.advanceTo now = { timer with
            pending := true
            nextDeadline := some
              (catchUp timer.period.toNat now (now + 1 - deadline) deadline) } := by
          simp only [advanceTo, scheduled, if_neg due, if_pos periodic]
        rw [fired now ahead, fired later overdue]
        by_cases future :
            later < catchUp timer.period.toNat now (now + 1 - deadline) deadline
        · -- no further deadline falls in between
          have least := catchUp_least positive due
          have same := catchUp_least positive (le_trans due early)
          have equal : catchUp timer.period.toNat now (now + 1 - deadline) deadline =
              catchUp timer.period.toNat later (later + 1 - deadline) deadline :=
            le_antisymm (least.2 ⟨early.trans_lt same.1.1, same.1.2⟩)
              (same.2 ⟨future, least.1.2⟩)
          simp only [advanceTo, equal, if_pos same.1.1]
        · have again := catchUp_catchUp positive due (not_lt.mp future)
          simp only [advanceTo, if_neg future, if_pos periodic, again]
      · have fired (now : Nat) (due : ¬ now < deadline) : timer.advanceTo now =
            { timer with pending := true, enabled := false, nextDeadline := none } := by
          simp only [advanceTo, scheduled, if_neg due, if_neg periodic]
        rw [fired now ahead, fired later overdue]
        rfl

end SysTick

namespace BlockDevice

variable {now later : Nat}

/-- What two steps of the device do, one does: the completion is signalled in one of them. -/
theorem advanceTo_advanceTo (device : BlockDevice) (memory : PhysicalMemory) (early : now ≤ later) :
    let (first, between, signals) := device.advanceTo now memory
    let (second, after, signals') := first.advanceTo later between
    device.advanceTo later memory = (second, after, signals ++ signals') := by
  cases requested : device.active with
  | none =>
    have idle (now : Nat) (memory : PhysicalMemory) :
        device.advanceTo now memory = (device, memory, []) := by
      simp only [advanceTo, requested]
    simp only [idle, List.append_nil]
  | some request =>
    by_cases ahead : now < request.deadline
    · have idle : device.advanceTo now memory = (device, memory, []) := by
        simp only [advanceTo, requested, if_pos ahead]
      simp only [idle, List.nil_append]
    · have overdue : ¬ later < request.deadline := by omega
      simp only [advanceTo, requested, if_neg ahead, if_neg overdue, List.append_nil]

theorem signals_advanceTo (device : BlockDevice) (now : Nat) (memory : PhysicalMemory) :
    ∀ signal ∈ (device.advanceTo now memory).2.2, signal.source = .block := by
  intro signal member
  unfold advanceTo at member
  split at member
  · cases member
  · split at member
    · cases member
    · cases List.mem_singleton.mp member
      rfl

end BlockDevice

namespace InterruptController

variable {pending : U32}

/-- Two queues that show the same levels leave the same PENDING bits. -/
theorem foldl_applySignal_eq {first second : List InterruptSignal}
    (same : ∀ board, drain board (first.map message) = drain board (second.map message)) :
    first.foldl applySignal pending = second.foldl applySignal pending := by
  apply pending_ext
  · rw [pendingBit_foldl, pendingBit_foldl, same]
  · have high (signals : List InterruptSignal) :
        signals.foldl applySignal pending &&& ~~~0xf#32 = pending &&& ~~~0xf#32 :=
      highBits_processSignals { new with receiver := signals, pending }
    rw [high, high]

end InterruptController

namespace MmioBus

variable {now later : Nat}

/-- What advancing changes: the two devices that keep time, RAM, and the PENDING bits. -/
theorem advanceTo_eq (bus : MmioBus) (now : Nat) (memory : PhysicalMemory) :
    bus.advanceTo now memory = ({ bus with
      systick := bus.systick.advanceTo now
      block := (bus.block.advanceTo now memory).1
      interrupts := { bus.interrupts with
        receiver := []
        pending := ((bus.interrupts.receiver ++ [(bus.systick.advanceTo now).signal]) ++
          (bus.block.advanceTo now memory).2.2).foldl InterruptController.applySignal
            bus.interrupts.pending } },
      (bus.block.advanceTo now memory).2.1) := rfl

/-- A jump absorbs an earlier step. -/
theorem advanceTo_advanceTo (bus : MmioBus) (memory : PhysicalMemory) (early : now ≤ later) :
    (bus.advanceTo now memory).1.advanceTo later (bus.advanceTo now memory).2 =
      bus.advanceTo later memory := by
  have timer := bus.systick.advanceTo_advanceTo early
  have device := bus.block.advanceTo_advanceTo memory early
  have completions := bus.block.signals_advanceTo now memory
  rw [advanceTo_eq, advanceTo_eq bus now, advanceTo_eq bus later]
  generalize bus.block.advanceTo now memory = first at device completions ⊢
  obtain ⟨block, between, signals⟩ := first
  simp only at device completions ⊢
  generalize block.advanceTo later between = second at device ⊢
  obtain ⟨block', after, signals'⟩ := second
  simp only at device ⊢
  have pending : (([] ++ [(bus.systick.advanceTo later).signal]) ++ signals').foldl
        InterruptController.applySignal
        (((bus.interrupts.receiver ++ [(bus.systick.advanceTo now).signal]) ++ signals).foldl
          InterruptController.applySignal bus.interrupts.pending) =
      ((bus.interrupts.receiver ++ [(bus.systick.advanceTo later).signal]) ++
        (signals ++ signals')).foldl InterruptController.applySignal bus.interrupts.pending := by
    rw [← List.foldl_append]
    apply InterruptController.foldl_applySignal_eq
    intro board
    have apart : ∀ note ∈ signals.map message, note.1 ≠ Source.sysTick := by
      intro note member
      obtain ⟨signal, inside, rfl⟩ := List.mem_map.mp member
      rw [message, completions signal inside]
      exact Source.noConfusion
    -- the first announcement of the timer is overtaken by the second
    have overtaken := drain_overtaken (drain board (bus.interrupts.receiver.map message))
      Source.sysTick (bus.systick.advanceTo now).irqPending
      (bus.systick.advanceTo later).irqPending apart (signals'.map message)
    simpa only [drain, List.map_append, List.map_cons, List.map_nil, message, SysTick.signal,
      List.nil_append, List.cons_append, List.append_assoc, List.foldl_append] using overtaken
  simp only [timer, device, pending]

/-- The calls that advance a bus to each of these ticks in order. -/
def advanceEach (bus : MmioBus) (memory : PhysicalMemory) (ticks : List Nat) :
    MmioBus × PhysicalMemory :=
  run (fun state now => state.1.advanceTo now state.2) (bus, memory) ticks

/-- One call that advances to `b` leaves what the calls for all ticks after `a` up to `b` leave, and
a periodic deadline that is due moves to the first one of its phase after `b`. -/
theorem jump_is_stepping (bus : MmioBus) (memory : PhysicalMemory) {a b : Nat} (later : a < b) :
    bus.advanceTo b memory = bus.advanceEach memory (List.range' (a + 1) (b - a)) ∧
      ∀ deadline, bus.systick.nextDeadline = some deadline → deadline ≤ b →
        bus.systick.periodic = true → bus.systick.period ≠ 0#32 →
        ∃ next, (bus.advanceTo b memory).1.systick.nextDeadline = some next ∧
          next ≤ b + bus.systick.period.toNat ∧
          IsLeast {tick | b < tick ∧ tick ≡ deadline [MOD bus.systick.period.toNat]} next := by
  constructor
  · have absorbs (state : MmioBus × PhysicalMemory) (now later : Nat) (early : now ≤ later) :=
      state.1.advanceTo_advanceTo state.2 early
    obtain ⟨count, rfl⟩ : ∃ count, b = a + 1 + count := ⟨b - (a + 1), by omega⟩
    have steps : a + 1 + count - a = count + 1 := by omega
    rw [steps, advanceEach, run_range' absorbs]
  · intro deadline scheduled due periodic nonzero
    have positive : 0 < bus.systick.period.toNat := by
      refine Nat.pos_of_ne_zero fun zero => nonzero ?_
      exact BitVec.eq_of_toNat_eq zero
    refine ⟨_, ?_, (SysTick.catchUp_spec positive le_rfl).2.1 due,
      SysTick.catchUp_least positive due⟩
    rw [advanceTo_eq]
    simp only [SysTick.advanceTo, scheduled, if_neg (not_lt.mpr due), periodic, nonzero, ne_eq,
      not_false_eq_true, and_self, ↓reduceIte]

theorem jump_is_stepping_new :
    let bus : MmioBus := { MmioBus.new with
      systick := ⟨2#32, true, true, true, false, some 1⟩ }
    bus.advanceTo 4 .empty = bus.advanceEach .empty [1, 2, 3, 4] ∧
      ∃ next, (bus.advanceTo 4 .empty).1.systick.nextDeadline = some next ∧
        next ≤ 6 ∧ IsLeast {tick | 4 < tick ∧ tick ≡ 1 [MOD 2]} next := by
  intro bus
  have both := jump_is_stepping bus .empty (show 0 < 4 by decide)
  exact ⟨both.1, both.2 1 rfl (by decide) rfl (by decide)⟩

end MmioBus

end Minemu.Core
