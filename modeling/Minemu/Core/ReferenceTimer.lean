import Minemu.Core.Peripherals
import Minemu.Library.Runs
import Minemu.Platform.Listing

/-! The timer SysTick is meant to be, armed for one tick at a time, and its refinement by the
device: the same expiries at the same ticks, whatever is written in between. -/

namespace Minemu.Core.ReferenceTimer

open Library Platform

/-- What the timer is told, at the current tick: a register write, or that a tick has passed. -/
inductive TimerStep where
  | write (register : SysTickRegister) (value : U32)
  | tick

/-- A write that the MMIO decoder hands to SysTick. -/
def Accepted : TimerStep → Prop
  | .write register value => ∃ transaction : MmioTransaction, transaction.access = .write ∧
      transaction.value = value ∧ decodeMmio transaction = .ok (.sysTick register)
  | .tick => True

/-! ### The reference -/

/-- A timer that is armed for at most one tick, and the ticks it has expired at. -/
structure Reference where
  now : Nat
  period : Nat
  enable : Bool
  periodic : Bool
  irqEnable : Bool
  pending : Bool
  armed : Option Nat
  expiries : List Nat

namespace Reference

def start (now : Nat) : Reference := ⟨now, 0, false, false, false, false, none, []⟩

/-- A new period arms an enabled timer from the current tick. -/
def setPeriod (timer : Reference) (period : Nat) : Reference :=
  { timer with
    period
    armed := if timer.enable then some (timer.now + period) else timer.armed }

/-- Enabling arms the timer if it has a period, disabling disarms it, and neither changes the
deadline of a timer that stays enabled. -/
def setControl (timer : Reference) (enable periodic irqEnable : Bool) : Reference :=
  { timer with
    enable
    periodic
    irqEnable
    armed :=
      match timer.enable, enable with
      | _, false => none
      | false, true => if timer.period = 0 then none else some (timer.now + timer.period)
      | true, true => timer.armed }

/-- A tick passes. Expiring sets pending; a periodic timer is armed again one period after the
deadline it expired at, any other is disarmed and disabled. -/
def tick (timer : Reference) : Reference :=
  let now := timer.now + 1
  if timer.armed = some now then
    { timer with
      now
      pending := true
      enable := timer.enable && timer.periodic
      armed := if timer.periodic then some (now + timer.period) else none
      expiries := timer.expiries ++ [now] }
  else { timer with now }

def step (timer : Reference) : TimerStep → Reference
  | .write .period value => timer.setPeriod value.toNat
  | .write .control value =>
    timer.setControl (value.getLsbD 0) (value.getLsbD 1) (value.getLsbD 2)
  | .write .ack _ => { timer with pending := false }
  | .write .status _ => timer
  | .tick => timer.tick

/-- A deadline exists exactly while the timer is enabled with a period, and lies in the future. -/
structure Scheduled (timer : Reference) : Prop where
  armed : timer.armed.isSome = true ↔ timer.enable = true ∧ timer.period ≠ 0
  future : ∀ deadline, timer.armed = some deadline → timer.now < deadline

variable {timer : Reference}

theorem scheduled_start (now : Nat) : (start now).Scheduled := by
  constructor
  · simp only [start, Option.isSome_none, Bool.false_eq_true, false_and]
  · intro deadline armed
    cases armed

theorem Scheduled.setPeriod {period : Nat} (scheduled : timer.Scheduled) (positive : period ≠ 0) :
    (timer.setPeriod period).Scheduled := by
  obtain ⟨armed, future⟩ := scheduled
  cases enable : timer.enable with
  | true =>
    constructor
    · simp [Reference.setPeriod, enable, positive]
    · intro deadline set
      simp only [Reference.setPeriod, enable, ↓reduceIte, Option.some.injEq] at set ⊢
      omega
  | false =>
    have disarmed : timer.armed = none := by simpa [enable] using armed
    constructor
    · simp [Reference.setPeriod, enable, disarmed]
    · intro deadline set
      simp [Reference.setPeriod, enable, disarmed] at set

theorem Scheduled.setControl (scheduled : timer.Scheduled) (enable periodic irqEnable : Bool) :
    (timer.setControl enable periodic irqEnable).Scheduled := by
  obtain ⟨armed, future⟩ := scheduled
  cases enable with
  | false =>
    constructor
    · simp [Reference.setControl]
    · intro deadline set
      simp [Reference.setControl] at set
  | true =>
    cases before : timer.enable with
    | true =>
      rw [before] at armed
      constructor
      · simpa only [Reference.setControl, before] using armed
      · intro deadline set
        simp only [Reference.setControl, before] at set
        exact future deadline set
    | false =>
      by_cases empty : timer.period = 0
      · constructor
        · simp [Reference.setControl, before, empty]
        · intro deadline set
          simp [Reference.setControl, before, empty] at set
      · constructor
        · simp [Reference.setControl, before, empty]
        · intro deadline set
          simp only [Reference.setControl, before, empty, ↓reduceIte, Option.some.injEq] at set ⊢
          omega

theorem Scheduled.tick (scheduled : timer.Scheduled) : timer.tick.Scheduled := by
  obtain ⟨armed, future⟩ := scheduled
  by_cases due : timer.armed = some (timer.now + 1)
  · obtain ⟨enable, positive⟩ := armed.mp (by rw [due]; rfl)
    cases periodic : timer.periodic with
    | true =>
      constructor
      · simp [Reference.tick, due, periodic, enable, positive]
      · intro deadline set
        simp only [Reference.tick, due, periodic, ↓reduceIte, Option.some.injEq] at set ⊢
        omega
    | false =>
      constructor
      · simp [Reference.tick, due, periodic]
      · intro deadline set
        simp [Reference.tick, due, periodic] at set
  · constructor
    · simpa only [Reference.tick, due, ↓reduceIte] using armed
    · intro deadline set
      simp only [Reference.tick, due, ↓reduceIte] at set ⊢
      have later := future deadline set
      have other : deadline ≠ timer.now + 1 := fun same => due (set.trans (congrArg some same))
      omega

end Reference

/-! ### The device -/

/-- The result of `advance_to`: whether any deadline has expired. -/
def expires (timer : SysTick) (now : Nat) : Bool :=
  timer.nextDeadline.any fun deadline => deadline ≤ now

/-- The device at the current tick, and the ticks it has expired at. -/
structure Device where
  now : Nat
  timer : SysTick
  expiries : List Nat

namespace Device

def start (now : Nat) : Device := ⟨now, .new, []⟩

def step (device : Device) : TimerStep → Device
  | .write register value =>
    { device with timer := (device.timer.update (.write register value device.now)).1 }
  | .tick =>
    let now := device.now + 1
    { now
      timer := (device.timer.update (.advanceTo now)).1
      expiries := if expires device.timer now then device.expiries ++ [now] else device.expiries }

/-- The device as the reference sees it. -/
def view (device : Device) : Reference where
  now := device.now
  period := device.timer.period.toNat
  enable := device.timer.enabled
  periodic := device.timer.periodic
  irqEnable := device.timer.irqEnabled
  pending := device.timer.pending
  armed := device.timer.nextDeadline
  expiries := device.expiries

/-- A deadline exists exactly while Enable is set and PERIOD is nonzero, and is later than the last
processed tick. -/
structure Scheduled (device : Device) : Prop where
  armed : device.timer.nextDeadline.isSome = true ↔
    device.timer.enabled = true ∧ device.timer.period ≠ 0#32
  future : ∀ deadline, device.timer.nextDeadline = some deadline → device.now < deadline

end Device

/-! ### The refinement -/

variable {device : Device} {register : SysTickRegister} {value : U32}

theorem accepted_period (accepted : Accepted (.write .period value)) : value ≠ 0#32 := by
  obtain ⟨transaction, write, rfl, decoded⟩ := accepted
  obtain ⟨_, _, admitted⟩ := decodeMmio_iff_listed.mp decoded
  rw [write] at admitted
  intro zero
  rw [zero] at admitted
  cases admitted

theorem bit_eq (value : U32) {index : Nat} (inside : index < 32) :
    (value &&& 1#32 <<< index != 0#32) = value.getLsbD index := by
  rw [Bool.eq_iff_iff, bne_iff_ne]
  exact and_bit_ne_zero value inside

namespace Device

theorem scheduled_view : device.view.Scheduled ↔ device.Scheduled := by
  have zero : device.timer.period.toNat = 0 ↔ device.timer.period = 0#32 :=
    BitVec.toNat_inj (y := 0#32)
  constructor
  · rintro ⟨armed, future⟩
    exact ⟨by simpa only [view, ne_eq, zero] using armed, future⟩
  · rintro ⟨armed, future⟩
    exact ⟨by simpa only [view, ne_eq, zero] using armed, future⟩

theorem view_setPeriod (timer : SysTick) (now : Nat) (expiries : List Nat) (value : U32) :
    view ⟨now, timer.setPeriod value now, expiries⟩ =
      (view ⟨now, timer, expiries⟩).setPeriod value.toNat := rfl

/-- A control write arms, disarms or keeps the deadline as the reference does: an enabled timer
without a deadline has no period. -/
theorem view_setControl (scheduled : device.Scheduled) (value : U32) :
    view { device with timer := device.timer.setControl value device.now } =
      device.view.setControl (value.getLsbD 0) (value.getLsbD 1) (value.getLsbD 2) := by
  obtain ⟨armed, future⟩ := scheduled
  obtain ⟨now, ⟨period, enabled, periodic, irqEnabled, pending, deadline⟩, expiries⟩ := device
  have enable : (value &&& 1#32 != 0#32) = value.getLsbD 0 :=
    bit_eq value (show 0 < 32 by decide)
  have repeated : (value &&& 2#32 != 0#32) = value.getLsbD 1 :=
    bit_eq value (show 1 < 32 by decide)
  have irq : (value &&& 4#32 != 0#32) = value.getLsbD 2 :=
    bit_eq value (show 2 < 32 by decide)
  have zero : period.toNat = 0 ↔ period = 0#32 := BitVec.toNat_inj (y := 0#32)
  simp only [view, SysTick.setControl, Reference.setControl, enable, repeated, irq, zero] at armed ⊢
  congr 1
  cases value.getLsbD 0 with
  | false => cases enabled <;> rfl
  | true =>
    cases enabled with
    | false =>
      have disarmed : deadline = none := by simpa using armed
      subst disarmed
      by_cases empty : period = 0#32 <;> simp [empty]
    | true =>
      cases deadline with
      | none =>
        have empty : period = 0#32 := by simpa using armed
        simp [empty]
      | some deadline => rfl

/-- So does a tick: a deadline of a timer that has processed every tick so far expires at the
next one at the earliest, and the catch-up loop then turns once. -/
theorem view_tick (scheduled : device.Scheduled) :
    (device.step .tick).view = device.view.tick := by
  obtain ⟨armed, future⟩ := scheduled
  obtain ⟨now, ⟨period, enabled, periodic, irqEnabled, pending, deadline⟩, expiries⟩ := device
  cases deadline with
  | none => rfl
  | some deadline =>
    have later : now < deadline := future deadline rfl
    have positive : period ≠ 0#32 := (armed.mp rfl).2
    by_cases due : deadline = now + 1
    · subst due
      have turns : SysTick.catchUp period.toNat (now + 1) 1 (now + 1) = now + 1 + period.toNat := by
        simp only [SysTick.catchUp, le_refl, ↓reduceIte]
      cases periodic <;>
        simp [view, step, expires, SysTick.update, SysTick.advanceTo, Reference.tick, positive, turns]
    · have early : ¬ deadline ≤ now + 1 := by omega
      have waiting : now + 1 < deadline := by omega
      simp only [view, step, expires, SysTick.update, SysTick.advanceTo, Reference.tick, Option.any_some, waiting,
        early, decide_false, Bool.false_eq_true, ↓reduceIte, Option.some.injEq, due]

theorem view_step (scheduled : device.Scheduled) (step : TimerStep) :
    (device.step step).view = device.view.step step := by
  cases step with
  | write register value =>
    cases register with
    | period => exact view_setPeriod device.timer device.now device.expiries value
    | control => exact view_setControl scheduled value
    | status | ack => rfl
  | tick => exact view_tick scheduled

end Device

theorem Reference.Scheduled.step {timer : Reference} (scheduled : timer.Scheduled)
    {step : TimerStep} (accepted : Accepted step) : (timer.step step).Scheduled := by
  cases step with
  | write register value =>
    cases register with
    | period =>
      apply scheduled.setPeriod
      intro zero
      exact accepted_period accepted (BitVec.eq_of_toNat_eq zero)
    | control => exact scheduled.setControl _ _ _
    | status => exact scheduled
    | ack => exact ⟨scheduled.armed, scheduled.future⟩
  | tick => exact scheduled.tick

/-- Every run of accepted writes and ticks takes the device through the states of the reference,
expiries included, and leaves it a deadline exactly while it is enabled with a period. -/
theorem systick_refines (now : Nat) (steps : List TimerStep)
    (accepted : ∀ step ∈ steps, Accepted step) :
    (run Device.step (.start now) steps).view = run Reference.step (.start now) steps ∧
      (run Device.step (.start now) steps).Scheduled := by
  have simulated (device : Device) (scheduled : device.view.Scheduled) (steps : List TimerStep)
      (accepted : ∀ step ∈ steps, Accepted step) :
      (run Device.step device steps).view = run Reference.step device.view steps ∧
        (run Device.step device steps).view.Scheduled := by
    induction steps generalizing device with
    | nil => exact ⟨rfl, scheduled⟩
    | cons step steps ih =>
      obtain ⟨first, rest⟩ := List.forall_mem_cons.mp accepted
      have same := Device.view_step (Device.scheduled_view.mp scheduled) step
      have next : (device.step step).view.Scheduled := same ▸ scheduled.step first
      rw [run_cons, run_cons, ← same]
      exact ih (device.step step) next rest
  obtain ⟨refined, scheduled⟩ := simulated (.start now) (Reference.scheduled_start now) steps accepted
  exact ⟨refined, Device.scheduled_view.mp scheduled⟩

/-- A period, periodic mode, one expiry, its acknowledgement and the next expiry. -/
def periodicSteps : List TimerStep :=
  [.write .period 2, .write .control 3, .tick, .tick, .write .ack 1, .tick, .tick]

theorem systick_refines_periodic :
    (run Device.step (.start 5) periodicSteps).view =
        run Reference.step (.start 5) periodicSteps ∧
      (run Device.step (.start 5) periodicSteps).Scheduled := by
  apply systick_refines
  intro step member
  simp only [periodicSteps, List.mem_cons, List.not_mem_nil, or_false] at member
  rcases member with rfl | rfl | rfl | rfl | rfl | rfl | rfl
  · exact ⟨.write ⟨0x1000_1000⟩ .u32 2, rfl, rfl, rfl⟩
  · exact ⟨.write ⟨0x1000_1004⟩ .u32 3, rfl, rfl, rfl⟩
  · trivial
  · trivial
  · exact ⟨.write ⟨0x1000_100c⟩ .u32 1, rfl, rfl, rfl⟩
  · trivial
  · trivial

example : (run Device.step (.start 5) periodicSteps).expiries = [7, 9] := by decide

end Minemu.Core.ReferenceTimer
