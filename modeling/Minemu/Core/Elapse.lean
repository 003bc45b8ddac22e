import Minemu.Core.Settled

/-! Which accesses do not notice ticks that have not been applied yet. -/

namespace Minemu.Core

open Platform InterruptLevels

namespace SysTick

variable (timer : SysTick)

/-- No deadline falls at or before `limit`. -/
def quiet (timer : SysTick) (limit : Nat) : Bool :=
  timer.nextDeadline.all fun deadline => limit < deadline

/-- Whether the interrupt level stays as it is until `limit`. -/
def levelKept (timer : SysTick) (limit : Nat) : Bool :=
  timer.quiet limit || !timer.irqEnabled || timer.pending

/-- Whether a CONTROL write schedules a deadline from the time it is made. -/
def arms (timer : SysTick) (control : U32) : Bool :=
  decide (control &&& 1#32 != 0#32 ∧ (!timer.enabled ∨ timer.nextDeadline.isNone) ∧
    timer.period ≠ 0#32)

/-- Whether a CONTROL write leaves a periodic timer running as it is. -/
def keepsRunning (timer : SysTick) (control : U32) : Bool :=
  timer.enabled && timer.periodic && timer.period != 0#32 && control &&& 1#32 != 0#32 &&
    control &&& 2#32 != 0#32

/-- Whether a read sees what it would see at any time up to `limit`. -/
def readsCurrent (timer : SysTick) (limit : Nat) : SysTickRegister → Bool
  | .status => timer.quiet limit || timer.pending
  | .control => timer.quiet limit || (timer.periodic && timer.period != 0#32)
  | .period | .ack => true

/-- Whether a write does what it would do at any time up to `limit`. -/
def writesCurrent (timer : SysTick) (limit : Nat) (register : SysTickRegister) (value : U32) :
    Bool :=
  match register with
  | .period => timer.quiet limit && !timer.enabled
  | .control => !timer.arms value && (timer.quiet limit || timer.keepsRunning value)
  | .ack => timer.quiet limit
  | .status => true

variable {timer} {now limit : Nat}

theorem advanceTo_quiet (quiet : timer.quiet limit = true) (within : now ≤ limit) :
    timer.advanceTo now = timer := by
  unfold advanceTo
  unfold SysTick.quiet at quiet
  cases scheduled : timer.nextDeadline with
  | none => rfl
  | some deadline =>
    simp only [scheduled, Option.all_some, decide_eq_true_eq] at quiet
    simp only [if_pos (show now < deadline by omega)]

/-- What a timer can do when time passes. -/
theorem advanceTo_cases (timer : SysTick) (now : Nat) :
    timer.advanceTo now = timer ∨
    (timer.periodic = true ∧ timer.period ≠ 0#32 ∧ ∃ deadline,
      timer.advanceTo now = { timer with pending := true, nextDeadline := some deadline }) ∨
    ((timer.periodic = true → timer.period = 0#32) ∧
      timer.advanceTo now =
        { timer with pending := true, enabled := false, nextDeadline := none }) := by
  unfold advanceTo
  split
  · exact .inl rfl
  · split
    · exact .inl rfl
    · split
      · rename_i periodic
        exact .inr (.inl ⟨periodic.1, periodic.2, _, rfl⟩)
      · rename_i single
        exact .inr (.inr ⟨fun periodic => by_contra fun nonzero => single ⟨periodic, nonzero⟩, rfl⟩)

theorem irqPending_advanceTo (kept : timer.levelKept limit = true) (within : now ≤ limit) :
    (timer.advanceTo now).irqPending = timer.irqPending := by
  simp only [levelKept, Bool.or_eq_true, Bool.not_eq_true'] at kept
  rcases kept with (quiet | disabled) | pending
  · rw [advanceTo_quiet quiet within]
  · rcases timer.advanceTo_cases now with same | ⟨_, _, _, fired⟩ | ⟨_, fired⟩
    · rw [same]
    · simp [fired, irqPending, disabled]
    · simp [fired, irqPending, disabled]
  · rcases timer.advanceTo_cases now with same | ⟨_, _, _, fired⟩ | ⟨_, fired⟩
    · rw [same]
    · simp [fired, irqPending, pending]
    · simp [fired, irqPending, pending]

theorem levelKept_advanceTo (kept : timer.levelKept limit = true) (within : now ≤ limit) :
    (timer.advanceTo now).levelKept limit = true := by
  have original := kept
  simp only [levelKept, Bool.or_eq_true, Bool.not_eq_true'] at kept ⊢
  rcases kept with (quiet | disabled) | pending
  · exact .inl (.inl (by rwa [advanceTo_quiet quiet within]))
  · rcases timer.advanceTo_cases now with same | ⟨_, _, _, fired⟩ | ⟨_, fired⟩
    · exact .inl (.inr (by rw [same, disabled]))
    · exact .inl (.inr (by rw [fired, disabled]))
    · exact .inl (.inr (by rw [fired, disabled]))
  · rcases timer.advanceTo_cases now with same | ⟨_, _, _, fired⟩ | ⟨_, fired⟩
    · exact .inr (by rw [same, pending])
    · exact .inr (by rw [fired])
    · exact .inr (by rw [fired])

theorem read_advanceTo {register : SysTickRegister}
    (current : timer.readsCurrent limit register = true) (within : now ≤ limit) :
    (timer.advanceTo now).read register = timer.read register := by
  cases register with
  | period =>
    rcases timer.advanceTo_cases now with same | ⟨_, _, _, fired⟩ | ⟨_, fired⟩
    · rw [same]
    · rw [fired]; rfl
    · rw [fired]; rfl
  | ack => rfl
  | status =>
    simp only [readsCurrent, Bool.or_eq_true] at current
    rcases current with quiet | pending
    · rw [advanceTo_quiet quiet within]
    · rcases timer.advanceTo_cases now with same | ⟨_, _, _, fired⟩ | ⟨_, fired⟩
      · rw [same]
      · simp [fired, read, status, pending]
      · simp [fired, read, status, pending]
  | control =>
    simp only [readsCurrent, Bool.or_eq_true, Bool.and_eq_true, bne_iff_ne] at current
    rcases current with quiet | ⟨periodic, nonzero⟩
    · rw [advanceTo_quiet quiet within]
    · rcases timer.advanceTo_cases now with same | ⟨_, _, _, fired⟩ | ⟨single, _⟩
      · rw [same]
      · rw [fired]; rfl
      · exact absurd (single periodic) nonzero

theorem readsCurrent_advanceTo {register : SysTickRegister}
    (current : timer.readsCurrent limit register = true) (within : now ≤ limit) :
    (timer.advanceTo now).readsCurrent limit register = true := by
  cases register with
  | period | ack => rfl
  | status =>
    simp only [readsCurrent, Bool.or_eq_true] at current ⊢
    rcases current with quiet | pending
    · exact .inl (by rwa [advanceTo_quiet quiet within])
    · rcases timer.advanceTo_cases now with same | ⟨_, _, _, fired⟩ | ⟨_, fired⟩
      · exact .inr (by rw [same, pending])
      · exact .inr (by rw [fired])
      · exact .inr (by rw [fired])
  | control =>
    simp only [readsCurrent, Bool.or_eq_true, Bool.and_eq_true, bne_iff_ne] at current ⊢
    rcases current with quiet | ⟨periodic, nonzero⟩
    · exact .inl (by rwa [advanceTo_quiet quiet within])
    · rcases timer.advanceTo_cases now with same | ⟨_, _, _, fired⟩ | ⟨single, _⟩
      · exact .inr (by rw [same]; exact ⟨periodic, nonzero⟩)
      · exact .inr (by rw [fired]; exact ⟨periodic, nonzero⟩)
      · exact absurd (single periodic) nonzero

theorem keepsRunning_iff (timer : SysTick) (control : U32) :
    timer.keepsRunning control = true ↔ timer.enabled = true ∧ timer.periodic = true ∧
      timer.period ≠ 0#32 ∧ control &&& 1#32 ≠ 0#32 ∧ control &&& 2#32 ≠ 0#32 := by
  simp only [keepsRunning, Bool.and_eq_true, bne_iff_ne, and_assoc]

/-- A CONTROL write that does not arm the timer does not depend on the time. -/
theorem setControl_cold {control : U32} (cold : timer.arms control = false) (now : Nat) :
    timer.setControl control now = { timer with
      enabled := control &&& 1#32 != 0#32
      periodic := control &&& 2#32 != 0#32
      irqEnabled := control &&& 4#32 != 0#32
      nextDeadline := if control &&& 1#32 != 0#32 then timer.nextDeadline else none } := by
  simp only [setControl, if_neg (of_decide_eq_false cold)]

theorem quiet_setControl {control : U32} (cold : timer.arms control = false)
    (quiet : timer.quiet limit = true) : (timer.setControl control now).quiet limit = true := by
  rw [setControl_cold cold]
  unfold SysTick.quiet
  split
  · exact quiet
  · rfl

/-- A periodic timer that is due fires the same way before and after a write that keeps
it running. -/
theorem setControl_fired {control : U32} (cold : timer.arms control = false)
    (keeps : timer.keepsRunning control = true) (due : timer.quiet now = false) (issued : Nat) :
    (timer.advanceTo now).setControl control now =
      (timer.setControl control issued).advanceTo now := by
  obtain ⟨running, periodic, nonzero, enabled, again⟩ := (timer.keepsRunning_iff control).mp keeps
  rw [setControl_cold cold]
  cases scheduled : timer.nextDeadline with
  | none => simp [SysTick.quiet, scheduled] at due
  | some deadline =>
    simp only [SysTick.quiet, scheduled, Option.all_some, decide_eq_false_iff_not] at due
    simp [advanceTo, setControl, scheduled, due, running, periodic, nonzero, enabled, again]

theorem write_advanceTo {register : SysTickRegister} {value : U32}
    (current : timer.writesCurrent limit register value = true) (within : now + 1 ≤ limit) :
    ((timer.advanceTo (now + 1)).update (.write register value (now + 1))).1 =
      (timer.update (.write register value now)).1.advanceTo (now + 1) := by
  cases register with
  | status => rfl
  | ack =>
    have later : timer.ack.quiet limit = true := current
    rw [advanceTo_quiet current within]
    exact (advanceTo_quiet later within).symm
  | period =>
    simp only [writesCurrent, Bool.and_eq_true, Bool.not_eq_true'] at current
    obtain ⟨quiet, stopped⟩ := current
    have later : (timer.setPeriod value now).quiet limit = true := by
      simpa only [setPeriod, stopped, Bool.false_eq_true, ↓reduceIte, SysTick.quiet] using quiet
    rw [advanceTo_quiet quiet within, update, update, advanceTo_quiet later within]
    simp only [setPeriod, stopped, Bool.false_eq_true, ↓reduceIte]
  | control =>
    simp only [writesCurrent, Bool.and_eq_true, Bool.or_eq_true, Bool.not_eq_true'] at current
    obtain ⟨cold, settled⟩ := current
    simp only [update]
    cases due : timer.quiet (now + 1) with
    | true =>
      rw [advanceTo_quiet due le_rfl, advanceTo_quiet (quiet_setControl cold due) le_rfl,
        setControl_cold cold, setControl_cold cold]
    | false =>
      rcases settled with quiet | keeps
      · rw [advanceTo_quiet quiet within, advanceTo_quiet (quiet_setControl cold quiet) within,
          setControl_cold cold, setControl_cold cold]
      · exact setControl_fired cold keeps due now

theorem writesCurrent_advanceTo {register : SysTickRegister} {value : U32}
    (current : timer.writesCurrent limit register value = true) (within : now ≤ limit) :
    (timer.advanceTo now).writesCurrent limit register value = true := by
  have quietly (quiet : timer.quiet limit = true) :
      (timer.advanceTo now).writesCurrent limit register value = true := by
    rwa [advanceTo_quiet quiet within]
  cases register with
  | status => rfl
  | ack => exact quietly current
  | period =>
    simp only [writesCurrent, Bool.and_eq_true] at current
    exact quietly current.1
  | control =>
    have settled := current
    simp only [writesCurrent, Bool.and_eq_true, Bool.or_eq_true] at settled
    rcases settled.2 with quiet | keeps
    · exact quietly quiet
    · obtain ⟨running, periodic, nonzero, enabled, again⟩ := (timer.keepsRunning_iff value).mp keeps
      rcases timer.advanceTo_cases now with same | ⟨_, _, _, fired⟩ | ⟨single, _⟩
      · rwa [same]
      · simp [fired, writesCurrent, arms, keepsRunning_iff, running, periodic, nonzero, enabled,
          again]
      · exact absurd (single periodic) nonzero

end SysTick

namespace BlockDevice

variable (device : BlockDevice)

/-- No active request is due at or before `limit`. -/
def quiet (device : BlockDevice) (limit : Nat) : Bool :=
  device.active.all fun request => limit < request.deadline

/-- Whether the interrupt level stays as it is until `limit`. -/
def levelKept (device : BlockDevice) (limit : Nat) : Bool :=
  device.quiet limit || !device.completionIrqEnabled || device.complete

/-- Whether a read sees what it would see at any time up to `limit`. -/
def readsCurrent (device : BlockDevice) (limit : Nat) : BlockRegister → Bool
  | .status | .error => device.quiet limit
  | _ => true

/-- Whether a write does what it would do at any time up to `limit`. -/
def writesCurrent (device : BlockDevice) (limit : Nat) : BlockRegister → Bool
  | .command => device.active.isSome && device.quiet limit
  | .ack => device.quiet limit
  | _ => true

variable {device} {now limit : Nat}

theorem advanceTo_quiet (memory : PhysicalMemory) (quiet : device.quiet limit = true)
    (within : now ≤ limit) : device.advanceTo now memory = (device, memory, []) := by
  unfold BlockDevice.quiet at quiet
  unfold advanceTo
  cases requested : device.active with
  | none => rfl
  | some request =>
    simp only [requested, Option.all_some, decide_eq_true_eq] at quiet
    simp only [if_pos (show now < request.deadline by omega)]

/-- What a device can do when time passes. -/
theorem advanceTo_cases (device : BlockDevice) (now : Nat) (memory : PhysicalMemory) :
    (device.advanceTo now memory).1 = device ∨
    ∃ error units, (device.advanceTo now memory).1 =
      { device with active := none, error, complete := true, units } := by
  unfold advanceTo
  split
  · exact .inl rfl
  · split
    · exact .inl rfl
    · exact .inr ⟨_, _, rfl⟩

theorem irqPending_advanceTo (memory : PhysicalMemory) (kept : device.levelKept limit = true)
    (within : now ≤ limit) : (device.advanceTo now memory).1.irqPending = device.irqPending := by
  simp only [levelKept, Bool.or_eq_true, Bool.not_eq_true'] at kept
  rcases kept with (quiet | disabled) | complete
  · rw [advanceTo_quiet memory quiet within]
  · rcases device.advanceTo_cases now memory with same | ⟨_, _, done⟩
    · rw [same]
    · simp [done, irqPending, disabled]
  · rcases device.advanceTo_cases now memory with same | ⟨_, _, done⟩
    · rw [same]
    · simp [done, irqPending, complete]

theorem levelKept_advanceTo (now : Nat) (memory : PhysicalMemory)
    (kept : device.levelKept limit = true) : (device.advanceTo now memory).1.levelKept limit = true := by
  rcases device.advanceTo_cases now memory with same | ⟨_, _, done⟩
  · rwa [same]
  · simp [done, levelKept]

theorem quiet_advanceTo (memory : PhysicalMemory) (quiet : device.quiet limit = true)
    (within : now ≤ limit) : (device.advanceTo now memory).1.quiet limit = true := by
  rwa [advanceTo_quiet memory quiet within]

theorem read_advanceTo {register : BlockRegister} (memory : PhysicalMemory)
    (current : device.readsCurrent limit register = true) (within : now ≤ limit) :
    (device.advanceTo now memory).1.read register = device.read register := by
  cases register with
  | status | error => rw [advanceTo_quiet memory current within]
  | _ =>
    rcases device.advanceTo_cases now memory with same | ⟨_, _, done⟩
    · rw [same]
    · rw [done]; rfl

theorem readsCurrent_advanceTo {register : BlockRegister} (memory : PhysicalMemory)
    (current : device.readsCurrent limit register = true) (within : now ≤ limit) :
    (device.advanceTo now memory).1.readsCurrent limit register = true := by
  cases register with
  | status | error => exact quiet_advanceTo memory current within
  | _ => rfl

theorem write_advanceTo {register : BlockRegister} (value : U32) (memory : PhysicalMemory)
    (current : device.writesCurrent limit register = true) (within : now + 1 ≤ limit) :
    (device.advanceTo (now + 1) memory).1.writeRegister register value (now + 1) =
      ((device.writeRegister register value now).advanceTo (now + 1) memory).1 ∧
    (device.advanceTo (now + 1) memory).2.1 =
      ((device.writeRegister register value now).advanceTo (now + 1) memory).2.1 := by
  cases register with
  | status | error => exact ⟨rfl, rfl⟩
  | command =>
    simp only [writesCurrent, Bool.and_eq_true] at current
    obtain ⟨busy, quiet⟩ := current
    have refused (now : Nat) :
        device.command value now = { device with complete := true, error := .busy } := if_pos busy
    have later : (device.command value now).quiet limit = true := by
      rw [refused]
      exact quiet
    rw [writeRegister, writeRegister, advanceTo_quiet memory quiet within,
      advanceTo_quiet memory later within, refused, refused]
    exact ⟨rfl, rfl⟩
  | ack =>
    have later : device.ack.quiet limit = true := current
    rw [writeRegister, writeRegister, advanceTo_quiet memory current within,
      advanceTo_quiet memory later within]
    exact ⟨rfl, rfl⟩
  | lba | sectorCount | physicalAddress | control | unit =>
    -- an active request keeps its own copy of what these registers hold
    obtain ⟨_, _, _, _, _, _, _, requested, units⟩ := device
    cases requested with
    | none => exact ⟨rfl, rfl⟩
    | some request =>
      simp only [advanceTo, writeRegister, setControl]
      split
      · exact ⟨rfl, rfl⟩
      · cases execute units request memory with
        | error error => exact ⟨rfl, rfl⟩
        | ok result => exact ⟨rfl, rfl⟩

theorem writesCurrent_advanceTo {register : BlockRegister} (memory : PhysicalMemory)
    (current : device.writesCurrent limit register = true) (within : now ≤ limit) :
    (device.advanceTo now memory).1.writesCurrent limit register = true := by
  cases register with
  | command =>
    have quiet := current
    simp only [writesCurrent, Bool.and_eq_true] at quiet
    rwa [advanceTo_quiet memory quiet.2 within]
  | ack => exact quiet_advanceTo memory current within
  | _ => rfl

end BlockDevice

end Minemu.Core
