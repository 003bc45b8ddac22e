import Minemu.Core.Elapse
import Minemu.Core.Machine

/-! An access that does not notice the ticks still to come gives the same value and
the same bus before and after each of them. -/

namespace Minemu.Core

open Platform InterruptLevels

namespace MmioBus

/-- The bus with its timed devices brought to `now`. -/
def elapse (bus : MmioBus) (now : Nat) (memory : PhysicalMemory) : MmioBus :=
  { bus with
    systick := bus.systick.advanceTo now
    block := (bus.block.advanceTo now memory).1 }

/-- Whether every interrupt level stays as it is until `limit`. -/
def levelsKept (bus : MmioBus) (limit : Nat) : Bool :=
  bus.systick.levelKept limit && bus.block.levelKept limit

/-- Whether a read gives what it would give at any time up to `limit`. -/
def readsCurrent (bus : MmioBus) (limit : Nat) : MmioRegister → Bool
  | .interrupt .pending => bus.levelsKept limit
  | .interrupt .claim => bus.interrupts.claim.isSome || bus.levelsKept limit
  | .sysTick register => bus.systick.readsCurrent limit register
  | .dma register => bus.block.readsCurrent limit register
  | _ => true

/-- Whether a write does what it would do at any time up to `limit`. An EVENT write
never does: the tick it is recorded with is the next one that is applied. -/
def writesCurrent (bus : MmioBus) (limit : Nat) (register : MmioRegister) (value : U32) : Bool :=
  match register with
  | .sysTick register => bus.systick.writesCurrent limit register value
  | .dma register => bus.block.writesCurrent limit register
  | .trace _ => false
  | _ => true

/-- Whether an access does what it would do at any time up to `limit`. -/
def accessCurrent (bus : MmioBus) (limit : Nat) (transaction : MmioTransaction) : Bool :=
  match decodeMmio transaction with
  | .error _ => true
  | .ok register =>
    if transaction.access = .write then bus.writesCurrent limit register transaction.value
    else bus.readsCurrent limit register

variable {bus : MmioBus} {now limit : Nat} {memory : PhysicalMemory}

/-- While no request is due, time neither reads nor writes RAM. -/
theorem advanceTo_quiet (bus : MmioBus) (quiet : bus.block.quiet limit = true)
    (within : now ≤ limit) (memory other : PhysicalMemory) :
    (bus.advanceTo now memory).2 = memory ∧
      (bus.advanceTo now memory).1 = (bus.advanceTo now other).1 := by
  have timed : (bus.updateSysTick (.advanceTo now)).block.quiet limit = true := quiet
  simp only [advanceTo, BlockDevice.advanceTo_quiet memory timed within,
    BlockDevice.advanceTo_quiet other timed within, and_self]

theorem settled_elapse (bus : MmioBus) (now : Nat) (memory : PhysicalMemory) :
    (bus.settled.elapse now memory).settled = (bus.elapse now memory).settled := by
  unfold settled elapse
  simp only [InterruptController.settle_settle]
  rfl

theorem level_elapse (memory : PhysicalMemory) (kept : bus.levelsKept limit = true)
    (within : now ≤ limit) :
    (bus.elapse now memory).level = bus.level := by
  simp only [levelsKept, Bool.and_eq_true] at kept
  funext source
  cases source with
  | sysTick => exact SysTick.irqPending_advanceTo kept.1 within
  | block => exact BlockDevice.irqPending_advanceTo memory kept.2 within
  | uart0 | uart1 => rfl

theorem levelsKept_elapse (kept : bus.levelsKept limit = true) (within : now ≤ limit) :
    (bus.elapse now memory).settled.levelsKept limit = true := by
  simp only [levelsKept, Bool.and_eq_true] at kept ⊢
  exact ⟨SysTick.levelKept_advanceTo kept.1 within, BlockDevice.levelKept_advanceTo now memory kept.2⟩

theorem readsCurrent_elapse {register : MmioRegister}
    (current : bus.readsCurrent limit register = true) (within : now ≤ limit) :
    (bus.elapse now memory).settled.readsCurrent limit register = true := by
  cases register with
  | interrupt register =>
    cases register with
    | pending => exact levelsKept_elapse current within
    | claim =>
      simp only [readsCurrent, Bool.or_eq_true] at current ⊢
      rcases current with active | kept
      · exact .inl active
      · exact .inr (levelsKept_elapse kept within)
    | _ => rfl
  | sysTick register => exact SysTick.readsCurrent_advanceTo current within
  | dma register => exact BlockDevice.readsCurrent_advanceTo memory current within
  | _ => rfl

theorem writesCurrent_elapse {register : MmioRegister} {value : U32}
    (current : bus.writesCurrent limit register value = true) (within : now ≤ limit) :
    (bus.elapse now memory).settled.writesCurrent limit register value = true := by
  cases register with
  | sysTick register => exact SysTick.writesCurrent_advanceTo current within
  | dma register => exact BlockDevice.writesCurrent_advanceTo memory current within
  | trace register => cases current
  | _ => rfl

end MmioBus

namespace InterruptLevels

variable {bus : MmioBus} {now limit : Nat} {memory : PhysicalMemory}

theorem Coherent.advanceTo_eq (coherent : Coherent bus) (now : Nat) (memory : PhysicalMemory) :
    bus.advanceTo now memory =
      ((bus.elapse now memory).settled, (bus.block.advanceTo now memory).2.1) := by
  have drained := (coherent.advancing now memory).processSignals_eq
  rw [MmioBus.settled_send] at drained
  exact Prod.ext drained rfl

/-- What a claim returns does not depend on ticks that keep the levels. -/
theorem claimed_elapse (memory : PhysicalMemory)
    (current : bus.readsCurrent limit (.interrupt .claim) = true) (within : now ≤ limit) :
    bus.interrupts.claimed (bus.elapse now memory).level = bus.interrupts.claimed bus.level := by
  simp only [MmioBus.readsCurrent, Bool.or_eq_true, Option.isSome_iff_exists] at current
  rcases current with ⟨source, active⟩ | kept
  · simp only [InterruptController.claimed, active]
  · rw [MmioBus.level_elapse memory kept within]

theorem Coherent.read_elapse (coherent : Coherent bus) (memory : PhysicalMemory)
    {register : MmioRegister}
    (current : bus.readsCurrent limit register = true) (within : now ≤ limit) :
    ((bus.elapse now memory).settled.readRegister register).1 = (bus.readRegister register).1 ∧
      ((bus.elapse now memory).settled.readRegister register).2.settled =
        ((bus.readRegister register).2.elapse now memory).settled := by
  have overwritten := bus.interrupts.settle_settle (bus.elapse now memory).level
  cases register with
  | interrupt register =>
    cases register with
    | pending =>
      have same := MmioBus.level_elapse memory current within
      have shown : (bus.interrupts.settle (bus.elapse now memory).level).pending =
          bus.interrupts.processSignals.pending := by
        rw [same, coherent.interrupts_eq]
      refine ⟨shown, ?_⟩
      simp only [MmioBus.readRegister, InterruptController.read, coherent.interrupts_eq]
      exact (MmioBus.settled_settled _).trans (MmioBus.settled_elapse bus now memory).symm
    | claim =>
      have claimed := claimed_elapse memory current within
      have before := InterruptController.claimSource_settled coherent.interrupts_eq
      have after : (bus.elapse now memory).settled.interrupts.claimSource =
          (bus.interrupts.claimed (bus.elapse now memory).level,
            { bus.interrupts.settle (bus.elapse now memory).level with
              claim := bus.interrupts.claimed (bus.elapse now memory).level }) := by
        have settled := @InterruptController.claimSource_settled
          (bus.interrupts.settle (bus.elapse now memory).level) (bus.elapse now memory).level (by simp)
        rwa [InterruptController.claimed_settle, overwritten] at settled
      simp only [MmioBus.readRegister, InterruptController.read, before, after, claimed, true_and]
      refine MmioBus.settled_ext (fun level => ?_) rfl
      have fields (first : Source → Bool) := bus.interrupts.settle_fields first level
        bus.interrupts.enabled bus.interrupts.priorities (bus.interrupts.claimed bus.level)
      exact (fields _).trans (fields _).symm
    | _ => exact ⟨rfl, MmioBus.settled_settled _⟩
  | sysTick register =>
    exact ⟨SysTick.read_advanceTo current within, MmioBus.settled_settled _⟩
  | dma register =>
    exact ⟨BlockDevice.read_advanceTo memory current within, MmioBus.settled_settled _⟩
  | rng register => exact ⟨rfl, MmioBus.settled_ext overwritten rfl⟩
  | uart0 register => exact ⟨rfl, MmioBus.settled_ext overwritten rfl⟩
  | uart1 register => exact ⟨rfl, MmioBus.settled_ext overwritten rfl⟩
  | trace register => exact ⟨rfl, MmioBus.settled_settled _⟩

theorem update_settle {controller after : InterruptController} {update : InterruptUpdate}
    (level : Source → Bool) (updated : controller.update update = .ok after) :
    ∃ later, (controller.settle level).update update = .ok later ∧
      ∀ shown, later.settle shown = after.settle shown := by
  have fields := controller.settle_fields level
  obtain ⟨register, value⟩ := update
  cases register with
  | eoi =>
    simp only [InterruptController.update, InterruptController.eoi] at updated ⊢
    have kept : (controller.settle level).claim = controller.claim := rfl
    rw [kept]
    split at updated
    · cases updated
    · split at updated
      · cases updated
      · rename_i other
        cases updated
        exact ⟨_, if_neg other, fun shown => fields shown _ _ none⟩
  | pending | claim =>
    cases updated
    exact ⟨_, rfl, fun shown => controller.settle_settle level shown⟩
  | enable =>
    cases updated
    exact ⟨_, rfl, fun shown => fields shown _ controller.priorities controller.claim⟩
  | prioritySysTick | priorityUart0 | priorityUart1 | priorityBlock =>
    cases updated
    exact ⟨_, rfl, fun shown => fields shown controller.enabled _ controller.claim⟩

theorem write_elapse (memory : PhysicalMemory) {after : MmioBus} {register : MmioRegister} {value : U32}
    (current : bus.writesCurrent limit register value = true) (within : now + 1 ≤ limit)
    (written : bus.writeRegister register value now = .ok after) :
    (∃ later, (bus.elapse (now + 1) memory).settled.writeRegister register value (now + 1) =
        .ok later ∧ later.settled = (after.elapse (now + 1) memory).settled) ∧
      (bus.block.advanceTo (now + 1) memory).2.1 = (after.block.advanceTo (now + 1) memory).2.1 := by
  have overwritten := bus.interrupts.settle_settle (bus.elapse (now + 1) memory).level
  cases register with
  | interrupt register =>
    simp only [MmioBus.writeRegister, MmioBus.updateInterrupts] at written ⊢
    cases updated : bus.interrupts.update (.write register value) with
    | error error => simp [updated, Except.map] at written
    | ok interrupts =>
      rw [updated] at written
      cases written
      obtain ⟨later, accepted, same⟩ := update_settle (bus.elapse (now + 1) memory).level updated
      refine ⟨⟨{ (bus.elapse (now + 1) memory).settled with interrupts := later }, ?_,
        MmioBus.settled_ext same rfl⟩, rfl⟩
      exact congrArg (Except.map _) accepted
  | sysTick register =>
    cases written
    have timer := SysTick.write_advanceTo current within
    refine ⟨⟨_, rfl, MmioBus.settled_ext overwritten ?_⟩, rfl⟩
    exact congrArg (fun systick => { bus.elapse (now + 1) memory with
      systick
      interrupts := ((bus.updateSysTick (.write register value now)).elapse (now + 1)
        memory).interrupts }) timer
  | dma register =>
    cases written
    obtain ⟨device, same⟩ := BlockDevice.write_advanceTo value memory current within
    refine ⟨⟨_, rfl, MmioBus.settled_ext overwritten ?_⟩, same⟩
    exact congrArg (fun block => { bus.elapse (now + 1) memory with
      block
      interrupts := (bus.send [(bus.block.writeRegister register value now).signal]).interrupts })
      device
  | rng register => cases written; exact ⟨⟨_, rfl, MmioBus.settled_ext overwritten rfl⟩, rfl⟩
  | uart0 register => cases written; exact ⟨⟨_, rfl, MmioBus.settled_ext overwritten rfl⟩, rfl⟩
  | uart1 register => cases written; exact ⟨⟨_, rfl, MmioBus.settled_ext overwritten rfl⟩, rfl⟩
  | trace register => cases current

/-- An accepted access that notices no tick up to `limit` gives the same value after the
next tick, and the same bus and RAM whichever of the two comes first. -/
theorem Coherent.access_advanceTo (coherent : Coherent bus) (memory : PhysicalMemory)
    {after : MmioBus} {transaction : MmioTransaction} {value : Option U32}
    (accepted : bus.access transaction now = .ok (value, after))
    (current : bus.accessCurrent limit transaction = true) (within : now + 1 ≤ limit) :
    (bus.advanceTo (now + 1) memory).1.access transaction (now + 1) =
        .ok (value, (after.advanceTo (now + 1) memory).1) ∧
      (bus.advanceTo (now + 1) memory).2 = (after.advanceTo (now + 1) memory).2 := by
  have timed := coherent.advanceTo (now + 1) memory
  rw [(coherent.access accepted).advanceTo_eq]
  rw [coherent.advanceTo_eq] at timed ⊢
  unfold MmioBus.accessCurrent at current
  cases decoded : decodeMmio transaction with
  | error error => simp [MmioBus.access, decoded] at accepted
  | ok register =>
    simp only [decoded] at current
    by_cases writes : transaction.access = .write
    · rw [if_pos writes] at current
      cases written : bus.writeRegister register transaction.value now with
      | error error => simp [MmioBus.access, decoded, writes, written, Except.map] at accepted
      | ok raw =>
        rw [coherent.access_write decoded writes written] at accepted
        cases accepted
        obtain ⟨⟨later, again, same⟩, memories⟩ := write_elapse memory current within
          written
        rw [timed.access_write decoded writes again, same, MmioBus.settled_elapse]
        exact ⟨rfl, memories⟩
    · rw [if_neg writes] at current
      rw [coherent.access_read now decoded writes] at accepted
      cases accepted
      obtain ⟨values, buses⟩ := coherent.read_elapse memory current within
      rw [timed.access_read (now + 1) decoded writes, values, buses, MmioBus.settled_elapse]
      exact ⟨rfl, congrArg (fun block => (BlockDevice.advanceTo block (now + 1) memory).2.1)
        (bus.block_readRegister register).symm⟩

theorem Coherent.accessCurrent_advanceTo (coherent : Coherent bus) (memory : PhysicalMemory)
    {transaction : MmioTransaction}
    (current : bus.accessCurrent limit transaction = true) (within : now ≤ limit) :
    (bus.advanceTo now memory).1.accessCurrent limit transaction = true := by
  rw [coherent.advanceTo_eq]
  unfold MmioBus.accessCurrent at current ⊢
  split at current
  · rfl
  · rename_i register decoded
    by_cases writes : transaction.access = .write
    · rw [if_pos writes] at current ⊢
      exact MmioBus.writesCurrent_elapse current within
    · rw [if_neg writes] at current ⊢
      exact MmioBus.readsCurrent_elapse current within

end InterruptLevels

namespace MmioBus

variable {bus after : MmioBus} {now limit : Nat}

theorem readRegister_trace (bus : MmioBus) (register : MmioRegister) (trace : TraceDevice) :
    { bus with trace }.readRegister register =
      ((bus.readRegister register).1, { (bus.readRegister register).2 with trace }) := by
  cases register <;> rfl

theorem trace_readRegister (bus : MmioBus) (register : MmioRegister) :
    (bus.readRegister register).2.trace = bus.trace := by
  cases register <;> rfl

theorem writeRegister_trace {register : MmioRegister} {value : U32}
    (current : bus.writesCurrent limit register value = true)
    (written : bus.writeRegister register value now = .ok after) :
    after.trace = bus.trace ∧ ∀ trace,
      { bus with trace }.writeRegister register value now = .ok { after with trace } := by
  cases register with
  | interrupt register =>
    simp only [writeRegister, updateInterrupts] at written ⊢
    cases updated : bus.interrupts.update (.write register value) with
    | error error => simp [updated, Except.map] at written
    | ok interrupts =>
      rw [updated] at written
      cases written
      exact ⟨rfl, fun _ => rfl⟩
  | trace register => cases current
  | _ => cases written; exact ⟨rfl, fun _ => rfl⟩

/-- No access but an EVENT write reaches the trace device. -/
theorem access_trace {transaction : MmioTransaction} {value : Option U32}
    (current : bus.accessCurrent limit transaction = true)
    (accepted : bus.access transaction now = .ok (value, after)) :
    after.trace = bus.trace ∧ ∀ trace,
      { bus with trace }.access transaction now = .ok (value, { after with trace }) := by
  unfold accessCurrent at current
  cases decoded : decodeMmio transaction with
  | error error => simp [access, decoded] at accepted
  | ok register =>
    simp only [decoded] at current
    by_cases writes : transaction.access = .write
    · rw [if_pos writes] at current
      cases written : bus.writeRegister register transaction.value now with
      | error error => simp [access, decoded, writes, written, Except.map] at accepted
      | ok raw =>
        obtain ⟨kept, framed⟩ := writeRegister_trace current written
        simp only [access, decoded, writes, written, Except.map] at accepted
        cases accepted
        refine ⟨kept, fun trace => ?_⟩
        simp only [access, decoded, writes, framed trace, Except.map]
        rfl
    · simp only [access, decoded] at accepted
      cases accepted
      refine ⟨bus.trace_readRegister register, fun trace => ?_⟩
      simp only [access, decoded, readRegister_trace]
      rfl

end MmioBus

namespace Machine

/-- The machine after one completed instruction. -/
def completed (machine : Machine) : Machine := (machine.finishInstruction .completed).2

/-- What recording these trace events makes of the history. -/
def recordTraces (capacity : Nat) (events : List ObservableEvent) (committed : List TraceEvent) :
    List ObservableEvent :=
  committed.foldl (fun events event =>
    if capacity = 0 then events else pushBounded events capacity (.trace event)) events

theorem retireTraces_eq (machine : Machine) :
    machine.retireTraces = { machine with
      bus := { machine.bus with trace := (machine.bus.trace.retire machine.ticks).2 }
      events := recordTraces machine.eventCapacity machine.events
        (machine.bus.trace.retire machine.ticks).1 } := by
  have recorded (event : TraceEvent) (machine : Machine) :
      machine.recordEvent (.trace event) = { machine with
        events := if machine.eventCapacity = 0 then machine.events
          else pushBounded machine.events machine.eventCapacity (.trace event) } := by
    unfold recordEvent
    split <;> rfl
  have folded (committed : List TraceEvent) (machine : Machine) :
      committed.foldl (fun machine event => machine.recordEvent (.trace event)) machine =
        { machine with events := recordTraces machine.eventCapacity machine.events committed } := by
    induction committed generalizing machine with
    | nil => rfl
    | cons event committed ih =>
      rw [List.foldl_cons, ih, recorded]
      rfl
  exact folded _ _

end Machine

end Minemu.Core
