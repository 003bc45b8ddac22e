import Minemu.Core.InterruptLevels

/-! Settled buses: what a bus is once its controller has drained its queue. Every
access and every tick of a coherent bus ends in one. -/

namespace Minemu.Core

open Library Platform InterruptLevels

namespace InterruptController

/-- The PENDING bits of the sources whose level is set. -/
def levelBits (level : Source → Bool) : U32 :=
  (if level .sysTick then 1#32 else 0) ||| (if level .uart0 then 2#32 else 0) |||
    (if level .uart1 then 4#32 else 0) ||| (if level .block then 8#32 else 0)

/-- The controller with an empty queue and these levels. -/
def settle (controller : InterruptController) (level : Source → Bool) : InterruptController :=
  { controller with
    receiver := []
    pending := (controller.pending &&& ~~~0xf#32) ||| levelBits level }

theorem levelBits_masked (level : Source → Bool) : levelBits level &&& ~~~0xf#32 = 0#32 := by
  unfold levelBits
  cases level .sysTick <;> cases level .uart0 <;> cases level .uart1 <;> cases level .block <;>
    decide

@[simp] theorem settle_settle (controller : InterruptController) (first second : Source → Bool) :
    (controller.settle first).settle second = controller.settle second := by
  simp only [settle, BitVec.and_or_distrib_right, levelBits_masked, BitVec.and_assoc,
    BitVec.and_self, BitVec.or_zero]

/-- Settling overwrites nothing but the queue and the levels. -/
theorem settle_fields (controller : InterruptController) (first second : Source → Bool)
    (enabled : U32) (priorities : Source → U8) (claim : Option Source) :
    { controller.settle first with enabled, priorities, claim }.settle second =
      { controller.settle second with enabled, priorities, claim } :=
  congrArg (fun controller : InterruptController => { controller with enabled, priorities, claim })
    (controller.settle_settle first second)

@[simp] theorem processSignals_settle (controller : InterruptController) (level : Source → Bool) :
    (controller.settle level).processSignals = controller.settle level := rfl

theorem pendingBit_settle (controller : InterruptController) (level : Source → Bool) :
    pendingBit (controller.settle level).pending = level := by
  funext source
  cases source <;>
    simp only [pendingBit, settle, Source.id, BitVec.getLsbD_or, BitVec.getLsbD_and, levelBits] <;>
    cases level .sysTick <;> cases level .uart0 <;> cases level .uart1 <;> cases level .block <;>
    simp

/-- Signals reach the four implemented PENDING bits only. -/
theorem highBits_applySignal (pending : U32) (signal : InterruptSignal) :
    applySignal pending signal &&& ~~~0xf#32 = pending &&& ~~~0xf#32 := by
  obtain ⟨source, level⟩ := signal
  have apart : source.bit &&& ~~~0xf#32 = 0#32 := by cases source <;> decide
  have inside : ~~~source.bit &&& ~~~0xf#32 = ~~~0xf#32 := by cases source <;> decide
  cases level
  · simp only [applySignal, Bool.false_eq_true, ↓reduceIte, BitVec.and_assoc, inside]
  · simp only [applySignal, ↓reduceIte, BitVec.and_or_distrib_right, apart, BitVec.or_zero]

theorem highBits_processSignals (controller : InterruptController) :
    controller.processSignals.pending &&& ~~~0xf#32 = controller.pending &&& ~~~0xf#32 := by
  have kept (signals : List InterruptSignal) (pending : U32) :
      signals.foldl applySignal pending &&& ~~~0xf#32 = pending &&& ~~~0xf#32 := by
    induction signals generalizing pending with
    | nil => rfl
    | cons signal signals ih => rw [List.foldl_cons, ih, highBits_applySignal]
  exact kept _ _

/-- PENDING is determined by its four implemented bits and the others. -/
theorem pending_ext {first second : U32} (low : pendingBit first = pendingBit second)
    (high : first &&& ~~~0xf#32 = second &&& ~~~0xf#32) : first = second := by
  apply BitVec.eq_of_getLsbD_eq
  intro bit inside
  by_cases implemented : bit < 4
  · have levels (source : Source) := congrFun low source
    match bit, implemented with
    | 0, _ => exact levels .sysTick
    | 1, _ => exact levels .uart0
    | 2, _ => exact levels .uart1
    | 3, _ => exact levels .block
  · have same := congrArg (BitVec.getLsbD · bit) high
    have masked : (0xf#32).getLsbD bit = false := by
      rw [BitVec.getLsbD_ofNat, Nat.testBit_lt_two_pow, Bool.and_false]
      exact lt_of_lt_of_le (by norm_num : 15 < 2 ^ 4) (Nat.pow_le_pow_right (by norm_num) (by omega))
    simpa only [BitVec.getLsbD_and, BitVec.getLsbD_not, inside, masked, decide_true, Bool.not_false,
      Bool.and_true] using same

/-- What a claim of a settled controller returns and retains. -/
def claimed (controller : InterruptController) (level : Source → Bool) : Option Source :=
  match controller.claim with
  | some source => some source
  | none => controller.select (controller.settle level).candidates

theorem select_settle (controller : InterruptController) (level : Source → Bool)
    (sources : List Source) :
    (controller.settle level).select sources = controller.select sources := by
  induction sources with
  | nil => rfl
  | cons source sources ih =>
    simp only [select, ih]
    rfl

@[simp] theorem claimed_settle (controller : InterruptController) (first second : Source → Bool) :
    (controller.settle first).claimed second = controller.claimed second := by
  unfold claimed
  rw [settle_settle]
  cases active : controller.claim with
  | some source =>
    have kept : (controller.settle first).claim = some source := active
    simp only [kept]
  | none =>
    have kept : (controller.settle first).claim = none := active
    simp only [kept, select_settle]

theorem claimSource_settled {controller : InterruptController} {level : Source → Bool}
    (settled : controller.processSignals = controller.settle level) :
    controller.claimSource = (controller.claimed level,
      { controller.settle level with claim := controller.claimed level }) := by
  unfold claimSource claimed
  simp only [settled]
  cases active : controller.claim with
  | some source =>
    have kept : (controller.settle level).claim = some source := active
    simp only [kept, Prod.mk.injEq, true_and]
    rw [← kept]
  | none =>
    have kept : (controller.settle level).claim = none := active
    simp only [kept, select_settle]

end InterruptController

namespace MmioBus

/-- The bus once its controller shows every level. -/
def settled (bus : MmioBus) : MmioBus :=
  { bus with interrupts := bus.interrupts.settle bus.level }

@[simp] theorem settled_send (bus : MmioBus) (signals : List InterruptSignal) :
    (bus.send signals).settled = bus.settled := rfl

@[simp] theorem settled_settled (bus : MmioBus) : bus.settled.settled = bus.settled := by
  unfold settled
  simp only [InterruptController.settle_settle]
  rfl

/-- A settled bus is determined by its devices and by what the controller keeps besides
its levels. -/
theorem settled_ext {first second : MmioBus}
    (interrupts : ∀ level, first.interrupts.settle level = second.interrupts.settle level)
    (devices : { first with interrupts := second.interrupts } = second) :
    first.settled = second.settled := by
  have levels : first.level = second.level := by
    rw [← devices]
    rfl
  calc first.settled
      = { first with interrupts := second.interrupts.settle second.level } := by
        rw [settled, interrupts, levels]
    _ = { ({ first with interrupts := second.interrupts } : MmioBus) with
          interrupts := second.interrupts.settle second.level } := rfl
    _ = second.settled := by rw [devices]; rfl

end MmioBus

namespace InterruptLevels

variable {bus : MmioBus}

theorem Coherent.interrupts_eq (coherent : Coherent bus) :
    bus.interrupts.processSignals = bus.interrupts.settle bus.level := by
  have pending : bus.interrupts.processSignals.pending = (bus.interrupts.settle bus.level).pending := by
    apply InterruptController.pending_ext
    · rw [coherent.drained, InterruptController.pendingBit_settle]
    · rw [InterruptController.highBits_processSignals, InterruptController.settle]
      simp only [BitVec.and_or_distrib_right, InterruptController.levelBits_masked,
        BitVec.and_assoc, BitVec.and_self, BitVec.or_zero]
  calc bus.interrupts.processSignals
      = { bus.interrupts with receiver := [], pending := bus.interrupts.processSignals.pending } := rfl
    _ = bus.interrupts.settle bus.level := by rw [pending]; rfl

/-- Draining the queue of a coherent bus settles it. -/
theorem Coherent.processSignals_eq (coherent : Coherent bus) : bus.processSignals = bus.settled := by
  rw [MmioBus.processSignals, coherent.interrupts_eq]
  rfl

theorem Coherent.settled (coherent : Coherent bus) : Coherent bus.settled :=
  coherent.processSignals_eq ▸ coherent.processSignals

theorem Coherent.access_read (coherent : Coherent bus) {transaction : MmioTransaction}
    {register : MmioRegister} (now : Nat) (decoded : decodeMmio transaction = .ok register)
    (reads : transaction.access ≠ .write) :
    bus.access transaction now =
      .ok (some (bus.readRegister register).1, (bus.readRegister register).2.settled) := by
  rw [← (coherent.readRegister register).processSignals_eq]
  simp only [MmioBus.access, decoded]

theorem Coherent.access_write (coherent : Coherent bus) {after : MmioBus}
    {transaction : MmioTransaction} {register : MmioRegister} {now : Nat}
    (decoded : decodeMmio transaction = .ok register) (writes : transaction.access = .write)
    (written : bus.writeRegister register transaction.value now = .ok after) :
    bus.access transaction now = .ok (none, after.settled) := by
  rw [← (coherent.writeRegister written).processSignals_eq]
  simp only [MmioBus.access, decoded, writes, written, Except.map]

end InterruptLevels

end Minemu.Core
