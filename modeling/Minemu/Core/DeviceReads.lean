import Minemu.Core.Bus
import Minemu.Core.ClaimProtocol
import Minemu.Core.RngRuns

/-! Reads of device registers and what they change: received bytes are taken, interrupts are
claimed, random numbers are drawn. -/

namespace Minemu.Core

open Library Platform

namespace Uart

variable {uart : Uart}

/-- Reading an empty queue takes nothing and signals a low level. -/
theorem readRx_empty (empty : uart.rx = []) :
    uart.readRx.2 = (uart, [⟨uart.interruptSource, false⟩]) := by
  obtain ⟨rx, tx, rxCapacity, txCapacity, enabled, source⟩ := uart
  cases empty
  simp only [readRx, signal, irqPending, List.drop_nil, List.isEmpty_nil, Bool.not_true,
    Bool.and_false]

theorem length_readRx {byte : U8} {rest : List U8} (received : uart.rx = byte :: rest) :
    uart.readRx.2.1.rx.length < uart.rx.length := by
  simp only [readRx, received, List.drop_succ_cons, List.drop_zero, List.length_cons,
    Nat.lt_succ_self]

end Uart

namespace MmioBus

variable {bus : MmioBus} {register : MmioRegister}

/-- The bus after a read access to one register. -/
def afterRead (bus : MmioBus) (register : MmioRegister) : MmioBus :=
  (bus.readRegister register).2.processSignals

/-- A read that leaves every register as it was. -/
def Harmless (bus : MmioBus) (register : MmioRegister) : Prop :=
  bus.afterRead register = bus.processSignals

/-- A port with no byte to take, and no interrupt of it pending that its empty queue would clear. -/
def Quiet (bus : MmioBus) (uart : Uart) : Prop :=
  uart.rx = [] ∧ bus.interrupts.processSignals.pending &&& uart.interruptSource.bit = 0#32

/-- The register gives away nothing: a port is quiet, no interrupt is left to claim, or the
generator stands at zero, which it does in no reachable state. -/
def Spent (bus : MmioBus) : MmioRegister → Prop
  | .uart0 .receiveData => bus.Quiet bus.uart0
  | .uart1 .receiveData => bus.Quiet bus.uart1
  | .interrupt .claim =>
    bus.interrupts.claim ≠ none ∨ ∀ source, ¬ bus.interrupts.Claimable source
  | .rng .data => bus.rng.state = 0#32
  | _ => True

/-- Sending to a drained controller and draining again is draining all at once. -/
theorem processSignals_send (bus : MmioBus) (signals : List InterruptSignal) :
    (bus.processSignals.send signals).processSignals = (bus.send signals).processSignals := by
  simp only [processSignals, send, InterruptController.processSignals, InterruptController.send,
    List.nil_append, List.foldl_append]

theorem processSignals_send_one (bus : MmioBus) (signal : InterruptSignal) :
    (bus.send [signal]).processSignals = { bus.processSignals with
      interrupts := { bus.processSignals.interrupts with
        pending := InterruptController.applySignal bus.processSignals.interrupts.pending
          signal } } := by
  simp only [processSignals, send, InterruptController.processSignals, InterruptController.send,
    List.foldl_append, List.foldl_cons, List.foldl_nil]

theorem processSignals_send_nil (bus : MmioBus) :
    (bus.send []).processSignals = bus.processSignals := by
  simp only [processSignals, send, InterruptController.processSignals, InterruptController.send,
    List.append_nil]

/-- What a read does depends on the drained bus only. -/
theorem afterRead_processSignals (bus : MmioBus) (register : MmioRegister) :
    bus.processSignals.afterRead register = bus.afterRead register := by
  cases register with
  | interrupt register => cases register <;> rfl
  | sysTick register => rfl
  | dma register => rfl
  | rng register => rfl
  | uart0 register =>
    cases register with
    | receiveData =>
      exact processSignals_send { bus with uart0 := bus.uart0.readRx.2.1 } bus.uart0.readRx.2.2
    | status | control | transmitData =>
      exact processSignals_send bus []
  | uart1 register =>
    cases register with
    | receiveData =>
      exact processSignals_send { bus with uart1 := bus.uart1.readRx.2.1 } bus.uart1.readRx.2.2
    | status | control | transmitData =>
      exact processSignals_send bus []
  | trace register => rfl

/-! ### Reads only take -/

/-- The drained bus without its random numbers. -/
def exceptRng (bus : MmioBus) : MmioBus := { bus.processSignals with rng := .new }

/-- What is left to take: received bytes, an open claim, and PENDING bits below them. -/
def readRank (bus : MmioBus) : Nat :=
  (bus.uart0.rx.length + bus.uart1.rx.length + bus.interrupts.claim.isNone.toNat) * 2 ^ 32 +
    bus.interrupts.pending.toNat

/-- The PENDING bits after a UART has signalled. -/
theorem pending_clear (pending : U32) (source : Source) :
    InterruptController.applySignal pending ⟨source, false⟩ = pending ∨
      (InterruptController.applySignal pending ⟨source, false⟩).toNat < pending.toNat := by
  have smaller : (pending &&& ~~~source.bit).toNat ≤ pending.toNat := by
    rw [BitVec.toNat_and]
    exact Nat.and_le_left
  by_cases same : pending &&& ~~~source.bit = pending
  · exact .inl same
  · right
    refine lt_of_le_of_ne smaller fun equal => same (BitVec.eq_of_toNat_eq equal)

theorem exceptRng_harmless (harmless : bus.Harmless register) :
    (bus.afterRead register).exceptRng = bus.exceptRng := by
  rw [harmless]
  rfl

/-- A read that changes only PENDING, and only by clearing one bit of it. -/
theorem falls_cleared {after : MmioBus} {source : Source}
    (cleared : after.exceptRng = { bus.exceptRng with
      interrupts := { bus.exceptRng.interrupts with
        pending := InterruptController.applySignal bus.exceptRng.interrupts.pending
          ⟨source, false⟩ } }) :
    after.exceptRng = bus.exceptRng ∨ readRank after.exceptRng < readRank bus.exceptRng := by
  rw [cleared]
  rcases pending_clear bus.exceptRng.interrupts.pending source with same | lower
  · left
    rw [same]
  · right
    unfold readRank
    simp only
    omega

/-- A read that takes something lowers the rank whatever it does to PENDING. -/
theorem readRank_taken {first second : MmioBus}
    (taken : second.uart0.rx.length + second.uart1.rx.length +
      second.interrupts.claim.isNone.toNat <
        first.uart0.rx.length + first.uart1.rx.length + first.interrupts.claim.isNone.toNat) :
    readRank second < readRank first := by
  have bounded := second.interrupts.pending.isLt
  unfold readRank
  omega

/-- A read leaves everything but the random numbers as it was, or there is less left to take. -/
theorem falls (bus : MmioBus) (register : MmioRegister) :
    (bus.afterRead register).exceptRng = bus.exceptRng ∨
      readRank (bus.afterRead register).exceptRng < readRank bus.exceptRng := by
  cases register with
  | interrupt register =>
    cases register with
    | claim =>
      cases claim : bus.interrupts.processSignals.claim with
      | some source =>
        left
        simp only [afterRead, readRegister, InterruptController.read,
          InterruptController.claimSource, claim]
        rfl
      | none =>
        cases selected : bus.interrupts.processSignals.select
          bus.interrupts.processSignals.candidates with
        | none =>
          left
          simp only [afterRead, readRegister, InterruptController.read,
            InterruptController.claimSource, claim, selected]
          rw [← claim]
          rfl
        | some source =>
          right
          apply readRank_taken
          simp only [afterRead, readRegister, InterruptController.read,
            InterruptController.claimSource, claim, selected]
          change _ + 0 < bus.uart0.rx.length + bus.uart1.rx.length +
            bus.interrupts.processSignals.claim.isNone.toNat
          rw [claim]
          exact Nat.lt_succ_self _
    | pending | enable | eoi | prioritySysTick | priorityUart0 | priorityUart1 | priorityBlock =>
      exact .inl rfl
  | sysTick register => exact .inl rfl
  | dma register => exact .inl rfl
  | rng register => cases register <;> exact .inl rfl
  | uart0 register =>
    cases register with
    | receiveData =>
      cases received : bus.uart0.rx with
      | nil =>
        have read := Uart.readRx_empty received
        apply falls_cleared
        simp only [afterRead, readRegister, Uart.read, read, processSignals_send_one]
        rfl
      | cons byte rest =>
        have taken := Uart.length_readRx received
        right
        apply readRank_taken
        change bus.uart0.readRx.2.1.rx.length + bus.uart1.rx.length + _ <
          bus.uart0.rx.length + bus.uart1.rx.length + _
        exact Nat.add_lt_add_right (Nat.add_lt_add_right taken _) _
    | status | control | transmitData =>
      exact .inl (exceptRng_harmless (processSignals_send_nil bus))
  | uart1 register =>
    cases register with
    | receiveData =>
      cases received : bus.uart1.rx with
      | nil =>
        have read := Uart.readRx_empty received
        apply falls_cleared
        simp only [afterRead, readRegister, Uart.read, read, processSignals_send_one]
        rfl
      | cons byte rest =>
        have taken := Uart.length_readRx received
        right
        apply readRank_taken
        change bus.uart0.rx.length + bus.uart1.readRx.2.1.rx.length + _ <
          bus.uart0.rx.length + bus.uart1.rx.length + _
        exact Nat.add_lt_add_right (Nat.add_lt_add_left taken _) _
    | status | control | transmitData =>
      exact .inl (exceptRng_harmless (processSignals_send_nil bus))
  | trace register => exact .inl rfl

/-! ### Harmless reads -/

theorem applySignal_kept_iff {pending : U32} {source : Source} :
    InterruptController.applySignal pending ⟨source, false⟩ = pending ↔
      pending &&& source.bit = 0#32 := by
  change pending &&& ~~~source.bit = pending ↔ _
  constructor
  · intro kept
    rw [← kept, BitVec.and_assoc, BitVec.and_comm (~~~source.bit), BitVec.and_not_self]
    exact BitVec.and_zero
  · intro clear
    apply BitVec.eq_of_getLsbD_eq
    intro bit inside
    have low := congrArg (fun word : U32 => word.getLsbD bit) clear
    simp only [BitVec.getLsbD_and, BitVec.getLsbD_zero] at low
    rw [BitVec.getLsbD_and, BitVec.getLsbD_not, decide_eq_true inside, Bool.true_and]
    cases set : pending.getLsbD bit with
    | false => rfl
    | true =>
      rw [set, Bool.true_and] at low
      rw [low]
      rfl

/-- A claim is harmless when there is one already, or nothing to claim. -/
theorem claimSource_kept_iff {controller : InterruptController} :
    controller.claimSource.2 = controller.processSignals ↔
      controller.claim ≠ none ∨ ∀ source, ¬ controller.Claimable source := by
  cases held : controller.claim with
  | some source =>
    have kept : controller.processSignals.claim = some source := held
    simp [InterruptController.claimSource, kept]
  | none =>
    have kept : controller.processSignals.claim = none := held
    have selected := (InterruptController.claim_selected held).1
    rw [← selected]
    simp only [ne_eq, not_true_eq_false, false_or]
    constructor
    · intro same
      rw [← InterruptController.claimSource_claim, same, kept]
    · intro nothing
      have none : controller.processSignals.select controller.processSignals.candidates = none := by
        simpa only [InterruptController.claimSource, kept] using nothing
      simp only [InterruptController.claimSource, kept, none]
      rw [← kept]

theorem processSignals_claimSource (controller : InterruptController) :
    controller.claimSource.2.processSignals = controller.claimSource.2 := by
  unfold InterruptController.claimSource
  simp only
  split
  · rfl
  · rfl

/-- Two drained buses that differ in PENDING at most are one if PENDING is the same. -/
theorem pending_congr (pending : U32) : ({ bus.processSignals with
      interrupts := { bus.processSignals.interrupts with pending } } : MmioBus) =
        bus.processSignals ↔ pending = bus.interrupts.processSignals.pending := by
  constructor
  · exact congrArg fun bus : MmioBus => bus.interrupts.pending
  · intro same
    rw [same]
    rfl

/-- A read is harmless exactly when the register gives away nothing. -/
theorem harmless_iff_spent : bus.Harmless register ↔ bus.Spent register := by
  cases register with
  | interrupt register =>
    cases register with
    | claim =>
      rw [Spent, ← claimSource_kept_iff, ← processSignals_claimSource]
      constructor
      · exact congrArg MmioBus.interrupts
      · intro kept
        change { bus with interrupts := bus.interrupts.claimSource.2.processSignals } = _
        rw [kept]
        rfl
    | pending | enable | eoi | prioritySysTick | priorityUart0 | priorityUart1 | priorityBlock =>
      exact iff_of_true rfl trivial
  | sysTick register => exact iff_of_true rfl trivial
  | dma register => exact iff_of_true rfl trivial
  | rng register =>
    cases register with
    | data =>
      rw [Spent, ← Rng.dataStep_fixed_iff]
      constructor
      · exact congrArg fun bus : MmioBus => bus.rng.state
      · intro fixed
        change { bus.processSignals with rng := { bus.rng with state := Rng.dataStep bus.rng.state } } =
          bus.processSignals
        rw [fixed]
        rfl
    | seed | state => exact iff_of_true rfl trivial
  | uart0 register =>
    cases register with
    | receiveData =>
      cases received : bus.uart0.rx with
      | nil =>
        have read := Uart.readRx_empty received
        rw [Spent, Quiet, and_iff_right received, ← applySignal_kept_iff, ← pending_congr]
        simp only [Harmless, afterRead, readRegister, Uart.read, read, processSignals_send_one]
        rfl
      | cons byte rest =>
        have taken := Uart.length_readRx received
        refine iff_of_false (fun harmless => ?_) fun quiet => ?_
        · have same := congrArg (fun bus : MmioBus => bus.uart0.rx.length) harmless
          exact absurd same taken.ne
        · exact absurd (received.symm.trans quiet.1) (List.cons_ne_nil byte rest)
    | status | control | transmitData =>
      exact iff_of_true (processSignals_send_nil bus) trivial
  | uart1 register =>
    cases register with
    | receiveData =>
      cases received : bus.uart1.rx with
      | nil =>
        have read := Uart.readRx_empty received
        rw [Spent, Quiet, and_iff_right received, ← applySignal_kept_iff, ← pending_congr]
        simp only [Harmless, afterRead, readRegister, Uart.read, read, processSignals_send_one]
        rfl
      | cons byte rest =>
        have taken := Uart.length_readRx received
        refine iff_of_false (fun harmless => ?_) fun quiet => ?_
        · have same := congrArg (fun bus : MmioBus => bus.uart1.rx.length) harmless
          exact absurd same taken.ne
        · exact absurd (received.symm.trans quiet.1) (List.cons_ne_nil byte rest)
    | status | control | transmitData =>
      exact iff_of_true (processSignals_send_nil bus) trivial
  | trace register => exact iff_of_true rfl trivial

/-! ### Reads of several registers -/

/-- A read is harmless when it keeps the random numbers and everything else. -/
theorem harmless_iff : bus.Harmless register ↔
    (bus.afterRead register).exceptRng = bus.exceptRng ∧
      (bus.afterRead register).rng = bus.rng := by
  constructor
  · intro harmless
    have rng : (bus.afterRead register).rng = bus.processSignals.rng := by rw [harmless]
    exact ⟨exceptRng_harmless harmless, rng⟩
  · rintro ⟨others, rng⟩
    have whole : { (bus.afterRead register).exceptRng with rng := (bus.afterRead register).rng } =
        { bus.exceptRng with rng := bus.rng } := by rw [others, rng]
    exact whole

theorem exceptRng_afterRead (bus : MmioBus) (register : MmioRegister) :
    (bus.exceptRng.afterRead register).exceptRng = (bus.afterRead register).exceptRng := by
  rw [← afterRead_processSignals bus register]
  cases register with
  | rng register => cases register <;> rfl
  | interrupt register | sysTick register | dma register | uart0 register | uart1 register
  | trace register => rfl

/-- Only a read of its data register changes the generator. -/
theorem rng_afterRead (bus : MmioBus) (register : MmioRegister) :
    (bus.afterRead register).rng =
      if register = .rng .data then bus.rng.nextU32.2 else bus.rng := by
  cases register with
  | rng register => cases register <;> rfl
  | interrupt register | sysTick register | dma register | uart0 register | uart1 register
  | trace register => rfl

theorem rng_run (bus : MmioBus) {registers : List MmioRegister} (once : registers.Nodup) :
    (run afterRead bus registers).rng =
      if .rng .data ∈ registers then bus.rng.nextU32.2 else bus.rng := by
  induction registers generalizing bus with
  | nil => rfl
  | cons register registers ih =>
    obtain ⟨fresh, once⟩ := List.nodup_cons.mp once
    rw [run_cons, ih (bus.afterRead register) once, rng_afterRead]
    by_cases drawn : register = .rng .data
    · subst drawn
      simp only [fresh, ↓reduceIte, List.mem_cons, true_or]
    · have other : ¬ (MmioRegister.rng .data = register) := fun same => drawn same.symm
      simp only [drawn, ↓reduceIte, List.mem_cons, other, false_or]

/-- Reads that leave everything but the random numbers as it was do so one by one. -/
theorem kept_of_throughout {registers : List MmioRegister}
    (kept : Throughout afterRead
      (fun bus register => (bus.afterRead register).exceptRng = bus.exceptRng) bus registers) :
    ∀ register ∈ registers, (bus.afterRead register).exceptRng = bus.exceptRng := by
  induction registers generalizing bus with
  | nil => simp
  | cons first registers ih =>
    obtain ⟨head, tail⟩ := kept
    intro register member
    rcases List.mem_cons.mp member with rfl | later
    · exact head
    · have next := ih tail register later
      calc (bus.afterRead register).exceptRng
          = (bus.exceptRng.afterRead register).exceptRng := (exceptRng_afterRead bus register).symm
        _ = ((bus.afterRead first).exceptRng.afterRead register).exceptRng := by rw [head]
        _ = ((bus.afterRead first).afterRead register).exceptRng := exceptRng_afterRead _ register
        _ = bus.exceptRng := next.trans head

/-- Reads of distinct registers leave the registers as they were exactly when each of them
would. -/
theorem reads_harmless_iff {registers : List MmioRegister} (once : registers.Nodup) :
    (run afterRead bus registers).processSignals = bus.processSignals ↔
      ∀ register ∈ registers, bus.Harmless register := by
  constructor
  · intro same
    have rng : (run afterRead bus registers).processSignals.rng = bus.processSignals.rng := by
      rw [same]
    have others : (run afterRead bus registers).exceptRng = bus.exceptRng :=
      congrArg (fun drained : MmioBus => { drained with rng := .new }) same
    have kept := kept_of_throughout (throughout_of_ratchet falls bus registers others)
    intro register member
    refine harmless_iff.mpr ⟨kept register member, ?_⟩
    change (run afterRead bus registers).rng = bus.rng at rng
    rw [rng_run bus once] at rng
    rw [rng_afterRead]
    split
    · rename_i drawn
      rwa [if_pos (drawn ▸ member)] at rng
    · rfl
  · intro harmless
    induction registers generalizing bus with
    | nil => rfl
    | cons register registers ih =>
      have first : bus.afterRead register = bus.processSignals := harmless register (.head _)
      rw [run_cons, first]
      refine ih once.of_cons fun other member => ?_
      have second := harmless other (.tail _ member)
      rw [Harmless, afterRead_processSignals]
      exact second

end MmioBus

end Minemu.Core
