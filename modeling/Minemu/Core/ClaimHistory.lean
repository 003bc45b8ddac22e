import Minemu.Core.ClaimProtocol
import Minemu.Core.InterruptLevels
import Minemu.Core.TickOrder
import Minemu.Platform.Listing

/-! The claim as it shows from outside the controller: which source a read of CLAIM or a delivery
handed out, and what was written to EOI since. -/

namespace Minemu.Core

open Library Platform InterruptLevels

/-- One move of the handshake that guards the claim. -/
inductive Handshake where
  | acknowledge (source : Source)
  | complete (value : U32)
deriving DecidableEq

namespace Handshake

/-- The source that is acknowledged and not completed, one move later. -/
def follow (held : Option Source) : Handshake → Option Source
  | acknowledge source => some source
  | complete value => held.filter fun source => source.id ≠ value

/-- The source a history leaves acknowledged and not completed. -/
def outstanding (history : List Handshake) : Option Source := history.foldl follow none

/-- The source a word names. -/
def named (value : U32) : Option Source := Source.all.find? fun source => source.id == value

/-- The move of whoever was handed a source. -/
def handed (source : Option Source) : List Handshake := source.toList.map acknowledge

theorem named_id (source : Option Source) :
    named (source.elim (BitVec.allOnes 32) Source.id) = source := by
  cases source with
  | none => decide
  | some source => cases source <;> decide

end Handshake

/-- The moves an access makes: a read of CLAIM that names a source, and any write to EOI. -/
def MmioBus.handshakes (bus : MmioBus) (transaction : MmioTransaction) (now : Nat) :
    List Handshake :=
  match decodeMmio transaction with
  | .ok (.interrupt .claim) =>
    Handshake.handed (((bus.access transaction now).toOption.bind Prod.fst).bind Handshake.named)
  | .ok (.interrupt .eoi) => [.complete transaction.value]
  | _ => []

/-- The moves of one operation on the bus. -/
def InterruptLevels.BusStep.handshakes (bus : MmioBus) : BusStep → List Handshake
  | .access transaction now => bus.handshakes transaction now
  | .claim => Handshake.handed bus.interrupts.claimSource.1
  | _ => []

namespace MmioBus

variable {bus after : MmioBus} {transaction : MmioTransaction} {now : Nat}

/-- Being handed a source is what a claim does. -/
theorem follow_handed (controller : InterruptController) :
    (Handshake.handed controller.claimSource.1).foldl Handshake.follow controller.claim =
      controller.claimSource.2.claim := by
  rw [InterruptController.claimSource_claim]
  cases handed : controller.claimSource.1 with
  | some source => rfl
  | none =>
    cases held : controller.claim with
    | none => rfl
    | some source =>
      rw [InterruptController.claimSource_retained held] at handed
      cases handed

/-- No register but CLAIM moves the claim when it is read. -/
theorem claim_readRegister {register : MmioRegister} (other : register ≠ .interrupt .claim) :
    (bus.readRegister register).2.interrupts.claim = bus.interrupts.claim := by
  cases register with
  | interrupt register =>
    cases register with
    | claim => exact absurd rfl other
    | pending | enable | eoi | prioritySysTick | priorityUart0 | priorityUart1 | priorityBlock => rfl
  | sysTick register | dma register | rng register | uart0 register | uart1 register
  | trace register => rfl

theorem claim_updateBlock {update : BlockUpdate} (updated : bus.updateBlock update = .ok after) :
    after.interrupts.claim = bus.interrupts.claim := by
  unfold updateBlock at updated
  cases result : bus.block.update update with
  | error error =>
    rw [result] at updated
    cases updated
  | ok result' =>
    rw [result] at updated
    cases updated
    rfl

/-- No register but EOI moves the claim when it is written. -/
theorem claim_writeRegister {register : MmioRegister} {value : U32}
    (other : register ≠ .interrupt .eoi)
    (written : bus.writeRegister register value now = .ok after) :
    after.interrupts.claim = bus.interrupts.claim := by
  cases register with
  | interrupt register =>
    simp only [writeRegister, updateInterrupts] at written
    cases updated : bus.interrupts.update (.write register value) with
    | error error =>
      rw [updated] at written
      cases written
    | ok interrupts =>
      rw [updated] at written
      cases written
      exact InterruptController.update_claim (fun same => other (congrArg _ same)) updated
  | dma register => exact claim_updateBlock written
  | sysTick register | rng register | uart0 register | uart1 register | trace register =>
    cases written
    rfl

/-- A write to EOI takes the claim away exactly when it names it. -/
theorem claim_eoi {controller : InterruptController} {value : U32} :
    ((controller.update (.write .eoi value)).toOption.getD controller).claim =
      Handshake.follow controller.claim (.complete value) := by
  cases held : controller.claim with
  | none => simp [InterruptController.update, InterruptController.eoi, held, Except.toOption,
      Handshake.follow]
  | some source =>
    by_cases same : value = source.id
    · simp [InterruptController.update, InterruptController.eoi, held, Except.toOption,
        Handshake.follow, Option.filter, same]
    · simp [InterruptController.update, InterruptController.eoi, held, Except.toOption,
        Handshake.follow, Option.filter, same, Ne.symm same]

/-- CLAIM is only read, and hands out what the controller claims. -/
theorem access_claim (decoded : decodeMmio transaction = .ok (.interrupt .claim)) :
    bus.access transaction now = .ok (some (bus.interrupts.read .claim).1,
      { bus with interrupts := bus.interrupts.claimSource.2.processSignals }) := by
  obtain ⟨_, _, admitted⟩ := decodeMmio_iff_listed.mp decoded
  unfold access
  rw [decoded]
  cases kind : transaction.access with
  | read => rfl
  | write | fetch =>
    rw [kind] at admitted
    cases admitted

/-- EOI is only written. -/
theorem access_eoi (decoded : decodeMmio transaction = .ok (.interrupt .eoi)) :
    bus.access transaction now = (bus.updateInterrupts (.write .eoi transaction.value)).map
      fun bus => (none, bus.processSignals) := by
  obtain ⟨_, _, admitted⟩ := decodeMmio_iff_listed.mp decoded
  unfold access
  rw [decoded]
  cases kind : transaction.access with
  | write => rfl
  | read | fetch =>
    rw [kind] at admitted
    cases admitted

/-- An access moves the claim as its moves of the handshake say. -/
theorem claim_access (bus : MmioBus) (transaction : MmioTransaction) (now : Nat) :
    (InterruptLevels.step bus (.access transaction now)).interrupts.claim =
      (bus.handshakes transaction now).foldl Handshake.follow bus.interrupts.claim := by
  cases decoded : decodeMmio transaction with
  | error error => simp only [InterruptLevels.step, access, handshakes, decoded, List.foldl_nil]
  | ok register =>
    by_cases claims : register = .interrupt .claim
    · subst claims
      have value : (bus.interrupts.read .claim).1 =
          bus.interrupts.claimSource.1.elim (BitVec.allOnes 32) Source.id := rfl
      simp only [InterruptLevels.step, handshakes, decoded, access_claim decoded, value,
        Except.toOption, Option.bind_some, Handshake.named_id]
      exact (follow_handed bus.interrupts).symm
    · by_cases completes : register = .interrupt .eoi
      · subst completes
        simp only [handshakes, decoded, List.foldl_cons, List.foldl_nil]
        rw [← claim_eoi]
        simp only [InterruptLevels.step, access_eoi decoded, updateInterrupts]
        cases bus.interrupts.update (.write .eoi transaction.value) with
        | error error => rfl
        | ok interrupts => rfl
      · have quiet : bus.handshakes transaction now = [] := by
          unfold handshakes
          rw [decoded]
          split
          · rename_i same
            exact absurd (Except.ok.inj same) claims
          · rename_i same
            exact absurd (Except.ok.inj same) completes
          · rfl
        rw [quiet, List.foldl_nil]
        simp only [InterruptLevels.step, access, decoded]
        cases transaction.access with
        | write =>
          cases written : bus.writeRegister register transaction.value now with
          | error error => rfl
          | ok after =>
            have kept : after.interrupts.claim = bus.interrupts.claim :=
              claim_writeRegister completes written
            exact kept
        | read | fetch => exact claim_readRegister claims

/-- Every operation on the bus moves the claim as its moves of the handshake say. -/
theorem claim_step (bus : MmioBus) (operation : BusStep) :
    (InterruptLevels.step bus operation).interrupts.claim =
      (operation.handshakes bus).foldl Handshake.follow bus.interrupts.claim := by
  cases operation with
  | access transaction now => exact bus.claim_access transaction now
  | claim => exact (follow_handed bus.interrupts).symm
  | receiveUart index byte =>
    simp only [InterruptLevels.step, receiveUart, BusStep.handshakes, List.foldl_nil]
    split
    · rfl
    · rfl
    · rfl
  | updateBlock update =>
    simp only [InterruptLevels.step, BusStep.handshakes, List.foldl_nil]
    cases updated : bus.updateBlock update with
    | error error => rfl
    | ok after => exact claim_updateBlock updated
  | advanceTo now memory | updateUart0 update | updateUart1 update | flushBlock unit outcome
  | processSignals | retireTraceEvents tick => rfl

/-- A source is claimable exactly when its line is high and it is enabled. -/
theorem claimable_iff_level (coherent : Coherent bus) {source : Source} :
    bus.interrupts.Claimable source ↔
      bus.level source = true ∧ bus.interrupts.enabled.getLsbD source.id.toNat = true := by
  have shown := congrFun coherent.drained source
  have single : source.bit = 1#32 <<< source.id.toNat := by cases source <;> decide
  have inside : source.id.toNat < 32 := by cases source <;> decide
  rw [InterruptController.Claimable, single, and_bit_ne_zero _ inside, BitVec.getLsbD_and,
    Bool.and_eq_true, ← shown]
  rfl

/-- A bus whose lines and controller agree, and whose claim is the one its history leaves. -/
structure Wired (held : Option Source) (bus : MmioBus) : Prop where
  coherent : Coherent bus
  held : bus.interrupts.claim = held

theorem wired_new : Wired none .new := ⟨coherent_new, rfl⟩

theorem Wired.step {held : Option Source} (wired : Wired held bus) (operation : BusStep) :
    Wired ((operation.handshakes bus).foldl Handshake.follow held)
      (InterruptLevels.step bus operation) :=
  ⟨coherent_step wired.coherent operation, wired.held ▸ bus.claim_step operation⟩

end MmioBus

namespace Machine

variable {machine : Machine} {held : Option Source}

/-- The same of the bus of a machine. -/
abbrev Wired (held : Option Source) (machine : Machine) : Prop := machine.bus.Wired held

theorem Wired.tick (wired : machine.Wired held) : machine.tick.Wired held :=
  MmioBus.Wired.step wired (.advanceTo (machine.ticks + 1) machine.memory)

theorem Wired.recordEvent (wired : machine.Wired held) (event : ObservableEvent) :
    (machine.recordEvent event).Wired held := by
  unfold Machine.recordEvent
  split
  · exact wired
  · exact wired

theorem Wired.advanceTicks (wired : machine.Wired held) (count : Nat) :
    (machine.advanceTicks count).Wired held := by
  have ticked : (Machine.tick^[count] machine).Wired held := by
    induction count generalizing machine with
    | zero => exact wired
    | succ count ih => exact ih wired.tick
  rw [Machine.advanceTicks, Machine.Wired, retireTraces_eq]
  exact MmioBus.Wired.step ticked (.retireTraceEvents _)

/-- Time passes and exceptions are entered without a move of the handshake. -/
theorem Wired.finishInstruction (wired : machine.Wired held) (outcome : InstructionOutcome) :
    (machine.finishInstruction outcome).2.Wired held := by
  cases outcome with
  | completed => exact wired.advanceTicks 1
  | synchronousException kind pc =>
    exact ((wired.advanceTicks 1).advanceTicks kind.entryTicks).recordEvent (.exception kind)
  | fault fault pc => exact (wired.advanceTicks _).recordEvent (.exception _)

theorem Wired.enterException (wired : machine.Wired held) (kind : ExceptionKind)
    (pc : VirtualAddress) : (machine.enterException kind pc).2.Wired held :=
  (wired.advanceTicks kind.entryTicks).recordEvent (.exception kind)

end Machine

end Minemu.Core
