import Minemu.Core.ClaimProtocol
import Minemu.Core.Settled
import Minemu.Platform.Listing

/-! MMIO accesses call by call: what `access` returns, what it leaves of the bus behind when it
refuses, and that the arms it takes for unreachable are. -/

namespace Minemu.Core

open Library Platform

/-- How a call on `&mut self` ends: with a result and whatever it has made of its device by then,
or in a panic. -/
inductive CallEnd (Device : Type u) (Value : Type v) where
  | returned (result : Except CoreError Value) (device : Device)
  | panicked

namespace InterruptController

/-- `eoi`, which clears the claim after its checks. -/
def eoiCall (controller : InterruptController) (source : U32) : CallEnd InterruptController Unit :=
  match controller.claim with
  | none => .returned (.error (.invalidEoi (BitVec.allOnes 32) source)) controller
  | some claim =>
    if source ≠ claim.id then .returned (.error (.invalidEoi claim.id source)) controller
    else .returned (.ok ()) { controller with claim := none }

def updateCall (controller : InterruptController) :
    InterruptUpdate → CallEnd InterruptController Unit
  | .write .enable value => .returned (.ok ()) (controller.setEnabled value)
  | .write .eoi value => controller.eoiCall value
  | .write .prioritySysTick value =>
    .returned (.ok ()) (controller.setPriority .sysTick (value.setWidth 8))
  | .write .priorityUart0 value =>
    .returned (.ok ()) (controller.setPriority .uart0 (value.setWidth 8))
  | .write .priorityUart1 value =>
    .returned (.ok ()) (controller.setPriority .uart1 (value.setWidth 8))
  | .write .priorityBlock value =>
    .returned (.ok ()) (controller.setPriority .block (value.setWidth 8))
  | .write _ _ => .returned (.ok ()) controller

end InterruptController

/-- `update` never fails, whatever its result type says. -/
def TraceDevice.updateCall (trace : TraceDevice) (register : TraceRegister) (value : U32) :
    CallEnd TraceDevice Unit :=
  .returned (.ok ()) (trace.update register value)

namespace MmioBus

/-- The write arms of `access`, up to `process_signals`. -/
def writeCall (bus : MmioBus) (register : MmioRegister) (value : U32) (now : Nat) :
    CallEnd MmioBus Unit :=
  match register with
  | .interrupt register =>
    match bus.interrupts.updateCall (.write register value) with
    | .returned result interrupts => .returned result { bus with interrupts }
    | .panicked => .panicked
  | .sysTick register => .returned (.ok ()) (bus.updateSysTick (.write register value now))
  | .dma register =>
    match bus.updateBlock (.write register value now) with
    | .error error => .returned (.error error) bus
    | .ok bus => .returned (.ok ()) bus
  | .rng register => .returned (.ok ()) { bus with rng := bus.rng.update register value }
  | .uart0 register => .returned (.ok ()) (bus.updateUart0 (.write register value))
  | .uart1 register => .returned (.ok ()) (bus.updateUart1 (.write register value))
  | .trace register =>
    match bus.trace.updateCall register value with
    | .returned (.ok ()) trace => .returned (.ok ()) { bus with trace }
    -- `expect("platform-decoded trace write")`
    | _ => .panicked

/-- The read arms of `access`, up to `process_signals`. -/
def readCall (bus : MmioBus) (register : MmioRegister) : CallEnd MmioBus U32 :=
  match register with
  -- `unreachable!("platform decoder rejects trace reads")`
  | .trace _ => .panicked
  | register => .returned (.ok (bus.readRegister register).1) (bus.readRegister register).2

/-- `access`, early returns and panics included. -/
def accessCall (bus : MmioBus) (transaction : MmioTransaction) (now : Nat) :
    CallEnd MmioBus (Option U32) :=
  match decodeMmio transaction with
  | .error error => .returned (.error (.platform error)) bus
  | .ok register =>
    match transaction.access with
    | .read =>
      match bus.readCall register with
      | .returned (.ok value) bus => .returned (.ok (some value)) bus.processSignals
      | .returned (.error error) bus => .returned (.error error) bus
      | .panicked => .panicked
    | .write =>
      match bus.writeCall register transaction.value now with
      | .returned (.ok ()) bus => .returned (.ok none) bus.processSignals
      | .returned (.error error) bus => .returned (.error error) bus
      | .panicked => .panicked
    -- `unreachable!("platform decoder rejects MMIO fetches")`
    | .fetch => .panicked

variable {bus after : MmioBus} {transaction : MmioTransaction} {register : MmioRegister}
  {value : U32} {now : Nat}

/-- A write leaves the bus the typed write returns, or the bus it found. -/
theorem writeCall_eq (bus : MmioBus) (register : MmioRegister) (value : U32) (now : Nat) :
    bus.writeCall register value now =
      match bus.writeRegister register value now with
      | .ok after => .returned (.ok ()) after
      | .error error => .returned (.error error) bus := by
  cases register with
  | interrupt register =>
    cases register with
    | eoi =>
      simp only [writeCall, writeRegister, updateInterrupts, InterruptController.updateCall,
        InterruptController.update, InterruptController.eoiCall, InterruptController.eoi]
      cases bus.interrupts.claim with
      | none => rfl
      | some claim =>
        by_cases matching : value = claim.id
        · simp only [matching, ne_eq, not_true_eq_false, ↓reduceIte, Except.map]
        · simp only [matching, ne_eq, not_false_eq_true, ↓reduceIte, Except.map]
    | _ => rfl
  | dma register =>
    simp only [writeCall, writeRegister]
    cases bus.updateBlock (.write register value now) <;> rfl
  | sysTick register | rng register | uart0 register | uart1 register | trace register => rfl

/-- A call ends as the typed access says: with its result and bus, or refused with the bus as it
was. It does not panic. -/
theorem accessCall_eq (bus : MmioBus) (transaction : MmioTransaction) (now : Nat) :
    bus.accessCall transaction now =
      match bus.access transaction now with
      | .ok (value, after) => .returned (.ok value) after
      | .error error => .returned (.error error) bus := by
  unfold accessCall access
  cases decoded : decodeMmio transaction with
  | error error => rfl
  | ok register =>
    obtain ⟨_, _, admitted⟩ := decodeMmio_iff_listed.mp decoded
    cases direction : transaction.access with
    | fetch =>
      rw [direction] at admitted
      cases admitted
    | read =>
      cases register with
      | trace register =>
        rw [direction] at admitted
        cases register
        cases admitted
      | interrupt register | sysTick register | dma register | rng register | uart0 register
      | uart1 register => rfl
    | write =>
      simp only [writeCall_eq]
      cases bus.writeRegister register transaction.value now <;> rfl

/-! ### What is accepted -/

/-- Every typed write succeeds but an EOI without the matching claim. -/
theorem writeRegister_ok_iff : (∃ after, bus.writeRegister register value now = .ok after) ↔
    (register = .interrupt .eoi → ∃ source, bus.interrupts.claim = some source ∧ value = source.id) := by
  cases register with
  | interrupt register =>
    by_cases completes : register = .eoi
    · subst completes
      simp only [writeRegister, updateInterrupts, true_implies]
      constructor
      · rintro ⟨after, written⟩
        cases updated : bus.interrupts.update (.write .eoi value) with
        | error error =>
          rw [updated] at written
          cases written
        | ok interrupts =>
          obtain ⟨source, active, same, _⟩ := InterruptController.update_eoi.mp updated
          exact ⟨source, active, same⟩
      · rintro ⟨source, active, same⟩
        rw [InterruptController.update_eoi.mpr ⟨source, active, same, rfl⟩]
        exact ⟨_, rfl⟩
    · have other : MmioRegister.interrupt register ≠ .interrupt .eoi := fun same =>
        completes (MmioRegister.interrupt.inj same)
      simp only [other, false_implies, iff_true]
      cases register with
      | eoi => exact absurd rfl completes
      | _ => exact ⟨_, rfl⟩
  | sysTick register | dma register | rng register | uart0 register | uart1 register
  | trace register => exact ⟨fun _ other => (by cases other), fun _ => ⟨_, rfl⟩⟩

/-! ### What a read takes -/

/-- The bus after a read of a register, before its controller drains: received bytes are popped,
random numbers drawn and interrupts claimed. -/
def taken (bus : MmioBus) : MmioRegister → MmioBus
  | .uart0 .receiveData => { bus with uart0 := { bus.uart0 with rx := bus.uart0.rx.drop 1 } }
  | .uart1 .receiveData => { bus with uart1 := { bus.uart1 with rx := bus.uart1.rx.drop 1 } }
  | .rng .data => { bus with rng := bus.rng.nextU32.2 }
  | .interrupt .claim =>
    { bus with interrupts :=
        { bus.interrupts with claim := bus.interrupts.claimed bus.level } }
  | _ => bus

theorem settled_readRegister (coherent : InterruptLevels.Coherent bus) (register : MmioRegister) :
    (bus.readRegister register).2.settled = (bus.taken register).settled := by
  cases register with
  | interrupt register =>
    cases register with
    | claim =>
      have drained := InterruptController.claimSource_settled coherent.interrupts_eq
      simp only [readRegister, InterruptController.read, taken]
      rw [drained]
      apply settled_ext
      · intro level
        exact InterruptController.settle_fields bus.interrupts bus.level level _ _ _
      · rfl
    | pending => exact settled_ext (fun level => by
        simp only [readRegister, InterruptController.read, taken]
        rw [coherent.interrupts_eq, InterruptController.settle_settle]) rfl
    | _ => rfl
  | rng register => cases register <;> rfl
  | uart0 register => cases register <;> rfl
  | uart1 register => cases register <;> rfl
  | sysTick register | dma register | trace register => rfl

/-- What one access of a bus can do. -/
structure AccessContract (bus : MmioBus) (transaction : MmioTransaction) (now : Nat) : Prop where
  /-- Draining the controller shows it every peripheral's level and changes nothing else. -/
  drained : bus.processSignals = bus.settled
  returns : bus.accessCall transaction now ≠ .panicked
  rejected : ∀ error after,
    bus.accessCall transaction now = .returned (.error error) after → after = bus
  accepted : (∃ value after, bus.accessCall transaction now = .returned (.ok value) after) ↔
    ∃ register : MmioRegister, transaction.width = .u32 ∧
      transaction.address.get.toNat = register.address ∧
      register.row.admits transaction.access transaction.value = true ∧
      (register = .interrupt .eoi →
        ∃ source, bus.interrupts.claim = some source ∧ transaction.value = source.id)
  reads : transaction.access = .read → ∀ value after,
    bus.accessCall transaction now = .returned (.ok value) after →
      ∃ register : MmioRegister, transaction.address.get.toNat = register.address ∧
        after = (bus.taken register).settled

theorem accessCall_ok : bus.accessCall transaction now = .returned (.ok result) after ↔
    bus.access transaction now = .ok (result, after) := by
  rw [accessCall_eq]
  cases bus.access transaction now with
  | error error => simp
  | ok returned =>
    obtain ⟨value, left⟩ := returned
    simp

/-- An access succeeds exactly when the decoder accepts it and its write, if it is one, succeeds. -/
theorem access_ok_iff : (∃ result after, bus.access transaction now = .ok (result, after)) ↔
    ∃ register, decodeMmio transaction = .ok register ∧
      (register = .interrupt .eoi →
        ∃ source, bus.interrupts.claim = some source ∧ transaction.value = source.id) := by
  unfold access
  cases decoded : decodeMmio transaction with
  | error error => simp
  | ok register =>
    obtain ⟨_, _, admitted⟩ := decodeMmio_iff_listed.mp decoded
    simp only [Except.ok.injEq, exists_eq_left']
    cases direction : transaction.access with
    | fetch =>
      rw [direction] at admitted
      cases admitted
    | read =>
      have other : register ≠ .interrupt .eoi := by
        rintro rfl
        rw [direction] at admitted
        cases admitted
      simp [other]
    | write =>
      rw [← writeRegister_ok_iff]
      cases bus.writeRegister register transaction.value now <;> simp [Except.map]

theorem accessContract (coherent : InterruptLevels.Coherent bus) (transaction : MmioTransaction)
    (now : Nat) : AccessContract bus transaction now where
  drained := coherent.processSignals_eq
  returns := by
    rw [accessCall_eq]
    cases bus.access transaction now <;> simp
  rejected := by
    intro error after ended
    rw [accessCall_eq] at ended
    cases accessed : bus.access transaction now with
    | error refused =>
      rw [accessed] at ended
      cases ended
      rfl
    | ok returned =>
      rw [accessed] at ended
      cases ended
  accepted := by
    simp only [accessCall_ok, access_ok_iff, decodeMmio_iff_listed, and_assoc]
  reads := by
    intro read value after ended
    rw [accessCall_ok] at ended
    cases decoded : decodeMmio transaction with
    | error error =>
      simp only [access, decoded] at ended
      cases ended
    | ok register =>
      obtain ⟨_, located, _⟩ := decodeMmio_iff_listed.mp decoded
      have writes : transaction.access ≠ .write := by simp [read]
      rw [coherent.access_read now decoded writes] at ended
      cases ended
      exact ⟨register, located, settled_readRegister coherent register⟩

end MmioBus

open InterruptLevels in
/-- In every state a bus reaches, every access keeps the contract. -/
theorem mmio_access_contract (steps : List BusStep) (transaction : MmioTransaction) (now : Nat) :
    (run InterruptLevels.step .new steps).AccessContract transaction now := by
  have preserved (bus : MmioBus) (operation : BusStep) (_ : True) (coherent : Coherent bus) :
      Coherent (InterruptLevels.step bus operation) := coherent_step coherent operation
  apply MmioBus.accessContract
  exact run_invariant preserved .new steps coherent_new fun _ _ => trivial

end Minemu.Core
