import Minemu.Unicorn.CostLaw

/-! How many instructions a call attempts, and when the ticks it takes are as many. -/

namespace Minemu.Unicorn

open Platform Minemu.Core

namespace BackendStop

def isFailedFetch : BackendStop → Bool
  | mmuFault fault => fault.status.isFetch
  | _ => false

end BackendStop

namespace UnicornBackend

/-- What a call that gets to its batch starts it from, and what `emu_start` then does. -/
def launch (engine : Engine) (backend : UnicornBackend) (call : RunCall) :
    Option (UnicornBackend × List EngineEvent × Except UcError Unit) :=
  match backend.resumeDeferredException call.tickDeadline with
  | (some _, _) => none
  | (none, backend) =>
    if backend.deadlineReached call.tickDeadline then none
    else
      let (delivered, backend) :=
        if call.tickDeadline.isSome then backend.deliverIrq else (none, backend)
      match delivered, engine.setExits backend (exitsOf call.stop) with
      | some _, _ | none, .error _ => none
      | none, .ok () =>
        some (backend.clearFlags, engine.emuStart backend.clearFlags call.start call.stop
          (call.tickDeadline.elim call.budget fun deadline =>
            min call.budget (deadline - backend.machine.ticks)))

/-- The state `emu_start` leaves in a call and what it returned, when the call gets that far. -/
def batch (engine : Engine) (backend : UnicornBackend) (call : RunCall) :
    Option (UnicornBackend × Except UcError Unit) :=
  match backend.resumeDeferredException call.tickDeadline with
  | (some _, _) => none
  | (none, backend) =>
    if backend.deadlineReached call.tickDeadline then none
    else
      let (delivered, backend) :=
        if call.tickDeadline.isSome then backend.deliverIrq else (none, backend)
      match delivered, engine.setExits backend (exitsOf call.stop) with
      | some _, _ | none, .error _ => none
      | none, .ok () =>
        let (events, result) := engine.emuStart backend.clearFlags call.start call.stop
          (call.tickDeadline.elim call.budget fun deadline =>
            min call.budget (deadline - backend.machine.ticks))
        some (backend.clearFlags.emulate events, result)

/-- The instructions a batch attempted: those that reached execution, and the one whose fetch
failed. -/
def attemptedInstructions (batch : UnicornBackend) : Nat :=
  batch.executedInstructions + (batch.callbackStop.any BackendStop.isFailedFetch).toNat

def attempts (engine : Engine) (backend : UnicornBackend) (call : RunCall) : Nat :=
  (backend.batch engine call).elim 0 fun batch => batch.1.attemptedInstructions

/-- The ticks of a batch are its attempted instructions: a failed fetch is its only attempt and
any other fault comes from an instruction it executed, the retirement of an SVC or undefined
instruction lands on the deadline, where the entry waits, and no IRQ is entered. -/
def EvenBatch (batch : UnicornBackend) (tickDeadline : Option Nat) : Prop :=
  match batch.callbackStop, batch.pendingException, batch.pendingCp15 with
  | some stop, _, _ =>
    isFaultStop stop = true ∧ (stop.isFailedFetch = true ↔ batch.executedInstructions = 0)
  | none, some _, _ | none, none, some (.undefined _) =>
    1 ≤ batch.executedInstructions ∧
      tickDeadline = some (batch.machine.ticks + batch.executedInstructions)
  | none, none, some _ => True
  | none, none, none =>
    batch.account.deadlineReached tickDeadline = true ∨ batch.account.deliverIrq.1 = none

/-- A call enters neither a deferred exception nor an IRQ before its batch, and the batch is
even. -/
structure Even (engine : Engine) (backend : UnicornBackend) (call : RunCall) : Prop where
  fresh : backend.deferredException = none
  noIrq : call.tickDeadline.isSome = true → backend.deliverIrq.1 = none
  batch : ∀ batch result, backend.batch engine call = some (batch, result) →
    batch.EvenBatch call.tickDeadline

/-! ### The batch of a call -/

variable {backend : UnicornBackend} {engine : Engine} {call : RunCall}

/-- What a call without a deferred exception starts its batch from, and the IRQ it enters
instead. -/
theorem starting_ticks (backend : UnicornBackend) (tickDeadline : Option Nat)
    (quiet : (if tickDeadline.isSome = true then backend.deliverIrq else (none, backend)).1 = none) :
    (if tickDeadline.isSome = true then backend.deliverIrq else (none, backend)).2.machine.ticks =
      backend.machine.ticks := by
  split at quiet
  · rename_i bounded
    rw [if_pos bounded, backend.ticks_deliverIrq, quiet]
    rfl
  · rename_i unbounded
    rw [if_neg unbounded]

theorem batch_eq_launch : backend.batch engine call = (backend.launch engine call).map
    fun launched => (launched.1.emulate launched.2.1, launched.2.2) := by
  unfold batch launch
  rcases backend.resumeDeferredException call.tickDeadline with ⟨_ | stop, before⟩
  · simp only
    split
    · rfl
    · rcases (if call.tickDeadline.isSome = true then before.deliverIrq
        else (none, before)) with ⟨_ | irq, start⟩
      · simp only
        cases engine.setExits start (exitsOf call.stop) <;> rfl
      · rfl
  · rfl

/-- A call gets to its batch when no exception waits, the deadline is ahead and no IRQ is taken;
it then finishes what `emu_start` leaves. -/
theorem launch_cases {first : UnicornBackend} {events : List EngineEvent}
    {result : Except UcError Unit}
    (launched : backend.launch engine call = some (first, events, result)) :
    backend.deadlineReached call.tickDeadline = false ∧
      ∃ start, (if call.tickDeadline.isSome = true then backend.deliverIrq
          else (none, backend)) = (none, start) ∧ first = start.clearFlags ∧
        engine.emuStart first call.start call.stop
          (call.tickDeadline.elim call.budget fun deadline =>
            min call.budget (deadline - start.machine.ticks)) = (events, result) ∧
        backend.call engine call =
          (first.emulate events).finishBatch engine result call.tickDeadline := by
  unfold launch at launched
  cases deferred : backend.deferredException with
  | some waiting =>
    simp only [resumeDeferredException, deferred] at launched
    split at launched
    · cases launched
    · rename_i resumed
      split at resumed <;> cases resumed
  | none =>
    simp only [resumeDeferredException, deferred] at launched
    split at launched
    · cases launched
    · rename_i early
      simp only [UnicornBackend.call, runWithTickDeadline, resumeDeferredException, deferred, early,
        Bool.false_eq_true, ↓reduceIte]
      generalize (if call.tickDeadline.isSome = true then backend.deliverIrq
        else (none, backend)) = starting at launched ⊢
      obtain ⟨delivered, start⟩ := starting
      split at launched
      · cases launched
      · cases launched
      · rename_i quiet exits
        dsimp only at quiet exits launched ⊢
        subst quiet
        obtain ⟨rfl, emulated⟩ := Prod.mk.inj (Option.some.inj launched)
        refine ⟨trivial, start, rfl, rfl, emulated, ?_⟩
        simp only [runBatch, exits, emulated]

/-- A call that gets to its batch finishes it, from the ticks the call began at and with no more
instructions executed than its budget. -/
theorem call_batch {batch : UnicornBackend} {result : Except UcError Unit}
    (ran : backend.batch engine call = some (batch, result)) :
    backend.call engine call = batch.finishBatch engine result call.tickDeadline ∧
      batch.machine.ticks = backend.machine.ticks ∧
      (ExecutesAtMost engine → 1 ≤ call.budget → batch.executedInstructions ≤ call.budget) := by
  rw [batch_eq_launch, Option.map_eq_some_iff] at ran
  obtain ⟨⟨first, events, outcome⟩, launched, same⟩ := ran
  obtain ⟨rfl, rfl⟩ := Prod.mk.inj same
  obtain ⟨early, start, delivered, rfl, emulated, called⟩ := launch_cases launched
  have ticks := backend.starting_ticks call.tickDeadline (by rw [delivered])
  rw [delivered] at ticks
  obtain ⟨kept, executed, -⟩ := start.clearFlags.emulate_frame events
  refine ⟨called, kept.trans ticks, ?_⟩
  intro atMost positive
  have room : 1 ≤ call.tickDeadline.elim call.budget fun deadline =>
      min call.budget (deadline - start.machine.ticks) := by
    cases bound : call.tickDeadline with
    | none => exact positive
    | some deadline =>
      simp only [deadlineReached, bound, Option.any_some, decide_eq_false_iff_not, not_le] at early
      simp only at ticks
      simp only [Option.elim_some]
      omega
  have count := atMost start.clearFlags call.start call.stop _ room
  rw [emulated] at count
  have clipped : (call.tickDeadline.elim call.budget fun deadline =>
      min call.budget (deadline - start.machine.ticks)) ≤ call.budget := by
    cases call.tickDeadline with
    | none => exact le_rfl
    | some deadline => exact Nat.min_le_left _ _
  have zero : start.clearFlags.executedInstructions = 0 := rfl
  rw [executed, zero, Nat.zero_add]
  exact count.trans clipped

/-- A call that enters nothing before its batch and does not get to one takes no time. -/
theorem call_idle (even : Even engine backend call) (idle : backend.batch engine call = none) :
    (backend.call engine call).2.machine.ticks = backend.machine.ticks := by
  have starting := backend.starting_ticks call.tickDeadline
  have quiet : (if call.tickDeadline.isSome = true then backend.deliverIrq
      else (none, backend)).1 = none := by
    split
    · exact even.noIrq ‹_›
    · rfl
  simp only [UnicornBackend.batch, UnicornBackend.call, runWithTickDeadline,
    resumeDeferredException, even.fresh] at idle ⊢
  split
  · rfl
  · rename_i early
    rw [if_neg early] at idle
    generalize (if call.tickDeadline.isSome = true then backend.deliverIrq
      else (none, backend)) = start at idle starting quiet ⊢
    obtain ⟨delivered, first⟩ := start
    dsimp only at quiet
    subst quiet
    cases exits : engine.setExits first (exitsOf call.stop) with
    | error error =>
      simp only [runBatch, exits]
      exact starting rfl
    | ok exit => simp only [exits, reduceCtorEq] at idle

/-! ### What batches cost -/

/-- What the exit of a batch takes after the accounting. -/
def exitCost (batch : UnicornBackend) (tickDeadline : Option Nat) : Nat :=
  match batch.callbackStop, batch.pendingException, batch.pendingCp15 with
  | some stop, _, _ => (isFaultStop stop).toNat
  | none, some (.fault _), _ => 1
  | none, some (.synchronous _ _), _ | none, none, some (.undefined _) =>
    if tickDeadline = some (batch.account.machine.ticks + 1) then 1 else 2
  | none, none, some _ => 0
  | none, none, none =>
    if batch.account.deadlineReached tickDeadline then 0
    else batch.account.deliverIrq.1.isSome.toNat

theorem ticks_finishBatch (engine : Engine) (batch : UnicornBackend) (tickDeadline : Option Nat)
    (result : Except UcError Unit) :
    (batch.finishBatch engine result tickDeadline).2.machine.ticks =
      batch.account.machine.ticks + batch.exitCost tickDeadline := by
  unfold finishBatch exitCost
  cases batch.callbackStop with
  | some stop => exact ticks_finishCallbackStop _ stop tickDeadline
  | none =>
    cases batch.pendingException with
    | some exception =>
      cases exception with
      | synchronous kind pc => exact ticks_finishSynchronousException _ kind ⟨pc⟩ tickDeadline
      | fault fault => exact ticks_finishFault _ fault tickDeadline
    | none =>
      cases batch.pendingCp15 with
      | none => exact ticks_finishRun _ result tickDeadline
      | some pending =>
        cases pending with
        | undefined pc => exact ticks_finishSynchronousException _ .undefined ⟨pc⟩ tickDeadline
        | operation operation => exact ticks_finishCp15 _ engine _ tickDeadline rfl
        | readFaultStatus register | readFaultAddress register =>
          exact ticks_finishCp15 _ engine _ tickDeadline rfl

/-- An even batch takes a tick for every attempt. -/
theorem ticks_even {batch : UnicornBackend} {tickDeadline : Option Nat}
    (even : batch.EvenBatch tickDeadline) (result : Except UcError Unit) :
    (batch.finishBatch engine result tickDeadline).2.machine.ticks =
      batch.machine.ticks + batch.attemptedInstructions := by
  have account := batch.ticks_account
  unfold completedInstructions faultingInstruction at account
  have retires (ran : 1 ≤ batch.executedInstructions)
      (lands : tickDeadline = some (batch.machine.ticks + batch.executedInstructions))
      (faulting : batch.account.machine.ticks = batch.machine.ticks +
        (batch.executedInstructions - 1)) :
      tickDeadline = some (batch.account.machine.ticks + 1) := by
    rw [lands, faulting, Nat.add_assoc, Nat.sub_add_cancel ran]
  rw [ticks_finishBatch]
  unfold EvenBatch at even
  unfold exitCost attemptedInstructions
  split at even
  · rename_i stop stopped
    obtain ⟨fault, fetch⟩ := even
    simp only [stopped, Option.any_some, fault, Bool.or_true, Bool.toNat_true] at account ⊢
    cases failed : stop.isFailedFetch with
    | true =>
      have nothing := fetch.mp failed
      simp only [Bool.toNat_true]
      omega
    | false =>
      have ran : batch.executedInstructions ≠ 0 := fun nothing => by simp [fetch.mpr nothing] at failed
      simp only [Bool.toNat_false]
      omega
  · rename_i exception stopped excepted
    obtain ⟨ran, lands⟩ := even
    simp only [stopped, excepted, Option.any_none, Option.isSome_some, Bool.or_true, Bool.true_or,
      Bool.toNat_true, Bool.toNat_false] at account ⊢
    cases exception with
    | synchronous kind pc =>
      simp only [retires ran lands account, ↓reduceIte]
      omega
    | fault fault =>
      simp only
      omega
  · rename_i pc stopped excepted trapped
    obtain ⟨ran, lands⟩ := even
    simp only [stopped, excepted, trapped, Option.any_none, Option.any_some, Option.isSome_none,
      isUndefinedCp15, Bool.or_false, Bool.toNat_true, Bool.toNat_false] at account ⊢
    simp only [retires ran lands account, ↓reduceIte]
    omega
  · rename_i pending defined stopped excepted trapped
    have taken : isUndefinedCp15 pending = false := by
      cases pending with
      | undefined pc => exact absurd rfl (defined pc)
      | operation operation => rfl
      | readFaultStatus register | readFaultAddress register => rfl
    simp only [stopped, excepted, trapped, Option.any_none, Option.any_some, Option.isSome_none,
      taken, Bool.or_false, Bool.toNat_false, Nat.sub_zero, Nat.add_zero] at account ⊢
    exact account
  · rename_i stopped excepted trapped
    simp only [stopped, excepted, trapped, Option.any_none, Option.isSome_none, Bool.or_false,
      Bool.toNat_false, Nat.sub_zero, Nat.add_zero] at account ⊢
    rcases even with reached | masked
    · rw [if_pos reached, account, Nat.add_zero]
    · rw [masked, account]
      split <;> rfl

/-- A batch that no BKPT stops takes a tick at least for every instruction it executes. -/
theorem ticks_atLeast {batch : UnicornBackend} (tickDeadline : Option Nat)
    (plain : batch.callbackStop.all isFaultStop = true) (result : Except UcError Unit) :
    batch.machine.ticks + batch.executedInstructions ≤
      (batch.finishBatch engine result tickDeadline).2.machine.ticks := by
  have account := batch.ticks_account
  unfold completedInstructions at account
  -- whatever takes one instruction off the accounting costs a tick at least
  have paid : batch.faultingInstruction.toNat ≤ batch.exitCost tickDeadline := by
    unfold faultingInstruction exitCost
    cases stopped : batch.callbackStop with
    | some stop =>
      have fault : isFaultStop stop = true := by simpa [stopped] using plain
      simp only [Option.any_some, fault, Bool.or_true, le_refl]
    | none =>
      cases batch.pendingException with
      | some exception =>
        simp only [Option.isSome_some, Bool.or_true, Bool.true_or, Bool.toNat_true]
        cases exception with
        | synchronous kind pc =>
          simp only
          split <;> omega
        | fault fault => exact le_rfl
      | none =>
        cases batch.pendingCp15 with
        | none => exact Nat.zero_le _
        | some pending =>
          cases pending with
          | undefined pc =>
            simp only [Option.any_some, isUndefinedCp15, Bool.true_or, Bool.toNat_true]
            split <;> omega
          | operation operation => exact le_rfl
          | readFaultStatus register | readFaultAddress register => exact le_rfl
  rw [ticks_finishBatch]
  omega

end UnicornBackend

end Minemu.Unicorn
