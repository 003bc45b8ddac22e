import Minemu.Library.Batching
import Minemu.Unicorn.Guest

/-! Batch sizes change nothing: as long as no access notices a tick that its batch has
not applied yet, every way of cutting a program into batches gives the same state. -/

namespace Minemu.Unicorn

open Library Platform Minemu.Core InterruptLevels

namespace Guest

/-- The tick of one completed instruction. -/
def tick (guest : Guest) : Guest := { guest with machine := guest.machine.completed }

theorem machine_tick (guest : Guest) :
    guest.tick.machine = { guest.machine with
      ticks := guest.machine.ticks + 1
      memory := (guest.machine.bus.advanceTo (guest.machine.ticks + 1) guest.machine.memory).2
      bus := { (guest.machine.bus.advanceTo (guest.machine.ticks + 1) guest.machine.memory).1 with
        trace := (guest.machine.bus.trace.retire (guest.machine.ticks + 1)).2 }
      events := Machine.recordTraces guest.machine.eventCapacity guest.machine.events
        (guest.machine.bus.trace.retire (guest.machine.ticks + 1)).1 } :=
  guest.machine.tick.retireTraces_eq

theorem coherent_tick {guest : Guest} (coherent : Coherent guest.machine.bus) :
    Coherent guest.tick.machine.bus := by
  rw [machine_tick]
  exact (coherent.advanceTo _ _).congr rfl rfl rfl rfl rfl

end Guest

namespace GuestInstruction

/-- The instruction neither reads nor writes RAM here: no walk, no load, no store. -/
def UsesNoRam (instruction : GuestInstruction) (guest : Guest) : Prop :=
  (instruction.lookups guest.cpu = [] ∨ guest.machine.mmu.enabled = false) ∧
    ∀ memory value, instruction.result guest.cpu memory value =
      ((instruction.result guest.cpu guest.machine.memory value).1, [])

/-- The instruction does what it would do at any time up to `limit`: no block transfer to
or from the RAM it uses completes by then, and its device access notices no deadline. -/
structure Current (instruction : GuestInstruction) (guest : Guest) (limit : Nat) : Prop where
  ram : guest.machine.bus.block.quiet limit = true ∨ instruction.UsesNoRam guest
  device : ∀ access, instruction.access guest.cpu = some access →
    guest.machine.bus.accessCurrent limit access.transaction = true

variable {instruction : GuestInstruction} {guest later : Guest} {limit : Nat}

/-! ### The device access and a tick -/

theorem coherent_accessed (coherent : Coherent guest.machine.bus) :
    Coherent (instruction.accessed guest).2 := by
  unfold accessed
  split
  · exact coherent
  · rename_i access _
    cases result : guest.machine.bus.access access.transaction guest.machine.ticks with
    | error error => exact coherent
    | ok result' => exact coherent.access result

/-- The access gives the same value after a tick, and its bus and the tick commute. -/
theorem accessed_later (later : Guest) (coherent : Coherent guest.machine.bus)
    (accepted : instruction.accessAccepted guest = true)
    (current : instruction.Current guest limit) (within : guest.machine.ticks + 1 ≤ limit)
    (memory : PhysicalMemory) (trace : TraceDevice) (cpu : later.cpu = guest.cpu)
    (ticks : later.machine.ticks = guest.machine.ticks + 1)
    (bus : later.machine.bus =
      { (guest.machine.bus.advanceTo (guest.machine.ticks + 1) memory).1 with trace }) :
    instruction.accessAccepted later = true ∧
      instruction.accessed later = ((instruction.accessed guest).1,
        { ((instruction.accessed guest).2.advanceTo (guest.machine.ticks + 1) memory).1 with
          trace }) ∧
      (guest.machine.bus.advanceTo (guest.machine.ticks + 1) memory).2 =
        ((instruction.accessed guest).2.advanceTo (guest.machine.ticks + 1) memory).2 ∧
      (instruction.accessed guest).2.trace = guest.machine.bus.trace := by
  unfold accessAccepted accessed at *
  rw [cpu]
  cases issued : instruction.access guest.cpu with
  | none => exact ⟨rfl, by rw [bus], rfl, rfl⟩
  | some access =>
    have unnoticed := current.device access issued
    simp only [issued, Option.all_some] at accepted ⊢
    cases granted : guest.machine.bus.access access.transaction guest.machine.ticks with
    | error error => simp [granted, Except.toOption] at accepted
    | ok result =>
      obtain ⟨value, after⟩ := result
      obtain ⟨again, memories⟩ :=
        coherent.access_advanceTo memory granted unnoticed within
      have later_unnoticed := coherent.accessCurrent_advanceTo memory unnoticed within
      obtain ⟨_, framed⟩ := MmioBus.access_trace later_unnoticed again
      rw [ticks, bus, framed trace]
      exact ⟨rfl, rfl, memories, (MmioBus.access_trace unnoticed granted).1⟩

/-! ### RAM and a tick -/

theorem lookup_off {mmu : Mmu} (off : mmu.enabled = false) (userMode : Bool)
    (requests : List (VirtualAddress × Access)) (memory other : PhysicalMemory) :
    requests.foldl (lookup mmu userMode) memory = memory ∧
      lookupsSucceed mmu userMode requests memory =
        lookupsSucceed mmu userMode requests other := by
  have passed (memory : PhysicalMemory) (request : VirtualAddress × Access) :
      mmu.translate memory request.1 request.2 userMode =
        (.ok ⟨request.1.get⟩, mmu, memory) := by
    simp only [Mmu.translate, off, Bool.not_false, ↓reduceIte]
  have kept (memory : PhysicalMemory) (request : VirtualAddress × Access) :
      lookup mmu userMode memory request = memory := by rw [lookup, passed]
  induction requests with
  | nil => exact ⟨rfl, rfl⟩
  | cons request requests ih =>
    simp only [List.foldl_cons, lookupsSucceed, kept, lookupSucceeds, passed]
    exact ⟨ih.1, by rw [ih.2]⟩

/-- An instruction that uses no RAM here finds RAM as it is and leaves it so. -/
theorem UsesNoRam.keeps (free : instruction.UsesNoRam guest) :
    instruction.looked guest = guest.machine.memory ∧ (instruction.finished guest).2 = [] := by
  refine ⟨?_, congrArg Prod.snd (free.2 _ _)⟩
  rcases free.1 with none | off
  · rw [looked, none]
    rfl
  · exact (lookup_off off _ _ _ guest.machine.memory).1

theorem UsesNoRam.tick (free : instruction.UsesNoRam guest) : instruction.UsesNoRam guest.tick := by
  have mmu : guest.tick.machine.mmu = guest.machine.mmu := by rw [guest.machine_tick]
  refine ⟨free.1.imp_right fun off => mmu ▸ off, fun memory value => ?_⟩
  have here : guest.tick.cpu = guest.cpu := rfl
  rw [here, free.2 memory value, free.2 guest.tick.machine.memory value]

/-- What a tick before the instruction does to the RAM the instruction uses, a tick after
it does as well. -/
theorem ram_tick (translated : lookupsSucceed guest.machine.mmu (userMode guest.cpu)
      (instruction.lookups guest.cpu) guest.machine.memory = true)
    (ram : guest.machine.bus.block.quiet limit = true ∨ instruction.UsesNoRam guest)
    (within : guest.machine.ticks + 1 ≤ limit) {memory : PhysicalMemory}
    (left : (instruction.execute guest).2.machine.memory = memory) :
    guest.tick.machine.bus =
        { (guest.machine.bus.advanceTo (guest.machine.ticks + 1) memory).1 with
          trace := guest.tick.machine.bus.trace } ∧
      lookupsSucceed guest.machine.mmu (userMode guest.cpu) (instruction.lookups guest.cpu)
        guest.tick.machine.memory = true ∧
      ((instruction.accessed guest.tick).1 = (instruction.accessed guest).1 →
        instruction.finished guest.tick = instruction.finished guest ∧
        UnicornBackend.storeBytes (instruction.looked guest.tick) (instruction.finished guest).2 =
          (guest.machine.bus.advanceTo (guest.machine.ticks + 1) memory).2) := by
  have ticked := guest.machine_tick
  rcases ram with quiet | free
  · obtain ⟨kept, same⟩ := guest.machine.bus.advanceTo_quiet quiet within guest.machine.memory
      memory
    obtain ⟨later, _⟩ := guest.machine.bus.advanceTo_quiet quiet within memory memory
    have found : guest.tick.machine.memory = guest.machine.memory := by rw [ticked, kept]
    have mmu : guest.tick.machine.mmu = guest.machine.mmu := by rw [ticked]
    have looked : instruction.looked guest.tick = instruction.looked guest := by
      unfold looked
      rw [mmu, found]
      rfl
    refine ⟨by rw [ticked, same], by rwa [found], fun values => ⟨?_, ?_⟩⟩
    · unfold finished
      rw [looked, values]
      rfl
    · rw [looked, later, ← left]
      rfl
  · have timed := free.tick
    obtain ⟨found, stores⟩ := free.keeps
    obtain ⟨foundLater, storesLater⟩ := timed.keeps
    have same : guest.machine.memory = memory := by
      rw [← left, execute, found, stores]
      rfl
    subst same
    have mmu : guest.tick.machine.mmu = guest.machine.mmu := by rw [ticked]
    refine ⟨by rw [ticked], ?_, fun values => ⟨?_, ?_⟩⟩
    · rcases free.1 with none | off
      · rw [none]
        rfl
      · rwa [← (lookup_off off _ _ guest.machine.memory _).2]
    · refine Prod.ext ?_ (storesLater.trans stores.symm)
      have here : guest.tick.cpu = guest.cpu := rfl
      unfold finished
      rw [values, here, free.2 (instruction.looked guest.tick), free.2 (instruction.looked guest)]
    · rw [foundLater, stores, ticked]
      rfl

/-- An instruction that notices nothing up to `limit` still completes after a tick, and
commutes with it. -/
theorem execute_tick (coherent : Coherent guest.machine.bus)
    (completes : instruction.Completes guest) (current : instruction.Current guest limit)
    (within : guest.machine.ticks + 1 ≤ limit) :
    instruction.Completes guest.tick ∧
      instruction.execute guest.tick =
        ((instruction.execute guest).1, (instruction.execute guest).2.tick) := by
  obtain ⟨untrapped, translated, accepted, masked⟩ := completes
  have ticked := guest.machine_tick
  have ticks : guest.tick.machine.ticks = guest.machine.ticks + 1 := by rw [ticked]
  have mmu : guest.tick.machine.mmu = guest.machine.mmu := by rw [ticked]
  obtain ⟨bus, translatedLater, ram⟩ := ram_tick translated current.ram within rfl
  obtain ⟨acceptedLater, accessed, memories, trace⟩ := accessed_later guest.tick coherent accepted
    current within _ _ rfl ticks bus
  obtain ⟨finished, memory⟩ := ram (by rw [accessed])
  constructor
  · exact ⟨untrapped, by rw [mmu]; exact translatedLater, acceptedLater, by rw [finished]; exact masked⟩
  · have after := (instruction.execute guest).2.machine_tick
    have kept : (instruction.execute guest).2.machine.bus.trace = guest.machine.bus.trace := trace
    rw [kept] at after
    have unfolded : (instruction.execute guest.tick).2.machine = { guest.tick.machine with
        memory := UnicornBackend.storeBytes (instruction.looked guest.tick)
          (instruction.finished guest.tick).2
        bus := (instruction.accessed guest.tick).2 } := rfl
    rw [finished, memory, memories, accessed, ticked] at unfolded
    have machines : (instruction.execute guest.tick).2.machine =
        (instruction.execute guest).2.tick.machine := unfolded.trans after.symm
    refine Prod.ext (by rw [execute, accessed]; rfl) ?_
    calc (instruction.execute guest.tick).2
        = ⟨(instruction.execute guest.tick).2.machine, (instruction.finished guest.tick).1⟩ := rfl
      _ = (instruction.execute guest).2.tick := by rw [machines, finished]; rfl

theorem current_tick (coherent : Coherent guest.machine.bus)
    (current : instruction.Current guest limit) (within : guest.machine.ticks + 1 ≤ limit) :
    instruction.Current guest.tick limit := by
  have ticked := guest.machine_tick
  constructor
  · refine current.ram.imp (fun quiet => ?_) UsesNoRam.tick
    rw [ticked]
    show (guest.machine.bus.advanceTo _ _).1.block.quiet limit = true
    rw [coherent.advanceTo_eq]
    exact BlockDevice.quiet_advanceTo _ quiet within
  · intro access issued
    rw [ticked]
    exact coherent.accessCurrent_advanceTo _ (current.device access issued) within

/-- The same after any number of ticks up to `limit`. -/
theorem current_ticks (coherent : Coherent guest.machine.bus)
    (completes : instruction.Completes guest) (current : instruction.Current guest limit)
    (passed : Nat) (within : guest.machine.ticks + passed ≤ limit) :
    Coherent (Guest.tick^[passed] guest).machine.bus ∧
      instruction.Completes (Guest.tick^[passed] guest) ∧
      instruction.Current (Guest.tick^[passed] guest) limit ∧
      (Guest.tick^[passed] guest).machine.ticks = guest.machine.ticks + passed := by
  induction passed with
  | zero => exact ⟨coherent, completes, current, rfl⟩
  | succ passed ih =>
    obtain ⟨coherent, completes, current, ticks⟩ := ih (by omega)
    have room : (Guest.tick^[passed] guest).machine.ticks + 1 ≤ limit := by omega
    rw [Function.iterate_succ_apply']
    refine ⟨Guest.coherent_tick coherent, (execute_tick coherent completes current room).1,
      current_tick coherent current room, ?_⟩
    rw [Guest.machine_tick]
    show (Guest.tick^[passed] guest).machine.ticks + 1 = _
    omega

/-- An instruction that notices no tick still to come settles. -/
theorem settles (coherent : Coherent guest.machine.bus) (completes : instruction.Completes guest)
    (late : Nat) (current : late ≠ 0 → instruction.Current guest (guest.machine.ticks + late)) :
    Settles execute Guest.tick late instruction guest := by
  refine settles_of_ticks late fun passed before => ?_
  obtain ⟨coherent, completes, current, ticks⟩ := current_ticks coherent completes
    (current (Nat.ne_of_gt (Nat.zero_lt_of_lt before))) passed (by omega)
  exact (execute_tick coherent completes current (by omega)).2

theorem coherent_execute (coherent : Coherent guest.machine.bus) :
    Coherent (instruction.execute guest).2.machine.bus :=
  coherent_accessed coherent

end GuestInstruction

/-! ### Batches -/

/-- Every instruction of a batch completes. -/
def Completing : List GuestInstruction → Guest → Prop
  | [], _ => True
  | instruction :: rest, guest =>
    instruction.Completes guest ∧ Completing rest (instruction.execute guest).2

/-- No instruction of a batch notices the ticks of those before it, which the batch has not
applied yet. -/
def AllCurrent : Nat → List GuestInstruction → Guest → Prop
  | _, [], _ => True
  | late, instruction :: rest, guest =>
    (late ≠ 0 → instruction.Current guest (guest.machine.ticks + late)) ∧
      AllCurrent (late + 1) rest (instruction.execute guest).2

theorem allSettle {program : List GuestInstruction} {guest : Guest} {late : Nat}
    (coherent : Coherent guest.machine.bus) (completing : Completing program guest)
    (current : AllCurrent late program guest) :
    AllSettle GuestInstruction.execute Guest.tick late program guest := by
  induction program generalizing guest late with
  | nil => trivial
  | cons instruction rest ih =>
    obtain ⟨completes, completing⟩ := completing
    obtain ⟨unnoticed, current⟩ := current
    exact ⟨GuestInstruction.settles coherent completes late unnoticed,
      ih (GuestInstruction.coherent_execute coherent) completing current⟩

theorem coherent_batched {program : List GuestInstruction} {guest : Guest}
    (coherent : Coherent guest.machine.bus) :
    Coherent (batched GuestInstruction.execute Guest.tick program guest).2.machine.bus := by
  have acted (program : List GuestInstruction) (guest : Guest)
      (coherent : Coherent guest.machine.bus) :
      Coherent (untimed GuestInstruction.execute program guest).2.machine.bus := by
    induction program generalizing guest with
    | nil => exact coherent
    | cons instruction rest ih => exact ih _ (GuestInstruction.coherent_execute coherent)
  have timed (count : Nat) (guest : Guest) (coherent : Coherent guest.machine.bus) :
      Coherent (Guest.tick^[count] guest).machine.bus := by
    induction count generalizing guest with
    | zero => exact coherent
    | succ count ih => exact ih _ (Guest.coherent_tick coherent)
  exact timed _ _ (acted program guest coherent)

namespace UnicornBackend

variable (backend : UnicornBackend)

/-- A batch leaves no flag, counts its instructions and does what they do. -/
theorem emulate_program {program : List GuestInstruction}
    (completing : Completing program backend.guest) :
    backend.emulate (programEvents program backend.guest) =
        { backend.setGuest (untimed GuestInstruction.execute program backend.guest).2 with
          executedInstructions := backend.executedInstructions + program.length } ∧
      backend.readValues (programEvents program backend.guest) =
        (untimed GuestInstruction.execute program backend.guest).1.reduceOption := by
  induction program generalizing backend with
  | nil => exact ⟨rfl, rfl⟩
  | cons instruction rest ih =>
    obtain ⟨completes, completing⟩ := completing
    obtain ⟨emulated, values⟩ := backend.emulate_instruction completes
    obtain ⟨later, laterValues⟩ := ih (backend.instructionCounterCallback.setGuest
      (instruction.execute backend.guest).2) completing
    rw [programEvents, emulate_append, readValues_append, emulated, values]
    have counted : backend.executedInstructions + 1 + rest.length =
        backend.executedInstructions + (instruction :: rest).length := by
      rw [List.length_cons]
      omega
    constructor
    · rw [← counted]
      exact later
    · have outputs := List.reduceOption_append [(instruction.execute backend.guest).1]
        (untimed GuestInstruction.execute rest (instruction.execute backend.guest).2).1
      have single : [(instruction.execute backend.guest).1].reduceOption =
          (instruction.execute backend.guest).1.toList := by
        cases (instruction.execute backend.guest).1 <;> rfl
      rw [single] at outputs
      exact (congrArg _ laterValues).trans outputs.symm

theorem masked_untimed {program : List GuestInstruction} {guest : Guest}
    (masked : guest.cpu.irqsMasked = true) (completing : Completing program guest) :
    (untimed GuestInstruction.execute program guest).2.cpu.irqsMasked = true := by
  induction program generalizing guest with
  | nil => exact masked
  | cons instruction rest ih => exact ih completing.1.masked completing.2

theorem guest_retire (count : Nat) :
    (backend.retire count).guest = Guest.tick^[count] backend.guest := by
  have step (count : Nat) (guest : Guest) :
      (Guest.tick^[count] guest) = ⟨Machine.completed^[count] guest.machine, guest.cpu⟩ := by
    induction count generalizing guest with
    | zero => rfl
    | succ count ih => rw [Function.iterate_succ_apply, Function.iterate_succ_apply, ih]; rfl
  exact (step count backend.guest).symm

/-- The exit of a batch without flags, IRQs masked: its instructions are retired. -/
theorem finishBatch_clear (engine : Engine) (tickDeadline : Option Nat)
    (stop : backend.callbackStop = none) (exception : backend.pendingException = none)
    (cp15 : backend.pendingCp15 = none) (masked : backend.cpu.irqsMasked = true) :
    (backend.finishBatch engine (.ok ()) tickDeadline).2 =
      backend.retire backend.executedInstructions := by
  have counted : backend.completedInstructions = backend.executedInstructions := by
    simp [completedInstructions, faultingInstruction, stop, exception, cp15]
  have accounted : backend.account = backend.retire backend.executedInstructions := by
    rw [account, counted, ← stop, ← exception, ← cp15]
  have quiet := backend.account.deliverIrq_masked masked
  rw [accounted] at quiet
  simp only [finishBatch, stop, exception, cp15, finishRun, accounted, quiet, ite_self]

/-- The instructions that `emu_start` may execute in a call. -/
def clippedBudget (backend : UnicornBackend) (call : RunCall) : Nat :=
  call.tickDeadline.elim call.budget fun deadline =>
    min call.budget (deadline - backend.machine.ticks)

/-- The values the guest reads from devices during a call. -/
def callReads (engine : Engine) (backend : UnicornBackend) (call : RunCall) : List U32 :=
  backend.clearFlags.readValues
    (engine.emuStart backend.clearFlags call.start call.stop (backend.clippedBudget call)).1

/-- A call whose deadline leaves its budget alone. -/
def Fits (backend : UnicornBackend) (call : RunCall) : Prop :=
  1 ≤ call.budget ∧
    ∀ deadline, call.tickDeadline = some deadline →
      backend.machine.ticks + call.budget ≤ deadline

theorem Fits.clippedBudget {backend : UnicornBackend} {call : RunCall} (fits : backend.Fits call) :
    backend.clippedBudget call = call.budget ∧ backend.deadlineReached call.tickDeadline = false := by
  unfold UnicornBackend.clippedBudget deadlineReached
  cases bound : call.tickDeadline with
  | none => exact ⟨rfl, rfl⟩
  | some deadline =>
    have room := fits.2 deadline bound
    have positive := fits.1
    constructor
    · exact min_eq_left (by omega)
    · simp only [Option.any_some, decide_eq_false_iff_not]
      omega

/-- One call is one batch of the program. -/
theorem call_batched {program : List GuestInstruction} {call : RunCall}
    (fresh : backend.deferredException = none) (masked : backend.cpu.irqsMasked = true)
    (fits : backend.Fits call)
    (completing : Completing (program.take call.budget) backend.guest)
    (enough : call.budget ≤ program.length) :
    (backend.call (programEngine program) call).2.guest =
        (batched GuestInstruction.execute Guest.tick (program.take call.budget)
          backend.guest).2 ∧
      callReads (programEngine program) backend call =
        (batched GuestInstruction.execute Guest.tick (program.take call.budget)
          backend.guest).1.reduceOption ∧
      (backend.call (programEngine program) call).2.deferredException = none ∧
      (backend.call (programEngine program) call).2.cpu.irqsMasked = true := by
  obtain ⟨whole, early⟩ := fits.clippedBudget
  obtain ⟨emulated, values⟩ := backend.clearFlags.emulate_program completing
  have still := masked_untimed masked completing
  have length : (program.take call.budget).length = call.budget := by
    rw [List.length_take, min_eq_left enough]
  have zero : backend.clearFlags.executedInstructions + (program.take call.budget).length =
      call.budget := (Nat.zero_add _).trans length
  rw [zero] at emulated
  have ran : backend.call (programEngine program) call =
      (backend.clearFlags.emulate (programEvents (program.take call.budget)
        backend.clearFlags.guest)).finishBatch (programEngine program) (.ok ())
          call.tickDeadline := by
    unfold UnicornBackend.clippedBudget at whole
    simp only [UnicornBackend.call, runWithTickDeadline, resumeDeferredException, fresh, early,
      Bool.false_eq_true, ↓reduceIte, backend.deliverIrq_masked masked, ite_self, runBatch,
      programEngine, whole]
  have after : (backend.call (programEngine program) call).2 =
      (backend.clearFlags.emulate (programEvents (program.take call.budget)
        backend.clearFlags.guest)).retire call.budget := by
    rw [ran, emulated]
    exact finishBatch_clear _ _ _ rfl rfl rfl still
  refine ⟨?_, ?_, ?_, ?_⟩
  · rw [after, guest_retire, emulated, batched, length]
    rfl
  · rw [callReads, whole]
    exact values
  · rw [after, emulated]
    exact fresh
  · rw [after, emulated]
    exact still

/-- The program run in these calls: the values read from devices, and the backend after. -/
def runCalls : List RunCall → List GuestInstruction → UnicornBackend → List U32 × UnicornBackend
  | [], _, backend => ([], backend)
  | call :: calls, program, backend =>
    let reads := callReads (programEngine program) backend call
    let (later, after) :=
      runCalls calls (program.drop call.budget) (backend.call (programEngine program) call).2
    (reads ++ later, after)

/-- The calls cut the whole program into batches whose instructions all complete. -/
def Cuts : List RunCall → List GuestInstruction → UnicornBackend → Prop
  | [], program, _ => program = []
  | call :: calls, program, backend =>
    backend.Fits call ∧ call.budget ≤ program.length ∧
      Completing (program.take call.budget) backend.guest ∧
      Cuts calls (program.drop call.budget) (backend.call (programEngine program) call).2

/-- No instruction of any batch notices a tick its batch has not applied yet. -/
def CutsCurrent : List RunCall → List GuestInstruction → UnicornBackend → Prop
  | [], _, _ => True
  | call :: calls, program, backend =>
    AllCurrent 0 (program.take call.budget) backend.guest ∧
      CutsCurrent calls (program.drop call.budget) (backend.call (programEngine program) call).2

/-- Such calls do what the instructions do one at a time. -/
theorem runCalls_interleaved {calls : List RunCall} {program : List GuestInstruction}
    (coherent : Coherent backend.machine.bus) (fresh : backend.deferredException = none)
    (masked : backend.cpu.irqsMasked = true) (cuts : Cuts calls program backend)
    (current : CutsCurrent calls program backend) :
    (runCalls calls program backend).1 =
        (interleaved GuestInstruction.execute Guest.tick program backend.guest).1.reduceOption ∧
      (runCalls calls program backend).2.guest =
        (interleaved GuestInstruction.execute Guest.tick program backend.guest).2 := by
  induction calls generalizing program backend with
  | nil =>
    obtain rfl : program = [] := cuts
    exact ⟨rfl, rfl⟩
  | cons call calls ih =>
    obtain ⟨fits, enough, completing, cuts⟩ := cuts
    obtain ⟨unnoticed, current⟩ := current
    obtain ⟨guest, reads, fresh, masked⟩ :=
      backend.call_batched fresh masked fits completing enough
    have later : Coherent (backend.call (programEngine program) call).2.guest.machine.bus :=
      guest ▸ coherent_batched coherent
    obtain ⟨laterReads, laterGuest⟩ := ih _ later fresh masked cuts current
    rw [batched_eq_interleaved _ _ (allSettle coherent completing unnoticed)] at guest reads
    rw [guest] at laterReads laterGuest
    have whole := interleaved_append GuestInstruction.execute Guest.tick
      (program.take call.budget) (program.drop call.budget) backend.guest
    rw [List.take_append_drop] at whole
    rw [whole]
    refine ⟨?_, laterGuest⟩
    rw [List.reduceOption_append, ← laterReads, ← reads]
    rfl

/-- Batch-size independence: two ways of cutting a program into batches give the same
values, the same machine and the same registers, as long as neither lets an instruction
notice a tick that its batch has not applied yet. -/
theorem batch_size_independence (program : List GuestInstruction) (backend : UnicornBackend)
    (first second : List RunCall) (coherent : Coherent backend.machine.bus)
    (fresh : backend.deferredException = none) (masked : backend.cpu.irqsMasked = true)
    (cuts : Cuts first program backend) (otherCuts : Cuts second program backend)
    (current : CutsCurrent first program backend)
    (otherCurrent : CutsCurrent second program backend) :
    (runCalls first program backend).1 = (runCalls second program backend).1 ∧
      (runCalls first program backend).2.machine = (runCalls second program backend).2.machine ∧
      (runCalls first program backend).2.cpu = (runCalls second program backend).2.cpu := by
  obtain ⟨reads, guest⟩ := backend.runCalls_interleaved coherent fresh masked cuts current
  obtain ⟨otherReads, otherGuest⟩ :=
    backend.runCalls_interleaved coherent fresh masked otherCuts otherCurrent
  have same := guest.trans otherGuest.symm
  exact ⟨reads.trans otherReads.symm, congrArg Guest.machine same, congrArg Guest.cpu same⟩

/-- `mov r0, r0`. -/
def plainInstruction : GuestInstruction where
  address := 0
  word := 0xe1a0_0000
  lookups _ := []
  access _ := none
  result cpu _ _ := (cpu, [])

/-- `str r1, [r0]`, where r0 is the address of a device register and r1 holds the value. -/
def storeInstruction (offset value : U32) : GuestInstruction where
  address := 4
  word := 0xe580_1000
  lookups _ := []
  access _ := some (.write offset value)
  result cpu _ _ := (cpu, [])

/-- A call for a batch of this size. -/
def batchOf (size : Nat) : RunCall := ⟨0, 0xffff_ffff, size, none⟩

theorem fits_batchOf {size : Nat} (positive : 1 ≤ size) : backend.Fits (batchOf size) :=
  ⟨positive, fun deadline bound => by cases bound⟩

theorem batch_size_independence_transmit :
    (runCalls [batchOf 1, batchOf 1] [plainInstruction, storeInstruction 0x4004 0x61]
      (.new .default)).2.machine =
    (runCalls [batchOf 2] [plainInstruction, storeInstruction 0x4004 0x61]
      (.new .default)).2.machine := by
  have first {guest : Guest} {instruction : GuestInstruction} (late : 0 ≠ 0) :
      instruction.Current guest (guest.machine.ticks + 0) := absurd rfl late
  refine (batch_size_independence [plainInstruction, storeInstruction 0x4004 0x61] (.new .default)
    [batchOf 1, batchOf 1] [batchOf 2] coherent_new rfl rfl ?_ ?_ ?_ ?_).2.1
  · exact ⟨fits_batchOf _ le_rfl, by decide, ⟨⟨rfl, rfl, rfl, rfl⟩, trivial⟩,
      fits_batchOf _ le_rfl, by decide, ⟨⟨rfl, rfl, rfl, rfl⟩, trivial⟩, rfl⟩
  · exact ⟨fits_batchOf _ (by decide), by decide, ⟨⟨rfl, rfl, rfl, rfl⟩, ⟨rfl, rfl, rfl, rfl⟩,
      trivial⟩, rfl⟩
  · exact ⟨⟨first, trivial⟩, ⟨first, trivial⟩, trivial⟩
  · refine ⟨⟨first, fun _ => ⟨.inl rfl, fun access issued => ?_⟩, trivial⟩, trivial⟩
    cases issued
    rfl

/-- An EVENT write behind a plain instruction is traced one tick earlier when the two run in
one batch. -/
theorem event_write_traced_early :
    Cuts [batchOf 1, batchOf 1] [plainInstruction, storeInstruction 0xf000 7]
      (.new .default) ∧
    Cuts [batchOf 2] [plainInstruction, storeInstruction 0xf000 7] (.new .default) ∧
    (runCalls [batchOf 1, batchOf 1] [plainInstruction, storeInstruction 0xf000 7]
      (.new .default)).2.machine.bus.trace.events = [⟨2, 7⟩] ∧
    (runCalls [batchOf 2] [plainInstruction, storeInstruction 0xf000 7]
      (.new .default)).2.machine.bus.trace.events = [⟨1, 7⟩] := by
  refine ⟨?_, ?_, rfl, rfl⟩
  · exact ⟨fits_batchOf _ le_rfl, by decide, ⟨⟨rfl, rfl, rfl, rfl⟩, trivial⟩,
      fits_batchOf _ le_rfl, by decide, ⟨⟨rfl, rfl, rfl, rfl⟩, trivial⟩, rfl⟩
  · exact ⟨fits_batchOf _ (by decide), by decide, ⟨⟨rfl, rfl, rfl, rfl⟩, ⟨rfl, rfl, rfl, rfl⟩,
      trivial⟩, rfl⟩

end UnicornBackend

end Minemu.Unicorn
