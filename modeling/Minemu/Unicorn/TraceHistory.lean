import Minemu.Core.TraceHistory
import Minemu.Unicorn.Attempts
import Minemu.Unicorn.BatchIndependence
import Minemu.Unicorn.MachineSteps

/-! Is the trace history what the guest wrote, and when it wrote it? The writes of a batch are all
committed by the first tick after it. -/

namespace Minemu.Unicorn

open Library Platform Minemu.Core

namespace EngineEvent

/-- The value an event writes to EVENT. -/
def eventWrite : EngineEvent → Option U32
  | mmioWrite offset size value =>
    (MmioWidth.ofBytes size).bind fun width =>
      Core.eventWrite (.write ⟨UnicornBackend.mmioBase + offset⟩ width value)
  | _ => none

/-- The EVENT writes among these events in program order, each with how many instructions had
begun. -/
def eventWrites : Nat → List EngineEvent → List (Nat × U32)
  | _, [] => []
  | begun, event :: events =>
    event.eventWrite.toList.map (Prod.mk (begun + event.isCode.toNat)) ++
      eventWrites (begun + event.isCode.toNat) events

end EngineEvent

namespace UnicornBackend

/-- Whether the last instruction a batch executed did not complete; a fetch that failed is one of
the next instruction. -/
def lastFailed (batch : UnicornBackend) : Bool :=
  batch.pendingCp15.any isUndefinedCp15 || batch.pendingException.isSome ||
    batch.callbackStop.any fun stop => isFaultStop stop && !stop.isFailedFetch

/-- The EVENT writes of the instructions a batch completed, each at the time just after its own
instruction. -/
def batchHistory (first : UnicornBackend) (events : List EngineEvent) : List TraceEvent :=
  let batch := first.emulate events
  ((EngineEvent.eventWrites 0 events).filter fun write =>
      !(batch.lastFailed && write.1 == batch.executedInstructions)).map
    fun write => ⟨first.machine.ticks + write.1, write.2⟩

/-- What the trace history owes a call. -/
def callHistory (engine : Engine) (backend : UnicornBackend) (call : RunCall) : List TraceEvent :=
  (backend.launch engine call).elim [] fun launched => launched.1.batchHistory launched.2.1

/-- Every EVENT write of a batch is one of its first instruction, which completes. -/
def PromptBatch (first : UnicornBackend) (events : List EngineEvent) : Prop :=
  ∀ write ∈ EngineEvent.eventWrites 0 events, write.1 = 1 ∧
    ¬((first.emulate events).lastFailed = true ∧ (first.emulate events).executedInstructions = 1)

def Prompt (engine : Engine) (backend : UnicornBackend) (call : RunCall) : Prop :=
  ∀ first events result, backend.launch engine call = some (first, events, result) →
    first.PromptBatch events

/-! ### What events stage -/

variable {first : UnicornBackend}

theorem event_stages (backend : UnicornBackend) (event : EngineEvent) :
    (backend.event event).machine.bus.trace = { backend.machine.bus.trace with
      staged := backend.machine.bus.trace.staged ++ event.eventWrite.toList } := by
  have kept : backend.machine.bus.trace = { backend.machine.bus.trace with
      staged := backend.machine.bus.trace.staged ++ [] } := by
    rw [List.append_nil]
  cases event with
  | native cpu stores | invalidInstruction => exact kept
  | code address size word =>
    have machine := (backend.instructionCounterCallback.trap_frame address size word).1
    exact (congrArg (fun machine : Machine => machine.bus.trace) machine).trans kept
  | tlb address memoryType =>
    refine Eq.trans ?_ kept
    simp only [UnicornBackend.event, virtualTlbCallback]
    split
    · rfl
    · split
      · split <;> rfl
      · rfl
  | mmioRead offset size =>
    refine Eq.trans ?_ kept
    simp only [UnicornBackend.event, mmioReadCallback]
    split
    · rfl
    · split
      · rename_i accepted
        rw [setBus, MmioBus.access_stages accepted]
        exact kept.symm
      · rfl
  | mmioWrite offset size value =>
    simp only [UnicornBackend.event, mmioWriteCallback, EngineEvent.eventWrite]
    split
    · rename_i none
      rw [none]
      exact kept
    · rename_i some
      rw [some]
      split
      · rename_i accepted
        exact MmioBus.access_stages accepted
      · rename_i rejected
        rw [Option.bind_some, MmioBus.eventWrite_rejected rejected]
        exact kept

theorem emulate_stages (backend : UnicornBackend) (events : List EngineEvent) (begun : Nat) :
    (backend.emulate events).machine.bus.trace = { backend.machine.bus.trace with
      staged := backend.machine.bus.trace.staged ++
        (EngineEvent.eventWrites begun events).map Prod.snd } := by
  induction events generalizing backend begun with
  | nil =>
    rw [EngineEvent.eventWrites, List.map_nil, List.append_nil]
    rfl
  | cons event events ih =>
    rw [emulate, List.foldl_cons, ← emulate, ih _ (begun + event.isCode.toNat), event_stages,
      EngineEvent.eventWrites, List.map_append, List.append_assoc]
    simp

/-- A write is never issued by more instructions than the batch executes. -/
theorem issuer_le {events : List EngineEvent} {begun : Nat} {write : Nat × U32}
    (member : write ∈ EngineEvent.eventWrites begun events) :
    write.1 ≤ begun + events.countP EngineEvent.isCode := by
  induction events generalizing begun with
  | nil => cases member
  | cons event events ih =>
    rw [EngineEvent.eventWrites, List.mem_append, List.mem_map] at member
    have counted : begun + (event :: events).countP EngineEvent.isCode =
        begun + event.isCode.toNat + events.countP EngineEvent.isCode := by
      rw [List.countP_cons]
      cases event.isCode with
      | false => simp
      | true =>
        simp only [↓reduceIte, Bool.toNat_true]
        omega
    rw [counted]
    rcases member with ⟨value, -, rfl⟩ | later
    · exact Nat.le_add_right _ _
    · exact ih later

/-! ### What exits commit -/

theorem retires_exitStep (machine : Machine) (label : ExitStep) :
    Machine.Retires machine (machine.exitStep label) := by
  cases label with
  | control mmu | claim => exact .still rfl rfl
  | finish outcome => exact machine.retires_finishInstruction outcome
  | enter kind pc => exact machine.retires_enterException kind pc

theorem Exits.retires {before after : UnicornBackend} (exits : Exits before after) :
    Machine.Retires before.machine after.machine := by
  have extended (machine : Machine) (label : ExitStep)
      (retires : Machine.Retires before.machine machine) :
      Machine.Retires before.machine (machine.exitStep label) :=
    retires.trans (retires_exitStep machine label)
  exact Leads.invariant extended exits (.refl _)

/-- Where the last instruction completed, either every instruction is accounted for or a failed
fetch is entered. -/
theorem paid_of_completed {batch : UnicornBackend} (completed : batch.lastFailed = false)
    (tickDeadline : Option Nat) : batch.faultingInstruction.toNat ≤ batch.exitCost tickDeadline := by
  unfold lastFailed at completed
  simp only [Bool.or_eq_false_iff] at completed
  obtain ⟨⟨defined, noException⟩, noFault⟩ := completed
  unfold faultingInstruction exitCost
  rw [defined, noException, Bool.false_or, Bool.false_or]
  cases batch.callbackStop with
  | none => exact Nat.zero_le _
  | some stop => exact le_rfl

/-- A batch with a write takes a tick, if its writes meet the condition. -/
theorem prompt_ticks {events : List EngineEvent} (fresh : first.executedInstructions = 0)
    (prompt : first.PromptBatch events) {write : Nat × U32}
    (member : write ∈ EngineEvent.eventWrites 0 events) (engine : Engine)
    (result : Except UcError Unit) (tickDeadline : Option Nat) :
    first.machine.ticks <
      ((first.emulate events).finishBatch engine result tickDeadline).2.machine.ticks := by
  obtain ⟨ticks, executed, -⟩ := first.emulate_frame events
  obtain ⟨issuer, completes⟩ := prompt write member
  have least := issuer_le member
  have account := (first.emulate events).ticks_account
  have discount := Bool.toNat_le (first.emulate events).faultingInstruction
  rw [ticks_finishBatch]
  unfold completedInstructions at account
  rw [fresh] at executed
  by_cases several : 2 ≤ (first.emulate events).executedInstructions
  · omega
  · have single : (first.emulate events).executedInstructions = 1 := by omega
    have completed : (first.emulate events).lastFailed = false := by
      rw [← Bool.not_eq_true]
      exact fun failed => completes ⟨failed, single⟩
    have paid := paid_of_completed completed tickDeadline
    omega

theorem batchHistory_eq (first : UnicornBackend) (events : List EngineEvent) :
    first.batchHistory events = ((EngineEvent.eventWrites 0 events).filter fun write =>
      !((first.emulate events).lastFailed &&
        write.1 == (first.emulate events).executedInstructions)).map
      fun write => ⟨first.machine.ticks + write.1, write.2⟩ := rfl

theorem length_batchHistory_le (first : UnicornBackend) (events : List EngineEvent) :
    (first.batchHistory events).length ≤ (EngineEvent.eventWrites 0 events).length := by
  rw [batchHistory_eq, List.length_map]
  exact List.length_filter_le _ _

/-- The history of a batch is all its writes, one tick in, exactly when they meet the condition. -/
theorem batchHistory_prompt (first : UnicornBackend) (events : List EngineEvent) :
    first.batchHistory events = ((EngineEvent.eventWrites 0 events).map Prod.snd).map
      (TraceEvent.mk (first.machine.ticks + 1)) ↔ first.PromptBatch events := by
  rw [batchHistory_eq, List.map_map]
  constructor
  · intro same write member
    have lengths := congrArg List.length same
    rw [List.length_map, List.length_map, List.length_filter_eq_length_iff] at lengths
    rw [List.filter_eq_self.mpr lengths] at same
    have issuer := List.map_inj_left.mp same write member
    have completes := lengths write member
    simp only [Function.comp_apply, TraceEvent.mk.injEq, Nat.add_left_cancel_iff, and_true] at issuer
    rw [issuer, Bool.not_eq_true', ← Bool.not_eq_true, Bool.and_eq_true, beq_iff_eq] at completes
    exact ⟨issuer, fun failed => completes ⟨failed.1, failed.2.symm⟩⟩
  · intro prompt
    rw [List.filter_eq_self.mpr]
    · refine List.map_congr_left fun write member => ?_
      rw [(prompt write member).1]
      rfl
    · intro write member
      obtain ⟨issuer, completes⟩ := prompt write member
      rw [issuer, Bool.not_eq_true', ← Bool.not_eq_true, Bool.and_eq_true, beq_iff_eq]
      exact fun failed => completes ⟨failed.1, failed.2.symm⟩

/-- A batch whose writes meet the condition adds its history to the log. -/
theorem retains_batch {size : Nat} {log : List TraceEvent} {events : List EngineEvent}
    (retains : first.machine.bus.trace.Retains size log) (fresh : first.executedInstructions = 0)
    (prompt : first.PromptBatch events) (engine : Engine) (result : Except UcError Unit)
    (tickDeadline : Option Nat) :
    ((first.emulate events).finishBatch engine result tickDeadline).2.machine.bus.trace.Retains
      size (log ++ first.batchHistory events) := by
  have exits := ((first.emulate events).exits_finishBatch engine result tickDeadline).retires
  have ticks := (first.emulate_frame events).1
  have staged := first.emulate_stages events 0
  rw [retains.staged, List.nil_append] at staged
  rw [(first.batchHistory_prompt events).mpr prompt]
  cases writes : EngineEvent.eventWrites 0 events with
  | nil =>
    rw [writes, List.map_nil] at staged
    have same : (first.emulate events).machine.bus.trace.Retains size log := by
      rw [staged]
      exact ⟨rfl, retains.capacity, retains.events⟩
    rw [List.map_nil, List.map_nil, List.append_nil]
    exact exits.retains same
  | cons write later =>
    have member : write ∈ EngineEvent.eventWrites 0 events := by
      rw [writes]
      exact List.mem_cons_self
    have passed := prompt_ticks fresh prompt member engine result tickDeadline
    rw [exits.trace, if_neg (by omega), staged, ticks, writes]
    exact TraceDevice.retains_retire retains _ _

/-- The condition is exact where the history has room: a batch that does not meet it adds
something else to the log, or leaves it staged. -/
theorem retains_batch_iff {size : Nat} {log : List TraceEvent} {events : List EngineEvent}
    (retains : first.machine.bus.trace.Retains size log) (fresh : first.executedInstructions = 0)
    (room : log.length + (EngineEvent.eventWrites 0 events).length ≤ size) (engine : Engine)
    (result : Except UcError Unit) (tickDeadline : Option Nat) :
    ((first.emulate events).finishBatch engine result tickDeadline).2.machine.bus.trace.Retains
      size (log ++ first.batchHistory events) ↔ first.PromptBatch events := by
  refine ⟨fun after => ?_, fun prompt =>
    retains_batch retains fresh prompt engine result tickDeadline⟩
  have trace := ((first.emulate events).exits_finishBatch engine result tickDeadline).retires.trace
  have staged := first.emulate_stages events 0
  rw [retains.staged, List.nil_append] at staged
  rw [staged, (first.emulate_frame events).1] at trace
  by_cases still : ((first.emulate events).finishBatch engine result tickDeadline).2.machine.ticks =
      first.machine.ticks
  · have nothing := after.staged
    rw [trace, if_pos still, List.map_eq_nil_iff] at nothing
    intro write member
    rw [nothing] at member
    cases member
  · rw [if_neg still] at trace
    have committed := (TraceDevice.retains_retire retains
      ((EngineEvent.eventWrites 0 events).map Prod.snd) (first.machine.ticks + 1)).events
    rw [← trace, after.events] at committed
    have whole (more : List TraceEvent)
        (fits : more.length ≤ (EngineEvent.eventWrites 0 events).length) :
        (log ++ more).rtake size = log ++ more := by
      rw [List.rtake, List.length_append, Nat.sub_eq_zero_of_le (by omega), List.drop_zero]
    rw [whole _ (first.length_batchHistory_le events),
      whole _ (by rw [List.length_map, List.length_map])] at committed
    exact (first.batchHistory_prompt events).mp (List.append_cancel_left committed)

/-! ### Calls -/

variable {engine : Engine} {backend : UnicornBackend} {call : RunCall}

/-- Claiming no IRQ leaves time and the trace device alone. -/
theorem starting_still (backend : UnicornBackend) (tickDeadline : Option Nat)
    (quiet : (if tickDeadline.isSome = true then backend.deliverIrq else (none, backend)).1 = none) :
    let first := (if tickDeadline.isSome = true then backend.deliverIrq else (none, backend)).2
    first.machine.ticks = backend.machine.ticks ∧
      first.machine.bus.trace = backend.machine.bus.trace := by
  have ticks := backend.starting_ticks tickDeadline quiet
  refine ⟨ticks, ?_⟩
  have exits : Exits backend
      (if tickDeadline.isSome = true then backend.deliverIrq else (none, backend)).2 := by
    split
    · exact backend.exits_deliverIrq
    · exact .refl _ _
  have trace := exits.retires.trace
  rwa [if_pos ticks] at trace

/-- What a call that gets to its batch starts it from has the time and the trace device of the
backend; the call finishes that batch. -/
theorem call_launched {events : List EngineEvent} {result : Except UcError Unit}
    (launched : backend.launch engine call = some (first, events, result)) :
    first.machine.ticks = backend.machine.ticks ∧
      first.machine.bus.trace = backend.machine.bus.trace ∧ first.executedInstructions = 0 ∧
      backend.call engine call =
        (first.emulate events).finishBatch engine result call.tickDeadline := by
  obtain ⟨-, start, delivered, rfl, -, called⟩ := launch_cases launched
  obtain ⟨ticks, trace⟩ := backend.starting_still call.tickDeadline (by rw [delivered])
  rw [delivered] at ticks trace
  exact ⟨ticks, trace, rfl, called⟩

/-- A call that does not get to a batch commits at most what was staged. -/
theorem call_idle_retires (idle : backend.launch engine call = none) :
    Machine.Retires backend.machine (backend.call engine call).2.machine := by
  have resumed := backend.exits_resumeDeferredException call.tickDeadline
  unfold launch at idle
  unfold UnicornBackend.call runWithTickDeadline
  generalize backend.resumeDeferredException call.tickDeadline = resumption at idle resumed ⊢
  obtain ⟨stop, before⟩ := resumption
  cases stop with
  | some stop => exact resumed.retires
  | none =>
    simp only at idle ⊢
    by_cases early : before.deadlineReached call.tickDeadline = true
    · rw [if_pos early]
      exact resumed.retires
    · rw [if_neg early] at idle ⊢
      have delivered : Exits before
          (if call.tickDeadline.isSome = true then before.deliverIrq else (none, before)).2 := by
        split
        · exact before.exits_deliverIrq
        · exact .refl _ _
      generalize (if call.tickDeadline.isSome = true then before.deliverIrq
        else (none, before)) = start at idle delivered ⊢
      obtain ⟨irq, first⟩ := start
      have exits : Exits backend first := resumed.trans delivered
      cases irq with
      | some stop => exact exits.retires
      | none =>
        cases exited : engine.setExits first (exitsOf call.stop) with
        | error error =>
          simp only [runBatch, exited]
          exact exits.retires
        | ok exit => simp only [exited, reduceCtorEq] at idle

/-- A call whose writes meet the condition adds its history to the log. -/
theorem retains_call {size : Nat} {log : List TraceEvent}
    (retains : backend.machine.bus.trace.Retains size log) (prompt : Prompt engine backend call) :
    (backend.call engine call).2.machine.bus.trace.Retains size
      (log ++ callHistory engine backend call) := by
  cases launched : backend.launch engine call with
  | none =>
    rw [callHistory, launched, Option.elim_none, List.append_nil]
    exact (call_idle_retires launched).retains retains
  | some batch =>
    obtain ⟨first, events, result⟩ := batch
    obtain ⟨-, trace, fresh, called⟩ := call_launched launched
    rw [callHistory, launched, Option.elim_some, called]
    rw [← trace] at retains
    exact retains_batch retains fresh (prompt first events result launched) engine result _

end UnicornBackend

/-- A backend and the EVENT writes its instructions have completed. -/
structure Traced where
  backend : UnicornBackend
  log : List TraceEvent

namespace Traced

open UnicornBackend

/-- One call, on the engine as it is then. -/
def step (state : Traced) (call : Engine × RunCall) : Traced where
  backend := (state.backend.call call.1 call.2).2
  log := state.log ++ callHistory call.1 state.backend call.2

/-- As long as every EVENT write of a batch is one of its first instruction, which completes, the
trace history is the newest 4096 EVENT writes of completed instructions, in program order, each at
the time just after its own instruction. -/
theorem trace_history_faithful (backend : UnicornBackend) (calls : List (Engine × RunCall))
    (fresh : backend.machine.bus.trace = .new 4096)
    (prompt : Throughout step (fun state call => Prompt call.1 state.backend call.2)
      ⟨backend, []⟩ calls) :
    ∀ state ∈ visited step ⟨backend, []⟩ calls,
      state.backend.machine.bus.trace.events = state.log.rtake 4096 := by
  have stepped (state : Traced) (call : Engine × RunCall)
      (prompt : Prompt call.1 state.backend call.2)
      (retains : state.backend.machine.bus.trace.Retains 4096 state.log) :
      (state.step call).backend.machine.bus.trace.Retains 4096 (state.step call).log :=
    retains_call retains prompt
  have initial : backend.machine.bus.trace.Retains 4096 [] := by
    rw [fresh]
    exact TraceDevice.retains_new 4096
  intro state member
  exact (throughout_invariant stepped ⟨backend, []⟩ calls initial prompt state member).events

theorem trace_history_faithful_store :
    (run step ⟨.new .default, []⟩ [(programEngine [storeInstruction 0xf000 7], batchOf 1)]
      ).backend.machine.bus.trace.events = [⟨1, 7⟩] := by
  have prompt : Prompt (programEngine [storeInstruction 0xf000 7]) (.new .default) (batchOf 1) := by
    intro first events result launched write member
    cases launched
    have only : write = (1, 7) := List.mem_singleton.mp member
    subst only
    exact ⟨rfl, by decide⟩
  exact trace_history_faithful (.new .default)
    [(programEngine [storeInstruction 0xf000 7], batchOf 1)] rfl ⟨prompt, trivial⟩ _
    (run_mem_visited _ _ _)

/-- An engine whose batch stores 7 to EVENT and 8 to an address without a register, both by one
instruction. -/
def storePairEngine : Engine where
  setExits _ _ := .ok ()
  flushTlb _ := .ok ()
  emuStart _ _ _ _ := ([.code 0 4 (some 0xe880_0006), .mmioWrite 0xf000 4 7, .mmioWrite 0xf004 4 8],
    .ok ())

/-- An EVENT write of a batch's second instruction is traced at the time of its first, and one of
an instruction that faults is traced although the instruction does not complete. -/
theorem event_write_stamped_early :
    let second := run step ⟨.new .default, []⟩
      [(programEngine [plainInstruction, storeInstruction 0xf000 7], batchOf 2)]
    let faulting := run step ⟨.new .default, []⟩ [(storePairEngine, batchOf 1)]
    second.backend.machine.bus.trace.events = [⟨1, 7⟩] ∧ second.log.rtake 4096 = [⟨2, 7⟩] ∧
      faulting.backend.machine.bus.trace.events = [⟨1, 7⟩] ∧ faulting.log.rtake 4096 = [] :=
  ⟨rfl, rfl, rfl, rfl⟩

end Traced

end Minemu.Unicorn
