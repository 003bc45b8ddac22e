import Minemu.Core.ClaimHistory
import Minemu.Unicorn.MachineSteps

/-! When the adapter enters the IRQ vector: where a call tries delivery with IRQs unmasked, for a
claim that is either new or still retained. Only a retained claim can be for nothing. -/

namespace Minemu.Unicorn

open Library Platform Minemu.Core InterruptLevels

/-! ### The moments of a run -/

/-- What can happen to the interrupt controller of a backend: an event of the engine, an attempt
at delivery, an operation of the host. -/
inductive Act where
  | event (event : EngineEvent)
  | deliver
  | host (operation : BusStep)

/-- An act and the backend it happens to. -/
structure Moment where
  backend : UnicornBackend
  act : Act

/-- The bus transaction behind an event, if there is one. -/
def EngineEvent.transaction : EngineEvent → Option MmioTransaction
  | .mmioRead offset size =>
    (MmioWidth.ofBytes size).map fun width => .read ⟨UnicornBackend.mmioBase + offset⟩ width
  | .mmioWrite offset size value =>
    (MmioWidth.ofBytes size).map fun width => .write ⟨UnicornBackend.mmioBase + offset⟩ width value
  | _ => none

/-- The moves of the claim handshake in one moment. -/
def Moment.handshakes (moment : Moment) : List Handshake :=
  let bus := moment.backend.machine.bus
  match moment.act with
  | .event event =>
    event.transaction.elim [] fun transaction =>
      bus.handshakes transaction moment.backend.machine.ticks
  | .deliver =>
    if moment.backend.cpu.irqsMasked then [] else Handshake.handed bus.interrupts.claimSource.1
  | .host operation => operation.handshakes bus

namespace UnicornBackend

/-- The events of a batch, each with the backend it finds. -/
def emulateMoments (backend : UnicornBackend) : List EngineEvent → List Moment
  | [] => []
  | event :: events => ⟨backend, .event event⟩ :: (backend.event event).emulateMoments events

/-- The delivery at the end of a batch, tried if no flag stopped it and the deadline is ahead. -/
def endMoments (backend : UnicornBackend) (tickDeadline : Option Nat) : List Moment :=
  match backend.callbackStop, backend.pendingException, backend.pendingCp15 with
  | none, none, none =>
    if backend.account.deadlineReached tickDeadline then [] else [⟨backend.account, .deliver⟩]
  | _, _, _ => []

def batchMoments (engine : Engine) (backend : UnicornBackend) (start stop : U32)
    (instructionBudget : Nat) (tickDeadline : Option Nat) : List Moment :=
  let instructionBudget := tickDeadline.elim instructionBudget fun deadline =>
    min instructionBudget (deadline - backend.machine.ticks)
  match engine.setExits backend (exitsOf stop) with
  | .error _ => []
  | .ok () =>
    let backend := backend.clearFlags
    let events := (engine.emuStart backend start stop instructionBudget).1
    backend.emulateMoments events ++ (backend.emulate events).endMoments tickDeadline

end UnicornBackend

/-- One call of the adapter. -/
structure Call where
  backend : UnicornBackend
  start : U32
  stop : U32
  instructionBudget : Nat
  tickDeadline : Option Nat

namespace Call

/-- The exit of the call, and the backend it leaves. -/
def outcome (engine : Engine) (call : Call) : BackendStop × UnicornBackend :=
  call.backend.runWithTickDeadline engine call.start call.stop call.instructionBudget
    call.tickDeadline

/-- What happens during the call, in order. -/
def moments (engine : Engine) (call : Call) : List Moment :=
  match call.backend.resumeDeferredException call.tickDeadline with
  | (some _, _) => []
  | (none, backend) =>
    if backend.deadlineReached call.tickDeadline then []
    else if call.tickDeadline.isSome then
      ⟨backend, .deliver⟩ :: match backend.deliverIrq with
        | (some _, _) => []
        | (none, after) =>
          after.batchMoments engine call.start call.stop call.instructionBudget call.tickDeadline
    else backend.batchMoments engine call.start call.stop call.instructionBudget call.tickDeadline

end Call

/-- What happens to a backend: a call, or what the host does to it between calls. -/
inductive Operation where
  | call (start stop : U32) (instructionBudget : Nat) (tickDeadline : Option Nat)
  | bus (operation : BusStep)
  | lookup (address : U32) (memoryType : MemType)
  | setRegister (register : Register) (value : U32)

namespace UnicornBackend

def operate (engine : Engine) (backend : UnicornBackend) : Operation → UnicornBackend
  | .call start stop instructionBudget tickDeadline =>
    (Call.outcome engine ⟨backend, start, stop, instructionBudget, tickDeadline⟩).2
  | .bus operation => backend.setBus (InterruptLevels.step backend.machine.bus operation)
  | .lookup address memoryType => (backend.virtualTlbCallback address memoryType).2
  | .setRegister register value => backend.setRegister register value

/-- What happens in one operation. -/
def operationMoments (engine : Engine) (backend : UnicornBackend) : Operation → List Moment
  | .call start stop instructionBudget tickDeadline =>
    Call.moments engine ⟨backend, start, stop, instructionBudget, tickDeadline⟩
  | .bus operation => [⟨backend, .host operation⟩]
  | .lookup _ _ | .setRegister _ _ => []

/-- What happens in a run. -/
def history (engine : Engine) (backend : UnicornBackend) : List Operation → List Moment
  | [] => []
  | operation :: operations =>
    backend.operationMoments engine operation ++
      history engine (backend.operate engine operation) operations

/-- The calls of a run. -/
def calls (engine : Engine) (backend : UnicornBackend) : List Operation → List Call
  | [] => []
  | .call start stop instructionBudget tickDeadline :: operations =>
    let call : Call := ⟨backend, start, stop, instructionBudget, tickDeadline⟩
    call :: calls engine (call.outcome engine).2 operations
  | operation :: operations => calls engine (backend.operate engine operation) operations

/-- Some source is pending and enabled. -/
def HasClaimable (backend : UnicornBackend) : Prop :=
  ∃ source, backend.machine.bus.interrupts.Claimable source

/-- Some interrupt line is high and enabled. -/
def Raised (backend : UnicornBackend) : Prop :=
  ∃ source, backend.machine.bus.level source = true ∧
    backend.machine.bus.interrupts.enabled.getLsbD source.id.toNat = true

end UnicornBackend

/-- A run whose guest has completed what it acknowledged whenever delivery is tried with IRQs
unmasked, or else some line is high and enabled. -/
def Disciplined (moments : List Moment) : Prop :=
  ∀ before boundary after, moments = before ++ ⟨boundary, .deliver⟩ :: after →
    boundary.cpu.irqsMasked = true ∨
      Handshake.outstanding (before.flatMap Moment.handshakes) = none ∨ boundary.Raised

/-- A call that ends in the IRQ vector got there out of its last moment, where IRQs were unmasked
and some source was pending and enabled. -/
def Call.Genuine (engine : Engine) (call : Call) : Prop :=
  (call.outcome engine).1 = .exception .interrupt →
    ∃ boundary, (call.moments engine).getLast? = some ⟨boundary, .deliver⟩ ∧
      boundary.deliverIrq = (some (.exception .interrupt), (call.outcome engine).2) ∧
      boundary.cpu.irqsMasked = false ∧ boundary.HasClaimable

/-! ### What a run keeps -/

/-- A backend whose claim is the one its history leaves, and none of whose flags would enter the
IRQ vector: only delivery does. -/
structure Ready (held : Option Source) (backend : UnicornBackend) : Prop where
  wired : backend.machine.Wired held
  stop : ∀ kind, backend.callbackStop ≠ some (.exception kind)
  pending : ∀ pc, backend.pendingException ≠ some (.synchronous .interrupt pc)
  deferred : ∀ pc, backend.deferredException ≠ some (.interrupt, pc)

/-- The source that is held after these moments. -/
def followed (held : Option Source) (moments : List Moment) : Option Source :=
  (moments.flatMap Moment.handshakes).foldl Handshake.follow held

/-- Moments that lead to a backend: each finds the claim its predecessors leave. -/
def Traces : Option Source → List Moment → UnicornBackend → Prop
  | held, [], last => Ready held last
  | held, moment :: moments, last =>
    Ready held moment.backend ∧ Traces (followed held [moment]) moments last

variable {held : Option Source} {backend middle after : UnicornBackend} {engine : Engine}

theorem followed_append (first second : List Moment) :
    followed held (first ++ second) = followed (followed held first) second := by
  rw [followed, List.flatMap_append, List.foldl_append]
  rfl

theorem Traces.append {first second : List Moment} (traces : Traces held first middle)
    (further : ∀ held, Ready held middle → Traces held second after) :
    Traces held (first ++ second) after := by
  induction first generalizing held with
  | nil => exact further held traces
  | cons moment first ih => exact ⟨traces.1, ih traces.2⟩

/-- Every moment finds the claim that the moments before it leave. -/
theorem Traces.split {before later : List Moment} {moment : Moment}
    (traces : Traces held (before ++ moment :: later) after) :
    Ready (followed held before) moment.backend := by
  induction before generalizing held with
  | nil => exact traces.1
  | cons first before ih =>
    have found := ih traces.2
    rwa [← followed_append] at found

theorem Traces.ready {moments : List Moment} (traces : Traces held moments after) :
    ∃ outstanding, Ready outstanding after := by
  induction moments generalizing held with
  | nil => exact ⟨held, traces⟩
  | cons moment moments ih => exact ih traces.2

namespace UnicornBackend

/-! ### Events -/

theorem ready_new (memory : PhysicalMemory) (eventCapacity : Nat) :
    Ready none (.new (.new memory eventCapacity)) :=
  ⟨MmioBus.wired_new, fun _ => by simp [new], fun _ => by simp [new], fun _ => by simp [new]⟩

theorem ready_tlb (ready : Ready held backend) (address : U32) (memoryType : MemType) :
    Ready held (backend.virtualTlbCallback address memoryType).2 := by
  unfold virtualTlbCallback
  split
  · exact ready
  · simp only
    split
    · split
      · exact ⟨ready.wired, fun _ => by simp, ready.pending, ready.deferred⟩
      · exact ⟨ready.wired, ready.stop, ready.pending, ready.deferred⟩
    · exact ⟨ready.wired, fun _ => by simp, ready.pending, ready.deferred⟩

theorem ready_trap (ready : Ready held backend) (address : U32) (size : Nat) (word : Option U32) :
    Ready held (backend.a32SynchronousTrapCallback address size word) := by
  unfold a32SynchronousTrapCallback
  split
  · exact ready
  · split
    · exact ready
    · simp only
      split
      · exact ⟨ready.wired, fun _ => by simp, ready.pending, ready.deferred⟩
      · split
        · exact ⟨ready.wired, ready.stop, fun _ => by simp [setRegister], ready.deferred⟩
        · unfold cp15Trap
          split
          · exact ready
          · exact ⟨ready.wired, ready.stop, ready.pending, ready.deferred⟩

theorem ready_mmioFault (ready : Ready held backend) (address : U32) (access : Access)
    (detail : MmioDetail) : Ready held (backend.recordMmioFault address access detail) :=
  ⟨ready.wired, fun _ => by simp [recordMmioFault], ready.pending, ready.deferred⟩

/-- An access that is carried out moves the claim as its transaction says. -/
theorem ready_accepted (ready : Ready held backend) {transaction : MmioTransaction}
    {value : Option U32} {bus : MmioBus}
    (accessed : backend.machine.bus.access transaction backend.machine.ticks = .ok (value, bus)) :
    Ready ((backend.machine.bus.handshakes transaction backend.machine.ticks).foldl
      Handshake.follow held) (backend.setBus bus) := by
  have stepped := MmioBus.Wired.step ready.wired (.access transaction backend.machine.ticks)
  simp only [InterruptLevels.step, accessed] at stepped
  exact ⟨stepped, ready.stop, ready.pending, ready.deferred⟩

/-- An access that is refused does, too: it moves nothing. -/
theorem ready_refused (ready : Ready held backend) {transaction : MmioTransaction}
    {error : CoreError} (address : U32) (access : Access) (detail : MmioDetail)
    (accessed : backend.machine.bus.access transaction backend.machine.ticks = .error error) :
    Ready ((backend.machine.bus.handshakes transaction backend.machine.ticks).foldl
      Handshake.follow held) (backend.recordMmioFault address access detail) := by
  have stepped := MmioBus.Wired.step ready.wired (.access transaction backend.machine.ticks)
  simp only [InterruptLevels.step, accessed] at stepped
  exact ready_mmioFault ⟨stepped, ready.stop, ready.pending, ready.deferred⟩ address access detail

/-- An event moves the claim as its moment says. -/
theorem ready_event (ready : Ready held backend) (event : EngineEvent) :
    Ready (followed held [⟨backend, .event event⟩]) (backend.event event) := by
  have alone : followed held [⟨backend, .event event⟩] =
      (event.transaction.elim [] fun transaction =>
        backend.machine.bus.handshakes transaction backend.machine.ticks).foldl
          Handshake.follow held := by
    simp only [followed, List.flatMap_cons, List.flatMap_nil, List.append_nil, Moment.handshakes]
  rw [alone]
  cases event with
  | native cpu stores => exact ⟨ready.wired, ready.stop, ready.pending, ready.deferred⟩
  | code address size word =>
    have counted : Ready held backend.instructionCounterCallback :=
      ⟨ready.wired, ready.stop, ready.pending, ready.deferred⟩
    exact ready_trap counted address size word
  | tlb address memoryType => exact ready_tlb ready address memoryType
  | invalidInstruction =>
    exact ⟨ready.wired, ready.stop,
      fun _ => by simp [event, invalidInstructionCallback, setRegister], ready.deferred⟩
  | mmioRead offset size =>
    simp only [event, mmioReadCallback, EngineEvent.transaction]
    cases MmioWidth.ofBytes size with
    | none => exact ready_mmioFault ready _ _ _
    | some width =>
      simp only [Option.map_some, Option.elim_some]
      cases accessed : backend.machine.bus.access (.read ⟨mmioBase + offset⟩ width)
        backend.machine.ticks with
      | error error => exact ready_refused ready _ _ _ accessed
      | ok result => exact ready_accepted ready accessed
  | mmioWrite offset size value =>
    simp only [event, mmioWriteCallback, EngineEvent.transaction]
    cases MmioWidth.ofBytes size with
    | none => exact ready_mmioFault ready _ _ _
    | some width =>
      simp only [Option.map_some, Option.elim_some]
      cases accessed : backend.machine.bus.access (.write ⟨mmioBase + offset⟩ width value)
        backend.machine.ticks with
      | error error => exact ready_refused ready _ _ _ accessed
      | ok result => exact ready_accepted ready accessed

theorem traces_emulate (ready : Ready held backend) (events : List EngineEvent) :
    Traces held (backend.emulateMoments events) (backend.emulate events) := by
  induction events generalizing held backend with
  | nil => exact ready
  | cons event events ih => exact ⟨ready, ih (ready_event ready event)⟩

/-! ### Exits -/

/-- An outcome that is no entry of the IRQ vector. -/
structure Declines (held : Option Source) (outcome : BackendStop × UnicornBackend) : Prop where
  exit : outcome.1 ≠ .exception .interrupt
  ready : Ready held outcome.2

theorem ready_account (ready : Ready held backend) : Ready held backend.account where
  wired := by
    have retired (count : Nat) (machine : Machine) (wired : machine.Wired held) :
        ((fun machine : Machine => (machine.finishInstruction .completed).2)^[count]
          machine).Wired held := by
      induction count generalizing machine with
      | zero => exact wired
      | succ count ih => exact ih _ (wired.finishInstruction .completed)
    exact retired backend.completedInstructions backend.machine ready.wired
  stop _ := by simp [account, retire]
  pending _ := by simp [account, retire]
  deferred := ready.deferred

theorem ready_finishInstruction (ready : Ready held backend) (outcome : InstructionOutcome) :
    Ready held (backend.finishInstruction outcome).2 :=
  ⟨ready.wired.finishInstruction outcome, ready.stop, ready.pending, ready.deferred⟩

theorem ready_enterException (ready : Ready held backend) (plan : ExceptionPlan) :
    Ready held (backend.enterException plan) :=
  ⟨ready.wired, ready.stop, ready.pending, ready.deferred⟩

theorem declines_synchronous (ready : Ready held backend) {kind : ExceptionKind}
    (other : kind ≠ .interrupt) (pc : VirtualAddress) (tickDeadline : Option Nat) :
    Declines held (backend.finishSynchronousException kind pc tickDeadline) := by
  unfold finishSynchronousException
  split
  · have retired := ready_finishInstruction ready .completed
    exact ⟨by simp, retired.wired, retired.stop, retired.pending, fun _ => by simp [other]⟩
  · have finished := ready_finishInstruction ready (.synchronousException kind pc)
    rcases retired : backend.finishInstruction (.synchronousException kind pc) with
      ⟨_ | plan, after⟩
    · rw [retired] at finished
      exact ⟨by simp [other], finished⟩
    · rw [retired] at finished
      exact ⟨by simp [other], ready_enterException finished plan⟩

theorem declines_fault (ready : Ready held backend) (fault : MmuFault)
    (tickDeadline : Option Nat) :
    Declines held (backend.finishPendingException (.fault fault) tickDeadline) := by
  refine ⟨?_, ready.wired.finishInstruction (.fault fault _), ready.stop, ready.pending,
    ready.deferred⟩
  simp only [finishPendingException, finishInstruction, Machine.finishInstruction,
    ExceptionPlan.fault]
  split
  · simp [ExceptionRequest.abort]
  · simp [ExceptionRequest.abort]

theorem declines_pending (ready : Ready held backend) {exception : PendingException}
    (other : ∀ pc, exception ≠ .synchronous .interrupt pc) (tickDeadline : Option Nat) :
    Declines held (backend.finishPendingException exception tickDeadline) := by
  cases exception with
  | fault fault => exact declines_fault ready fault tickDeadline
  | synchronous kind pc =>
    refine declines_synchronous ready (fun same => ?_) ⟨pc⟩ tickDeadline
    exact other pc (by rw [same])

theorem declines_callbackStop (ready : Ready held backend) {stop : BackendStop}
    (other : ∀ kind, stop ≠ .exception kind) (tickDeadline : Option Nat) :
    Declines held (backend.finishCallbackStop stop tickDeadline) := by
  cases stop with
  | mmuFault fault => exact declines_fault ready fault tickDeadline
  | mmioFault address access detail =>
    have recorded : Ready held { backend with machine := { backend.machine with
        mmu := (backend.machine.mmu.recordInvalidMmioFault ⟨address⟩ access backend.userMode).2 } } :=
      ⟨ready.wired, ready.stop, ready.pending, ready.deferred⟩
    exact declines_fault recorded _ tickDeadline
  | exception kind => exact absurd rfl (other kind)
  | instructionBudget | breakpoint address immediate | cp15Boundary | unicorn error =>
    exact ⟨by simp [finishCallbackStop], ready⟩

theorem declines_cp15 (ready : Ready held backend) (engine : Engine) (pending : PendingCp15)
    (tickDeadline : Option Nat) :
    Declines held (backend.finishCp15 engine pending tickDeadline) := by
  cases pending with
  | operation operation =>
    unfold finishCp15
    simp only
    split
    · exact ⟨by simp, ready.wired, ready.stop, ready.pending, ready.deferred⟩
    · exact ⟨by simp, ready.wired, ready.stop, ready.pending, ready.deferred⟩
  | readFaultStatus register | readFaultAddress register =>
    exact ⟨by simp [finishCp15], ready.wired, ready.stop, ready.pending, ready.deferred⟩
  | undefined pc => exact declines_synchronous ready (by decide) ⟨pc⟩ tickDeadline

/-! ### Delivery -/

/-- Delivery enters the vector with IRQs unmasked, for a retained or a claimable source. -/
theorem deliverIrq_enters : backend.deliverIrq.1 ≠ none ↔ backend.cpu.irqsMasked = false ∧
    (backend.machine.bus.interrupts.claim ≠ none ∨ backend.HasClaimable) := by
  have entered : backend.deliverIrq.1 ≠ none ↔ backend.cpu.irqsMasked = false ∧
      backend.machine.bus.interrupts.claimSource.1 ≠ none := by
    unfold deliverIrq
    by_cases masked : backend.cpu.irqsMasked = true
    · rw [if_pos (bne_iff_ne.mp masked), masked]
      simp only [ne_eq, not_true_eq_false, Bool.true_eq_false, false_and]
    · rw [if_neg fun set => masked (bne_iff_ne.mpr set), Bool.eq_false_of_not_eq_true masked]
      simp only [true_and]
      cases backend.machine.bus.interrupts.claimSource.1 <;> simp only [ne_eq, reduceCtorEq,
        not_true_eq_false, not_false_eq_true]
  rw [entered]
  refine and_congr_right fun _ => ?_
  cases active : backend.machine.bus.interrupts.claim with
  | some source => simp [InterruptController.claimSource_retained active]
  | none =>
    have fresh := (InterruptController.claim_selected active).1
    rw [ne_eq, fresh, not_forall_not]
    simp [HasClaimable]

/-- Delivery has one exit. -/
theorem deliverIrq_exit {exit : BackendStop} (delivered : backend.deliverIrq.1 = some exit) :
    exit = .exception .interrupt := by
  unfold deliverIrq at delivered
  split at delivered
  · cases delivered
  · simp only at delivered
    split at delivered
    · cases delivered
    · exact (Option.some.inj delivered).symm

/-- Delivery acknowledges the source it is for. -/
theorem ready_deliver (ready : Ready held backend) :
    Ready (followed held [⟨backend, .deliver⟩]) backend.deliverIrq.2 := by
  have alone : followed held [⟨backend, .deliver⟩] = (if backend.cpu.irqsMasked then []
      else Handshake.handed backend.machine.bus.interrupts.claimSource.1).foldl Handshake.follow
        held := by
    simp only [followed, List.flatMap_cons, List.flatMap_nil, List.append_nil, Moment.handshakes]
  rw [alone]
  unfold deliverIrq
  by_cases masked : backend.cpu.irqsMasked = true
  · rw [if_pos (bne_iff_ne.mp masked), if_pos masked]
    exact ready
  · rw [if_neg fun set => masked (bne_iff_ne.mpr set), if_neg masked]
    have claimed : Machine.Wired
        ((Handshake.handed backend.machine.bus.interrupts.claimSource.1).foldl Handshake.follow held)
        (backend.setBus { backend.machine.bus with
          interrupts := backend.machine.bus.interrupts.claimSource.2 }).machine :=
      MmioBus.Wired.step ready.wired .claim
    simp only
    split
    · exact ⟨claimed, ready.stop, ready.pending, ready.deferred⟩
    · exact ⟨claimed.enterException .interrupt ⟨backend.cpu.read .pc⟩, ready.stop, ready.pending,
        ready.deferred⟩

/-! ### Calls -/

/-- The outcome of a call, or of its last part, against its moments: they lead to the backend it
leaves, and the outcome is an entry of the IRQ vector exactly when their last is a delivery that
makes it. -/
structure Ends (held : Option Source) (moments : List Moment)
    (outcome : BackendStop × UnicornBackend) : Prop where
  traces : Traces held moments outcome.2
  entered : outcome.1 = .exception .interrupt → ∃ boundary,
    moments.getLast? = some ⟨boundary, .deliver⟩ ∧
      boundary.deliverIrq = (some (.exception .interrupt), outcome.2)
  delivered : ∀ boundary, ⟨boundary, .deliver⟩ ∈ moments → boundary.deliverIrq.1 ≠ none →
    moments.getLast? = some ⟨boundary, .deliver⟩ ∧ outcome.1 = .exception .interrupt

theorem Declines.ends {outcome : BackendStop × UnicornBackend} (declines : Declines held outcome) :
    Ends held [] outcome :=
  ⟨declines.ready, fun entered => absurd entered declines.exit, fun _ member => by cases member⟩

/-- A delivery that enters the vector is the end. -/
theorem ends_delivery (ready : Ready held backend) {exit : BackendStop}
    (delivered : backend.deliverIrq = (some exit, after)) :
    Ends held [⟨backend, .deliver⟩] (exit, after) := by
  have exit' : exit = .exception .interrupt := deliverIrq_exit (congrArg Prod.fst delivered)
  have further := ready_deliver ready
  rw [delivered] at further
  refine ⟨⟨ready, further⟩, fun _ => ⟨backend, rfl, ?_⟩, fun boundary member _ => ?_⟩
  · rw [delivered, exit']
  · cases List.mem_singleton.mp member
    exact ⟨rfl, exit'⟩

/-- A delivery that does not enter the vector leads to what follows. -/
theorem Ends.after_delivery {moments : List Moment} {outcome : BackendStop × UnicornBackend}
    (ready : Ready held backend) (delivered : backend.deliverIrq = (none, after))
    (ends : Ends (followed held [⟨backend, .deliver⟩]) moments outcome) :
    Ends held (⟨backend, .deliver⟩ :: moments) outcome := by
  have later {boundary : UnicornBackend}
      (last : moments.getLast? = some ⟨boundary, .deliver⟩) :
      (⟨backend, .deliver⟩ :: moments : List Moment).getLast? = some ⟨boundary, .deliver⟩ := by
    rw [List.getLast?_cons, last]
    rfl
  refine ⟨⟨ready, ends.traces⟩, fun entered => ?_, fun boundary member enters => ?_⟩
  · obtain ⟨boundary, last, result⟩ := ends.entered entered
    exact ⟨boundary, later last, result⟩
  · rcases List.mem_cons.mp member with same | member
    · cases same
      rw [delivered] at enters
      exact absurd rfl enters
    · obtain ⟨last, exit⟩ := ends.delivered boundary member enters
      exact ⟨later last, exit⟩

/-- Events come before the end of their batch. -/
theorem Ends.after_events {events : List EngineEvent} {moments : List Moment}
    {outcome : BackendStop × UnicornBackend} (ready : Ready held backend)
    (ends : ∀ held, Ready held (backend.emulate events) → Ends held moments outcome) :
    Ends held (backend.emulateMoments events ++ moments) outcome := by
  have traces := traces_emulate ready events
  obtain ⟨outstanding, emulated⟩ := traces.ready
  have fine (boundary : UnicornBackend) :
      ⟨boundary, .deliver⟩ ∉ backend.emulateMoments events := by
    clear ready traces emulated ends
    induction events generalizing backend with
    | nil => simp [emulateMoments]
    | cons event events ih => simp [emulateMoments, ih]
  have later {boundary : UnicornBackend} (last : moments.getLast? = some ⟨boundary, .deliver⟩) :
      (backend.emulateMoments events ++ moments).getLast? = some ⟨boundary, .deliver⟩ := by
    rw [List.getLast?_append, last]
    rfl
  refine ⟨traces.append fun held ready => (ends held ready).traces, fun entered => ?_,
    fun boundary member enters => ?_⟩
  · obtain ⟨boundary, last, result⟩ := (ends outstanding emulated).entered entered
    exact ⟨boundary, later last, result⟩
  · have member := (List.mem_append.mp member).resolve_left (fine boundary)
    obtain ⟨last, exit⟩ := (ends outstanding emulated).delivered boundary member enters
    exact ⟨later last, exit⟩

theorem ends_finishRun (ready : Ready held backend) (result : Except UcError Unit)
    (tickDeadline : Option Nat) :
    Ends held (if backend.deadlineReached tickDeadline then [] else [⟨backend, .deliver⟩])
      (backend.finishRun result tickDeadline) := by
  unfold finishRun
  split
  · refine Declines.ends ⟨?_, ready⟩
    cases result with
    | ok _ => simp
    | error error => simp
  · rcases delivered : backend.deliverIrq with ⟨_ | entered, after⟩
    · have further := ready_deliver ready
      rw [delivered] at further
      refine Ends.after_delivery ready delivered (Declines.ends ⟨?_, further⟩)
      cases result with
      | ok _ => simp
      | error error => simp
    · exact ends_delivery ready delivered

theorem ends_finishBatch (ready : Ready held backend) (engine : Engine)
    (result : Except UcError Unit) (tickDeadline : Option Nat) :
    Ends held (backend.endMoments tickDeadline)
      (backend.finishBatch engine result tickDeadline) := by
  have accounted := ready_account ready
  unfold endMoments finishBatch
  cases stopped : backend.callbackStop with
  | some stop =>
    refine (declines_callbackStop accounted (fun kind same => ?_) tickDeadline).ends
    exact ready.stop kind (by rw [stopped, same])
  | none =>
    cases raised : backend.pendingException with
    | some exception =>
      refine (declines_pending accounted (fun pc same => ?_) tickDeadline).ends
      exact ready.pending pc (by rw [raised, same])
    | none =>
      cases backend.pendingCp15 with
      | some pending => exact (declines_cp15 accounted engine pending tickDeadline).ends
      | none => exact ends_finishRun accounted result tickDeadline

theorem ends_runBatch (ready : Ready held backend) (engine : Engine) (start stop : U32)
    (instructionBudget : Nat) (tickDeadline : Option Nat) :
    Ends held (backend.batchMoments engine start stop instructionBudget tickDeadline)
      (backend.runBatch engine start stop instructionBudget tickDeadline) := by
  unfold batchMoments runBatch
  cases engine.setExits backend (exitsOf stop) with
  | error error => exact Declines.ends ⟨by simp, ready⟩
  | ok _ =>
    have cleared : Ready held backend.clearFlags :=
      ⟨ready.wired, fun _ => by simp [clearFlags], fun _ => by simp [clearFlags], ready.deferred⟩
    exact Ends.after_events cleared fun _ emulated =>
      ends_finishBatch emulated engine _ tickDeadline

/-- A call enters the IRQ vector exactly by the delivery that is its last moment. -/
theorem ends_call {call : Call} (ready : Ready held call.backend) (engine : Engine) :
    Ends held (call.moments engine) (call.outcome engine) := by
  obtain ⟨backend, start, stop, instructionBudget, tickDeadline⟩ := call
  unfold Call.moments Call.outcome runWithTickDeadline
  simp only
  have resumed : (∃ exit after, backend.resumeDeferredException tickDeadline = (some exit, after) ∧
      Declines held (exit, after)) ∨
      backend.resumeDeferredException tickDeadline = (none, backend) := by
    unfold resumeDeferredException
    cases deferred : backend.deferredException with
    | none => exact .inr rfl
    | some exception =>
      obtain ⟨kind, pc⟩ := exception
      left
      have other : kind ≠ .interrupt := fun same => ready.deferred pc (by rw [deferred, same])
      simp only
      split
      · exact ⟨_, _, rfl, by simp, ready⟩
      · exact ⟨_, _, rfl, by simp [other], ready.wired.enterException kind pc, ready.stop,
          ready.pending, fun _ => by simp [enterException, setRegister]⟩
  rcases resumed with ⟨exit, after, resumed, declines⟩ | resumed
  · rw [resumed]
    exact declines.ends
  · rw [resumed]
    simp only
    split
    · exact Declines.ends ⟨by simp, ready⟩
    · by_cases bounded : tickDeadline.isSome = true
      · rw [if_pos bounded, if_pos bounded]
        rcases delivered : backend.deliverIrq with ⟨_ | exit, after⟩
        · have further := ready_deliver ready
          rw [delivered] at further
          exact Ends.after_delivery ready delivered
            (ends_runBatch further engine start stop instructionBudget tickDeadline)
        · exact ends_delivery ready delivered
      · rw [if_neg bounded, if_neg bounded]
        exact ends_runBatch ready engine start stop instructionBudget tickDeadline

/-! ### Runs -/

theorem traces_operation (ready : Ready held backend) (engine : Engine) (operation : Operation) :
    Traces held (backend.operationMoments engine operation) (backend.operate engine operation) := by
  cases operation with
  | call start stop instructionBudget tickDeadline => exact (ends_call ready engine).traces
  | bus operation =>
    refine ⟨ready, ?_, ready.stop, ready.pending, ready.deferred⟩
    rw [followed, List.flatMap_cons, List.flatMap_nil, List.append_nil]
    exact MmioBus.Wired.step ready.wired operation
  | lookup address memoryType => exact ready_tlb ready address memoryType
  | setRegister register value => exact ⟨ready.wired, ready.stop, ready.pending, ready.deferred⟩

theorem traces_history (ready : Ready held backend) (engine : Engine)
    (operations : List Operation) :
    Traces held (backend.history engine operations)
      (Library.run (operate engine) backend operations) := by
  induction operations generalizing held backend with
  | nil => exact ready
  | cons operation operations ih =>
    exact (traces_operation ready engine operation).append fun _ ready => ih ready

/-- The moments of a call of a run are moments of the run, and it starts from a ready backend. -/
theorem ready_calls (ready : Ready held backend) (engine : Engine) (operations : List Operation) :
    ∀ call ∈ backend.calls engine operations, (∃ held, Ready held call.backend) ∧
      call.moments engine ⊆ backend.history engine operations := by
  induction operations generalizing held backend with
  | nil =>
    intro call member
    cases member
  | cons operation operations ih =>
    obtain ⟨held', next⟩ := (traces_operation ready engine operation).ready
    have later : ∀ call ∈ calls engine (backend.operate engine operation) operations,
        (∃ held, Ready held call.backend) ∧
          call.moments engine ⊆ backend.history engine (operation :: operations) := by
      intro call member
      obtain ⟨start, inside⟩ := ih next call member
      exact ⟨start, List.subset_append_of_subset_right _ inside⟩
    cases operation with
    | call start stop instructionBudget tickDeadline =>
      intro call member
      rcases List.mem_cons.mp member with rfl | member
      · exact ⟨⟨held, ready⟩, List.subset_append_left _ _⟩
      · exact later call member
    | bus operation => exact later
    | lookup address memoryType => exact later
    | setRegister register value => exact later

/-- Every delivery of a run is one of a call. -/
theorem mem_calls (engine : Engine) (operations : List Operation) {boundary : UnicornBackend}
    (member : ⟨boundary, .deliver⟩ ∈ backend.history engine operations) :
    ∃ call ∈ backend.calls engine operations, ⟨boundary, .deliver⟩ ∈ call.moments engine := by
  induction operations generalizing backend with
  | nil => cases member
  | cons operation operations ih =>
    rcases List.mem_append.mp member with now | later
    · cases operation with
      | call start stop instructionBudget tickDeadline => exact ⟨_, .head _, now⟩
      | bus operation => cases List.mem_singleton.mp now
      | lookup address memoryType => cases now
      | setRegister register value => cases now
    · obtain ⟨call, found, inside⟩ := ih later
      cases operation with
      | call start stop instructionBudget tickDeadline => exact ⟨call, .tail _ found, inside⟩
      | bus operation => exact ⟨call, found, inside⟩
      | lookup address memoryType => exact ⟨call, found, inside⟩
      | setRegister register value => exact ⟨call, found, inside⟩

theorem hasClaimable_iff_raised (ready : Ready held backend) :
    backend.HasClaimable ↔ backend.Raised :=
  exists_congr fun _ => MmioBus.claimable_iff_level ready.wired.coherent

/-- In a run every call that ends in the IRQ vector got there with IRQs unmasked for a pending and
enabled source, exactly when at every delivery that finds IRQs unmasked either the run has
completed what it acknowledged or some line is high and enabled. -/
theorem irq_entries_genuine_iff (engine : Engine) (memory : PhysicalMemory) (eventCapacity : Nat)
    (operations : List Operation) :
    (∀ call ∈ calls engine (.new (.new memory eventCapacity)) operations, call.Genuine engine) ↔
      Disciplined (history engine (.new (.new memory eventCapacity)) operations) := by
  have initial := ready_new memory eventCapacity
  have traces := traces_history initial engine operations
  constructor
  · intro genuine before boundary after split
    rw [split] at traces
    have found := traces.split
    by_contra undisciplined
    simp only [not_or, Bool.not_eq_true] at undisciplined
    obtain ⟨unmasked, held, quiet⟩ := undisciplined
    have claimed : boundary.machine.bus.interrupts.claim ≠ none := found.wired.held ▸ held
    have enters : boundary.deliverIrq.1 ≠ none :=
      deliverIrq_enters.mpr ⟨unmasked, .inl claimed⟩
    have inside : ⟨boundary, .deliver⟩ ∈
        history engine (.new (.new memory eventCapacity)) operations := by
      rw [split]
      simp
    obtain ⟨call, member, inside⟩ := mem_calls engine operations inside
    obtain ⟨⟨_, start⟩, _⟩ := ready_calls initial engine operations call member
    obtain ⟨last, exit⟩ := (ends_call start engine).delivered boundary inside enters
    obtain ⟨other, last', _, _, claimable⟩ := genuine call member exit
    cases last.symm.trans last'
    exact quiet ((hasClaimable_iff_raised found).mp claimable)
  · intro disciplined call member entered
    obtain ⟨⟨_, start⟩, inside⟩ := ready_calls initial engine operations call member
    obtain ⟨boundary, last, result⟩ := (ends_call start engine).entered entered
    have enters : boundary.deliverIrq.1 ≠ none := by
      rw [result]
      simp
    obtain ⟨unmasked, claimed⟩ := deliverIrq_enters.mp enters
    refine ⟨boundary, last, result, unmasked, ?_⟩
    obtain ⟨before, after, split⟩ :=
      List.append_of_mem (inside (List.mem_of_getLast? last))
    rw [split] at traces
    have found := traces.split
    rcases disciplined before boundary after split with masked | completed | raised
    · rw [unmasked] at masked
      cases masked
    · have free : boundary.machine.bus.interrupts.claim = none := found.wired.held.trans completed
      exact claimed.resolve_left (not_not.mpr free)
    · exact (hasClaimable_iff_raised found).mpr raised

/-- A guest that turns the UART0 receive interrupt on and, once it goes on at 8, claims the
interrupt, takes the byte and unmasks IRQs without an EOI. -/
def forgetfulProgram : PhysicalMemory :=
  .programmed [0xe580_1004, 0xe582_300c, 0xe590_1008, 0xe592_3000, 0xe121_f004]

def forgetfulEngine : Engine where
  setExits := fun _ _ => .ok ()
  flushTlb := fun _ => .ok ()
  emuStart := fun backend start _ _ =>
    let fetched (address : U32) := (backend.machine.memory.readU32 ⟨address⟩).toOption
    if start = 0 then
      ([.code 0 4 (fetched 0), .mmioWrite 0x4 4 2, .code 4 4 (fetched 4), .mmioWrite 0x400c 4 1,
        .native (backend.cpu.write .pc 8) []], .ok ())
    else
      ([.code 8 4 (fetched 8), .mmioRead 0x8 4, .code 12 4 (fetched 12), .mmioRead 0x4000 4,
        .code 16 4 (fetched 16),
        .native ((((backend.cpu.write (.low 1) 1).write (.low 3) 0x61).write .cpsr
          0x4000_0113).write .pc 20) []], .ok ())

def forgetfulRun : List Operation :=
  [.setRegister (.low 0) 0x1000_0000, .setRegister (.low 1) 2, .setRegister (.low 2) 0x1000_4000,
    .setRegister (.low 3) 1, .setRegister (.low 4) 0x4000_0113,
    .call 0 (BitVec.allOnes 32) 2 none, .bus (.receiveUart 0 0x61),
    .call 8 (BitVec.allOnes 32) 3 none]

set_option maxRecDepth 10000 in
/-- The retained claim enters the vector, with nothing pending. -/
theorem retained_claim_enters :
    ¬ ∀ call ∈ calls forgetfulEngine (.new (.new forgetfulProgram 4096)) forgetfulRun,
      call.Genuine forgetfulEngine := by
  intro genuine
  have found : (calls forgetfulEngine (.new (.new forgetfulProgram 4096)) forgetfulRun).any
      (fun call => decide ((call.outcome forgetfulEngine).1 = .exception .interrupt) &&
        (call.moments forgetfulEngine).getLast?.all fun last =>
          last.backend.machine.bus.interrupts.processSignals.pending == 0#32) = true := rfl
  obtain ⟨call, member, both⟩ := List.any_eq_true.mp found
  rw [Bool.and_eq_true, decide_eq_true_eq] at both
  obtain ⟨entered, nothing⟩ := both
  obtain ⟨boundary, last, _, _, source, claimable⟩ := genuine call member entered
  rw [last, Option.all_some, beq_iff_eq] at nothing
  rw [InterruptController.Claimable, nothing, BitVec.zero_and, BitVec.zero_and] at claimable
  exact claimable rfl

end UnicornBackend

end Minemu.Unicorn
