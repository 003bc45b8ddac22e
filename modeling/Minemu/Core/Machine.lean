import Minemu.Core.Bus
import Minemu.Core.Mmu
import Minemu.Platform.Exception

/-! The backend-independent machine and its virtual time. -/

namespace Minemu.Core

open Platform

/-- Backend-neutral exception entry plan for the CPU adapter. -/
structure ExceptionPlan where
  request : ExceptionRequest
  dispatchId : Option Int
deriving DecidableEq

namespace ExceptionPlan

def synchronous (kind : ExceptionKind) (pc : VirtualAddress) : ExceptionPlan :=
  ⟨.synchronous kind pc, kind.dispatchId⟩

def fault (fault : MmuFault) (pc : VirtualAddress) : ExceptionPlan :=
  let kind : ExceptionKind := if fault.status.isFetch then .prefetchAbort else .dataAbort
  ⟨.abort kind pc fault.status, kind.dispatchId⟩

end ExceptionPlan

/-- Result of a single backend instruction attempt supplied by the CPU adapter. -/
inductive InstructionOutcome where
  | completed
  | synchronousException (kind : ExceptionKind) (pc : VirtualAddress)
  | fault (fault : MmuFault) (pc : VirtualAddress)
deriving DecidableEq

/-- A bounded observable machine event. -/
inductive ObservableEvent where
  | trace (event : TraceEvent)
  | exception (kind : ExceptionKind)
deriving DecidableEq

/-- The single-owner, backend-independent guest machine state. -/
structure Machine where
  memory : PhysicalMemory
  bus : MmioBus
  mmu : Mmu
  ticks : Nat
  events : List ObservableEvent
  eventCapacity : Nat

namespace Machine

def new (memory : PhysicalMemory) (eventCapacity : Nat) : Machine :=
  ⟨memory, .new, .new, 0, [], eventCapacity⟩

/-- `Machine::default`. -/
def default : Machine := .new .empty 4096

def recordEvent (machine : Machine) (event : ObservableEvent) : Machine :=
  if machine.eventCapacity = 0 then machine
  else { machine with events := pushBounded machine.events machine.eventCapacity event }

/-- One turn of the loop in `advance_ticks`. -/
def tick (machine : Machine) : Machine :=
  let ticks := machine.ticks + 1
  let (bus, memory) := machine.bus.advanceTo ticks machine.memory
  { machine with ticks, bus, memory }

def retireTraces (machine : Machine) : Machine :=
  let (committed, bus) := machine.bus.retireTraceEvents machine.ticks
  committed.foldl (fun machine event => machine.recordEvent (.trace event)) { machine with bus }

def advanceTicks (machine : Machine) (count : Nat) : Machine := (tick^[count] machine).retireTraces

/-- Applies the virtual-time contract after one attempted guest instruction. -/
def finishInstruction (machine : Machine) :
    InstructionOutcome → Option ExceptionPlan × Machine
  | .completed => (none, machine.advanceTicks 1)
  | .synchronousException kind pc =>
    let machine := (machine.advanceTicks 1).advanceTicks kind.entryTicks
    (some (.synchronous kind pc), machine.recordEvent (.exception kind))
  | .fault fault pc =>
    let plan := ExceptionPlan.fault fault pc
    let machine := machine.advanceTicks plan.request.kind.entryTicks
    (some plan, machine.recordEvent (.exception plan.request.kind))

/-- Enters an exception at an instruction boundary after its instruction tick. -/
def enterException (machine : Machine) (kind : ExceptionKind) (pc : VirtualAddress) :
    ExceptionPlan × Machine :=
  (.synchronous kind pc, (machine.advanceTicks kind.entryTicks).recordEvent (.exception kind))

/-! ### Virtual time -/

variable (machine : Machine)

@[simp] theorem ticks_recordEvent (event : ObservableEvent) :
    (machine.recordEvent event).ticks = machine.ticks := by
  unfold recordEvent
  split <;> rfl

@[simp] theorem ticks_tick : machine.tick.ticks = machine.ticks + 1 := rfl

theorem ticks_iterate (count : Nat) : (tick^[count] machine).ticks = machine.ticks + count := by
  induction count generalizing machine with
  | zero => rfl
  | succ count ih =>
    rw [Function.iterate_succ_apply, ih, ticks_tick]
    omega

@[simp] theorem ticks_retireTraces : machine.retireTraces.ticks = machine.ticks := by
  have kept (events : List TraceEvent) (machine : Machine) :
      (events.foldl (fun machine event => machine.recordEvent (.trace event)) machine).ticks =
        machine.ticks := by
    induction events generalizing machine with
    | nil => rfl
    | cons event events ih => rw [List.foldl_cons, ih, ticks_recordEvent]
  exact kept _ _

@[simp] theorem ticks_advanceTicks (count : Nat) :
    (machine.advanceTicks count).ticks = machine.ticks + count := by
  rw [advanceTicks, ticks_retireTraces, ticks_iterate]

/-- What each outcome of an instruction attempt costs. -/
def outcomeTicks : InstructionOutcome → Nat
  | .completed => 1
  | .synchronousException _ _ => 2
  | .fault _ _ => 1

@[simp] theorem ticks_finishInstruction (outcome : InstructionOutcome) :
    (machine.finishInstruction outcome).2.ticks = machine.ticks + outcomeTicks outcome := by
  cases outcome <;> simp [finishInstruction, outcomeTicks, ExceptionKind.entryTicks]

@[simp] theorem ticks_enterException (kind : ExceptionKind) (pc : VirtualAddress) :
    (machine.enterException kind pc).2.ticks = machine.ticks + 1 := by
  simp [enterException, ExceptionKind.entryTicks]

end Machine

end Minemu.Core
