import Minemu.Headless.Config
import Minemu.Library.Utf8

/-! What a headless test asserts about the run it has made and the media it has left: the checks,
in their order and with their messages, and what passing them all means. -/

namespace Minemu.Headless

open Library Platform Minemu.Core Minemu.Runtime

/-- Expected bytes at one offset in the attached block media. -/
structure BlockMediaAssertion where
  unit : Fin 2
  offset : BitVec 64
  bytes : List U8

/-- Lifecycle accepted for the pre-shutdown execution snapshot. -/
inductive ExpectedExecutionLifecycle where
  | paused
  | stopped
deriving DecidableEq

/-- Final lifecycle accepted after the headless runner requests shutdown. -/
inductive ExpectedShutdownLifecycle where
  | stopped
deriving DecidableEq

/-- A32 processor mode expected in the paused execution snapshot. -/
inductive ExpectedCpuMode where
  | user
  | fiq
  | irq
  | supervisor
  | abort
  | undefined
  | system
deriving DecidableEq

namespace ExpectedCpuMode

def bits : ExpectedCpuMode → U32
  | user => 0x10
  | fiq => 0x11
  | irq => 0x12
  | supervisor => 0x13
  | abort => 0x17
  | undefined => 0x1b
  | system => 0x1f

end ExpectedCpuMode

/-- Supported headless assertions over execution and shutdown snapshots. -/
structure HeadlessAssertion where
  uart0Contains : Option String
  uart1Contains : Option String
  ticksAtLeast : Option Nat
  executionLifecycle : Option ExpectedExecutionLifecycle
  shutdownLifecycle : Option ExpectedShutdownLifecycle
  mmuEnabled : Option Bool
  cpuMode : Option ExpectedCpuMode
  faultStatus : Option U32
  traceValues : Option (List U32)
  blockMedia : List BlockMediaAssertion

/-- Result of a bounded run. -/
structure RunResult where
  executionStatus : RuntimeStatus
  shutdownStatus : RuntimeStatus
  uart0Output : List U8
  uart1Output : List U8
  mmu : Option Mmu
  cpuMode : Option U32
  events : List ObservableEvent

/-- A check that is made if a value is expected. -/
def expect (expected : Option Value) (holds : Value → Bool) (error : Value → String) :
    Except CliError Unit :=
  match expected with
  | none => .ok ()
  | some value => if holds value then .ok () else .error (.assertion (error value))

/-- `String::from_utf8_lossy(output).contains(text)`. -/
def contains (output : List U8) (text : String) : Bool :=
  decide (text.toList <:+: Utf8.fromUtf8Lossy (output.map UInt8.ofBitVec))

def RunResult.failed (result : RunResult) : Bool :=
  result.executionStatus.lifecycle = .failed || result.shutdownStatus.lifecycle = .failed

def executionLifecycleMatches : ExpectedExecutionLifecycle → LifecycleState → Bool
  | .paused, .paused | .stopped, .stopped => true
  | _, _ => false

def shutdownLifecycleMatches : ExpectedShutdownLifecycle → LifecycleState → Bool
  | .stopped, .stopped => true
  | _, _ => false

def RunResult.faultStatus (result : RunResult) : Option U32 :=
  (result.mmu.bind Mmu.lastFault).map fun fault => fault.status.raw

def traceValues (events : List ObservableEvent) : List U32 :=
  events.filterMap fun event => match event with
    | .trace event => some event.value
    | .exception _ => none

/-- The region an assertion names, and the media it is in, as messages name them. -/
def BlockMediaAssertion.place (assertion : BlockMediaAssertion) (path : String) : String :=
  "block unit " ++ toString assertion.unit.val ++ " media " ++ path

theorem expect_eq_ok {expected : Option Value} {holds : Value → Bool} {error : Value → String}
    {done : Unit} :
    expect expected holds error = .ok done ↔ ∀ value ∈ expected, holds value = true := by
  unfold expect
  cases expected with
  | none => simp
  | some value =>
    by_cases held : holds value = true
    · simp [held]
    · simp [held]

/-- The expectations about the snapshots. -/
structure RunResult.Meets (result : RunResult) (assertion : HeadlessAssertion) : Prop where
  uart0 : ∀ text ∈ assertion.uart0Contains, contains result.uart0Output text = true
  uart1 : ∀ text ∈ assertion.uart1Contains, contains result.uart1Output text = true
  ticks : ∀ ticks ∈ assertion.ticksAtLeast, ticks ≤ result.executionStatus.machine.ticks
  execution : ∀ expected ∈ assertion.executionLifecycle,
    executionLifecycleMatches expected result.executionStatus.lifecycle = true
  shutdown : ∀ expected ∈ assertion.shutdownLifecycle,
    shutdownLifecycleMatches expected result.shutdownStatus.lifecycle = true
  mmu : ∀ enabled ∈ assertion.mmuEnabled, result.mmu.map Mmu.enabled = some enabled
  cpuMode : ∀ expected ∈ assertion.cpuMode, result.cpuMode = some expected.bits
  faultStatus : ∀ expected ∈ assertion.faultStatus, result.faultStatus = some expected
  trace : ∀ values ∈ assertion.traceValues, traceValues result.events = values

theorem asBytes_eq (text : String) :
    asBytes text = (Utf8.encode text.toList).map UInt8.toBitVec := by
  have whole : text.toUTF8 = (Utf8.encode text.toList).toByteArray := String.utf8Encode_toList.symm
  rw [asBytes, whole]
  simp

/-- Text without a replacement character is found in the retained output of a UART exactly where that
holds its bytes, whatever is around them. -/
theorem contains_text (output : List U8) (text : String) (plain : '\uFFFD' ∉ text.toList) :
    contains output text = true ↔ asBytes text <:+: output := by
  have back : (output.map UInt8.ofBitVec).map UInt8.toBitVec = output := by
    rw [List.map_map]
    exact List.map_id output
  have again : ((Utf8.encode text.toList).map UInt8.toBitVec).map UInt8.ofBitVec =
      Utf8.encode text.toList := by
    rw [List.map_map]
    exact List.map_id _
  unfold contains
  rw [decide_eq_true_iff, Utf8.infix_fromUtf8Lossy plain, asBytes_eq]
  constructor
  · intro found
    exact back ▸ found.map UInt8.toBitVec
  · intro found
    exact again ▸ found.map UInt8.ofBitVec

/-- A greeting between a stray byte and a cut-off sequence. -/
theorem contains_text_ready :
    contains ([0xff] ++ asBytes "ready" ++ [0xe2, 0x82]) "ready" = true :=
  (contains_text _ "ready" (by decide)).mpr ⟨[0xff], [0xe2, 0x82], rfl⟩

end Minemu.Headless
