import Minemu.Image.Format
import Minemu.Runtime.Reset

/-! The headless runner's input: UART text, RAM prefills and block media, and the runtime
configuration that they become. -/

namespace Minemu.Core.PhysicalMemory

open Platform

/-- Memory after copying supplied boot and system ROM contents. -/
def withRoms (bootRom systemRom : List U8) : Except CoreError PhysicalMemory :=
  if bootRom.length > MemRegion.bootRom.size.toNat then
    .error (.physicalAccessOutOfBounds MemRegion.bootRom.base.get bootRom.length)
  else if systemRom.length > MemRegion.systemRom.size.toNat then
    .error (.physicalAccessOutOfBounds MemRegion.systemRom.base.get systemRom.length)
  else
    .ok { empty with
      bootRom := fun index => bootRom[index.val]?.getD 0
      systemRom := fun index => systemRom[index.val]?.getD 0 }

end Minemu.Core.PhysicalMemory

namespace Minemu.Headless

open Library Platform Minemu.Core Minemu.Image Minemu.Runtime

/-- Errors of the runner, with the detail of a failed assertion as it is shown. -/
inductive CliError where
  | read (path : String) (source : IoError)
  | runtimeSetup
  | assertion (detail : String)
deriving DecidableEq

/-- One UART byte sequence injected once virtual time reaches `atTick`. -/
structure HeadlessInput where
  atTick : Nat
  uart : U8
  data : String

/-- One byte pattern written to physical RAM before reset firmware executes. -/
structure RamPrefill where
  address : U32
  length : U32
  value : U8

/-- The bytes of a string. -/
def asBytes (text : String) : List U8 := text.toUTF8.data.toList.map UInt8.toBitVec

/-- `{:#010x}`. -/
def hexText (value : U32) : String :=
  "0x" ++ String.ofList ((Nat.toDigits 16 value.toNat).leftpad 8 '0')

def port (value : U8) : Except CliError UartPort :=
  if value = 0 then .ok .uart0
  else if value = 1 then .ok .uart1
  else .error (.assertion "UART input must target 0 or 1")

def scheduledInput (input : HeadlessInput) : Except CliError ScheduledUartInput :=
  (port input.uart).map fun port => ⟨input.atTick, port, asBytes input.data⟩

/-- The RAM write of one prefill. -/
def prefillWrite (fill : RamPrefill) : Except CliError (PhysicalAddress × List U8) :=
  match PhysicalRange.new ⟨fill.address⟩ fill.length with
  | .error _ => .error (.assertion
      ("RAM prefill at " ++ hexText fill.address ++ " must have a nonzero in-range length"))
  | .ok range =>
    if !MemRegion.ram.range.containsRange range then
      .error (.assertion ("RAM prefill at " ++ hexText fill.address ++ " with length " ++
        toString fill.length.toNat ++ " is outside physical RAM"))
    else .ok (⟨fill.address⟩, List.replicate fill.length.toNat fill.value)

/-- `RuntimeConfig::new`. -/
def newConfig (machine : Machine) (entry : U32) : RuntimeConfig where
  machine
  entry
  stop := BitVec.allOnes 32
  instructionBatch := 1024
  blockMediaPaths _ := none
  initialRamWrites := []
  startPaused := false
  executionDeadline := none
  scheduledUart := []

def runtimeConfig (bootRom : List U8) (image : SystemImage) (blockMediaPaths : Fin 2 → Option String)
    (instructionBatch : Option ℕ+) (ramPrefill : List RamPrefill) (executionDeadline : Option Nat)
    (inputs : List HeadlessInput) : Except CliError RuntimeConfig := do
  let memory ← (PhysicalMemory.withRoms bootRom image.bytes).mapError fun _ => .runtimeSetup
  let config := newConfig (.new memory 4096) MemRegion.bootRom.base.get
  let scheduledUart ← inputs.mapM scheduledInput
  let initialRamWrites ← ramPrefill.mapM prefillWrite
  return { config with
    blockMediaPaths
    instructionBatch := instructionBatch.elim config.instructionBatch PNat.val
    executionDeadline
    scheduledUart
    initialRamWrites }

/-! ### Accepted inputs -/

/-- The prefill is not empty and lies inside RAM. -/
def RamPrefill.Inside (fill : RamPrefill) : Prop :=
  0 < fill.length.toNat ∧ 0x4000_0000 ≤ fill.address.toNat ∧
    fill.address.toNat + fill.length.toNat ≤ 0x4400_0000

theorem port_eq_ok {value : U8} {port' : UartPort} :
    port value = .ok port' ↔ (value = 0 ∧ port' = .uart0) ∨ (value = 1 ∧ port' = .uart1) := by
  unfold port
  by_cases first : value = 0
  · subst first
    simp [eq_comm]
  · by_cases second : value = 1
    · subst second
      simp [eq_comm]
    · rw [if_neg first, if_neg second]
      constructor
      · intro done
        cases done
      · rintro (⟨same, -⟩ | ⟨same, -⟩)
        · exact absurd same first
        · exact absurd same second

theorem prefillWrite_eq_ok {fill : RamPrefill} {write : PhysicalAddress × List U8} :
    prefillWrite fill = .ok write ↔
      fill.Inside ∧ write = (⟨fill.address⟩, List.replicate fill.length.toNat fill.value) := by
  unfold prefillWrite RamPrefill.Inside
  have built : (∃ range, PhysicalRange.new ⟨fill.address⟩ fill.length = .ok range) ↔
      0 < fill.length.toNat ∧ fill.address.toNat + fill.length.toNat ≤ 2 ^ 32 :=
    PhysicalRange.exists_new
  split
  · rename_i refused
    refine ⟨fun done => (by cases done), fun accepted => ?_⟩
    obtain ⟨⟨positive, low, high⟩, -⟩ := accepted
    obtain ⟨range, made⟩ := built.mpr ⟨positive, by omega⟩
    rw [refused] at made
    cases made
  · rename_i range made
    obtain ⟨start, length⟩ := PhysicalRange.new_eq_ok.mp made
    obtain ⟨positive, -⟩ := built.mp ⟨range, made⟩
    have inside : MemRegion.ram.range.containsRange range = true ↔
        0x4000_0000 ≤ fill.address.toNat ∧
          fill.address.toNat + fill.length.toNat ≤ 0x4400_0000 := by
      rw [MemRegion.ram_containsRange, PhysicalRange.endExclusive, start, length]
    split
    · rename_i outside
      refine ⟨fun done => (by cases done), fun accepted => ?_⟩
      rw [inside.mpr accepted.1.2] at outside
      cases outside
    · rename_i within
      rw [Bool.not_eq_true', Bool.not_eq_false] at within
      constructor
      · intro done
        cases done
        exact ⟨⟨positive, inside.mp within⟩, rfl⟩
      · intro accepted
        rw [accepted.2]

end Minemu.Headless
