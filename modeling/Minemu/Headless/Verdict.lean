import Minemu.Headless.Assertion
import Minemu.Headless.Termination
import Minemu.Runtime.DualFlush
import Minemu.Runtime.ServiceFiles

/-! The verdict of a headless run: what the runner inspects of a run that has ended, and when the
test passes, in terms of the machine as the run left it and the media of its guest. -/

namespace Minemu.Headless

open Library Platform Minemu.Core Minemu.Image Minemu.Runtime Minemu.Unicorn

/-- What the host does once the run is over. -/
structure Closing where
  host : HostCalls
  inspector : Inspector

/-- One inspection, and the service that has answered it. -/
def ask (closing : Closing) (filed : FiledService) (request : RuntimeInspectionRequest) :
    Except CliError (RuntimeInspection × FiledService) :=
  if filed.service.live then
    match (filed.service.emulator.inspect request closing.inspector).1 with
    | .ok response =>
      .ok (response, filed.step (.command (.inspect request) closing.host closing.inspector))
    | .error _ => .error .runtimeSetup
  else .error .runtimeSetup

/-- What is inspected of a paused run. -/
structure Snapshot where
  uart0Output : List U8
  uart1Output : List U8
  mmu : Option Mmu
  cpuMode : Option U32
  events : List ObservableEvent

def snapshot (closing : Closing) (filed : FiledService) :
    Except CliError (Snapshot × FiledService) :=
  if filed.service.status.lifecycle = .paused then do
    let (peripherals, filed) ← ask closing filed (.machine .peripherals)
    let (mmu, filed) ← ask closing filed (.machine .mmu)
    let (events, filed) ← ask closing filed (.machine .events)
    let (execution, filed) ← ask closing filed (.execution none 0 4)
    match peripherals, mmu, events, execution with
    | .machine (.peripherals bus), .machine (.mmu mmu), .machine (.events events),
        .execution execution =>
      .ok (⟨bus.uart0.tx, bus.uart1.tx, some mmu, some (execution.cpu.read .cpsr &&& 0x1f), events⟩,
        filed)
    | _, _, _, _ => .error .runtimeSetup -- every response has the type of its request
  else .ok (⟨[], [], none, none, []⟩, filed)

/-- The file system as the host finds it: where paths lead, and which files are out of reach. -/
structure FileSystem where
  canonicalize : String → Except IoError String
  readFailure : String → Option IoError

/-- `fs::read`. -/
def FileSystem.read (fileSystem : FileSystem) (files : HostFiles) (path : String) :
    Except IoError (List U8) :=
  match fileSystem.readFailure path with
  | some error => .error error
  | none => (fileSystem.canonicalize path).map files

variable {closing : Closing} {filed : FiledService}

/-- A service that has answered an inspection. -/
def answered (closing : Closing) (filed : FiledService) (request : RuntimeInspectionRequest) :
    FiledService :=
  filed.step (.command (.inspect request) closing.host closing.inspector)

/-- The requests of the runner, in their order. -/
def requests : List RuntimeInspectionRequest :=
  [.machine .peripherals, .machine .mmu, .machine .events, .execution none 0 4]

theorem flushFile_eq_none (emulator : Emulator) (files : HostFiles) (unit : Fin 2)
    (outcome : WriteOutcome)
    (present : emulator.blockMediaPaths unit ≠ none →
      mediaOf emulator.backend.machine unit ≠ none) :
    (emulator.flushFile files unit outcome).1 = none ↔
      (emulator.Due unit → outcome.result = .ok ()) := by
  unfold Emulator.flushFile
  cases file : emulator.blockMediaPaths unit with
  | none =>
    refine iff_of_true rfl fun due => ?_
    rw [Emulator.Due, file] at due
    cases due.1
  | some path =>
    have filled : (emulator.blockMediaPaths unit).isSome = true := by
      rw [file]
      rfl
    simp only [MmioBus.flushBlock, BlockDevice.flush, Emulator.unitIndex_unitOf]
    by_cases clean : (emulator.backend.machine.bus.block.units unit).dirtySectors = ∅
    · rw [if_pos clean]
      exact iff_of_true rfl fun due => absurd clean due.2
    · rw [if_neg clean]
      have due : emulator.Due unit := ⟨filled, clean⟩
      cases held : (emulator.backend.machine.bus.block.units unit).media with
      | none => exact absurd held (present (by rw [file]; exact Option.some_ne_none path))
      | some media =>
        cases outcome with
        | written => exact iff_of_true rfl fun _ => rfl
        | failed error left => exact iff_of_false (fun none => by cases none) fun success =>
            (by cases success due)

/-- The flush of one unit leaves what is due of the others. -/
theorem due_flushFile (emulator : Emulator) (files : HostFiles) {unit other : Fin 2}
    (outcome : WriteOutcome) (different : other ≠ unit) :
    (emulator.flushFile files unit outcome).2.1.Due other ↔ emulator.Due other := by
  rcases emulator.flushFile_cases files unit outcome with ⟨error, same, _⟩ |
    ⟨path, error, left, _, _, failed⟩ | ⟨path, media, _, _, _, written⟩
  · rw [same]
  · rw [failed]
    exact Iff.rfl
  · rw [written]
    simp only [Emulator.Due, Emulator.dirty, Emulator.setBus, UnicornBackend.setBus,
      BlockDevice.setUnitState, Function.update_of_ne different]

/-- A flush succeeds when the write of every unit that has something to save does. -/
theorem flush_eq_none (emulator : Emulator) (files : HostFiles) (write : Fin 2 → WriteOutcome)
    (present : ∀ unit, emulator.blockMediaPaths unit ≠ none →
      mediaOf emulator.backend.machine unit ≠ none) :
    (emulator.flush files write).1 = none ↔
      ∀ unit, emulator.Due unit → (write unit).result = .ok () := by
  have paths := paths_flushFile emulator files 0 (write 0)
  have media := (emulator.flushedOnly_flushFile files 0 (write 0)).media
  have second := flushFile_eq_none (emulator.flushFile files 0 (write 0)).2.1
    (emulator.flushFile files 0 (write 0)).2.2 1 (write 1)
    (by rw [paths, media]; exact present 1)
  rw [due_flushFile emulator files (write 0) (by decide)] at second
  rw [flush_eq, Option.or_eq_none_iff, flushFile_eq_none emulator files 0 (write 0) (present 0),
    second, Fin.forall_fin_two]

/-- A service stops as Stopped or as Failed, by what becomes of its last writes. -/
theorem lifecycle_stop {service : Service} {outcomes : HostOutcomes} {host : HostCalls}
    (present : ∀ unit, service.emulator.blockMediaPaths unit ≠ none →
      mediaOf service.emulator.backend.machine unit ≠ none)
    (same : ∀ unit, outcomes.write unit = (host.write unit).result) (files : HostFiles) :
    (service.stop outcomes).status.lifecycle =
      if ∀ unit, service.emulator.Due unit → (host.write unit).result = .ok () then .stopped
      else .failed := by
  have flushed := ((service.publish .stopping none none).flush_flush files same).1
  have saved := flush_eq_none (service.publish .stopping none none).emulator files host.write present
  have due (unit : Fin 2) : (service.publish .stopping none none).emulator.Due unit ↔
      service.emulator.Due unit := Iff.rfl
  simp only [due] at saved
  unfold Service.stop
  simp only
  rw [flushed]
  cases failure : ((service.publish .stopping none none).emulator.flush files host.write).1 with
  | none =>
    rw [if_pos (saved.mp failure)]
    rfl
  | some error =>
    rw [failure] at saved
    rw [if_neg fun succeeds => absurd (saved.mpr succeeds) (Option.some_ne_none error)]
    rfl

/-! ### Runs of turns -/

/-- What a run of turns shows. -/
inductive Shows (service : Service) : Prop
  | running (live : service.live = true) (running : service.lifecycle = .running)
      (shown : service.status.lifecycle = .running)
  | paused (live : service.live = true) (paused : service.lifecycle = .paused)
      (shown : service.status.lifecycle = .paused)
      (ticks : service.status.machine.ticks = service.emulator.backend.machine.ticks)
  | failed (dead : service.live = false) (shown : service.status.lifecycle = .failed)

theorem shows_pauseWith (service : Service) (live : service.live = true)
    (lastStop : Option StopText) (host : HostOutcomes) :
    Shows (service.pauseWith lastStop host) := by
  have flushed := Service.flush_same { service with lifecycle := .paused } host
  exact .paused (flushed.1.trans live) (service.pauseWith_shows lastStop host).1 rfl rfl

theorem shows_afterBatch (service : Service) (live : service.live = true)
    (running : service.lifecycle = .running) (shown : service.status.lifecycle = .running)
    (result : Except RuntimeError BackendStop) (limitReached publishDue : Bool)
    (host : HostOutcomes) : Shows (service.afterBatch result limitReached publishDue host) := by
  unfold Service.afterBatch
  split
  · exact .failed rfl rfl
  · refine shows_pauseWith _ ?_ _ host
    exact live
  · split
    · refine shows_pauseWith _ ?_ _ host
      exact live
    · split
      · exact .running live running running
      · exact .running live running shown
  · exact .failed rfl rfl

theorem Shows.turn {service : Service} (shows : Shows service) (inbox : UartPort → List U8)
    (runner : Service.Runner) (publishDue : Bool) (host : HostOutcomes) :
    Shows (service.step (.turn inbox runner publishDue host)) := by
  unfold Service.step
  cases shows with
  | running live running shown =>
    simp only [live, Bool.not_true, Bool.false_eq_true, ↓reduceIte, running]
    rw [Service.turn_eq]
    split
    · refine shows_pauseWith _ ?_ _ host
      exact live
    · refine shows_afterBatch _ ?_ ?_ ?_ _ _ _ _
      · exact live
      · exact running
      · exact shown
  | paused live paused shown ticks =>
    simp only [live, Bool.not_true, Bool.false_eq_true, ↓reduceIte, paused, reduceCtorEq]
    exact .paused live paused shown ticks
  | failed dead shown =>
    simp only [dead, Bool.not_false, ↓reduceIte]
    exact .failed dead shown

variable {config : RuntimeConfig} {files : HostFiles} {fresh : Emulator}

section Media

variable {fileSystem : FileSystem} {after : FiledService} {paths : Fin 2 → Option String}

end Media

end Minemu.Headless
