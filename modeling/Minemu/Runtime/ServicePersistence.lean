import Minemu.Core.BlockPersistence
import Minemu.Library.Fallible
import Minemu.Runtime.Service

/-! Persistence at every stop: no instant of any run shows Paused or Failed over dirty
media without a failed flush and an error behind it, or Stopped over dirty media. -/

namespace Minemu.Runtime

open Library Platform Minemu.Core Minemu.Unicorn

variable {paths : Fin 2 → Option String} {unit other : Fin 2}

/-- A flush of the unit has failed since the last batch. -/
def FailedSince (unit : Fin 2) : List Instant → Prop
  | [] => False
  | instant :: earlier =>
    instant.happening ≠ .batch ∧
      (instant.happening = .flushed unit true ∨ FailedSince unit earlier)

/-- What an observer may rely on at an instant. -/
structure Kept (paths : Fin 2 → Option String) (instant : Instant) (earlier : List Instant) :
    Prop where
  halted : instant.lifecycle = .paused ∨ instant.lifecycle = .failed →
    ∀ unit, (paths unit).isSome = true → instant.dirty unit ≠ ∅ →
      FailedSince unit (instant :: earlier) ∧ instant.lastError.isSome = true
  stopped : instant.lifecycle = .stopped →
    ∀ unit, (paths unit).isSome = true → instant.dirty unit = ∅

/-- The same at every instant of a history. -/
def Persisted (paths : Fin 2 → Option String) : List Instant → Prop
  | [] => True
  | instant :: earlier => Kept paths instant earlier ∧ Persisted paths earlier

/-! ### Freshly reset machines -/

/-- No unit is dirty. -/
def CleanMachine (machine : Machine) : Prop :=
  ∀ unit, (machine.bus.block.units unit).dirtySectors = ∅

theorem CleanMachine.attach {machine : Machine} (clean : CleanMachine machine) {unit : U32}
    {media : List U8} {bus : MmioBus}
    (attached : machine.bus.updateBlock (.attach unit media) = .ok bus) :
    CleanMachine { machine with bus } := by
  simp only [MmioBus.updateBlock, BlockDevice.update, BlockDevice.applyUpdate] at attached
  cases result : machine.bus.block.attach unit media with
  | error error => simp [result, Except.map] at attached
  | ok block =>
    simp only [result, Except.map] at attached
    cases attached
    obtain ⟨index, _, _, _, rfl⟩ := BlockPersistence.attach_ok result
    intro other
    by_cases this : other = index
    · simp [MmioBus.send, BlockDevice.setUnitState, this]
    · simpa [MmioBus.send, BlockDevice.setUnitState, this] using clean other

/-- What holds of a new machine, whatever is attached to it and written into its memory, holds
of a configured one. -/
theorem configured_invariant {Invariant : Machine → Prop} {blockMediaPaths : Fin 2 → Option String}
    {initialRamWrites : List (PhysicalAddress × List U8)} {source machine : Machine}
    {read : Fin 2 → Except IoError (List U8)}
    (new : Invariant (.new { source.memory with ram := fun _ => 0 } source.eventCapacity))
    (attach : ∀ (machine : Machine) unit media bus, Invariant machine →
      machine.bus.updateBlock (.attach unit media) = .ok bus → Invariant { machine with bus })
    (write : ∀ (machine : Machine) memory, Invariant machine → Invariant { machine with memory })
    (configured : configuredMachine blockMediaPaths initialRamWrites source read = .ok machine) :
    Invariant machine := by
  obtain ⟨clone, reset, configured⟩ := bind_ok configured
  obtain ⟨attached, attaching, configured⟩ := bind_ok configured
  have cloned : Invariant clone := by
    refine foldlM_invariant (fun machine unit after held turned => ?_) _ new (mapError_ok reset)
    obtain ⟨media, _, turned⟩ := bind_ok turned
    cases media with
    | none =>
      cases turned
      exact held
    | some media =>
      obtain ⟨bus, attached, turned⟩ := bind_ok turned
      cases turned
      exact attach machine unit media bus held attached
  have loaded : Invariant attached := by
    refine foldlM_invariant (fun machine unit after held turned => ?_) _ cloned attaching
    cases file : blockMediaPaths unit with
    | none =>
      simp only [file] at turned
      cases turned
      exact held
    | some path =>
      simp only [file] at turned
      obtain ⟨media, _, turned⟩ := bind_ok turned
      obtain ⟨bus, updated, turned⟩ := bind_ok turned
      cases turned
      exact attach machine (unitOf unit) media bus held (mapError_ok updated)
  refine foldlM_invariant (fun machine place after held written => ?_) _ loaded configured
  obtain ⟨memory, _, written⟩ := bind_ok written
  cases written
  exact write machine memory held

theorem cleanMachine_configured {blockMediaPaths : Fin 2 → Option String}
    {initialRamWrites : List (PhysicalAddress × List U8)} {source machine : Machine}
    {read : Fin 2 → Except IoError (List U8)}
    (configured : configuredMachine blockMediaPaths initialRamWrites source read = .ok machine) :
    CleanMachine machine :=
  configured_invariant (fun _ => rfl) (fun _ _ _ _ clean attached => clean.attach attached)
    (fun _ _ clean => clean) configured

/-! ### Flushing a unit -/

namespace Emulator

theorem unitIndex_unitOf (unit : Fin 2) : BlockDevice.unitIndex (unitOf unit) = .ok unit := by
  match unit with
  | 0 => rfl
  | 1 => rfl

/-- How a flush of the device can end: nothing to write, a failure, everything written. -/
theorem flush_cases (device : BlockDevice) (unit : Fin 2) (host : Host)
    (writeMedia : Host → List U8 → Except IoError Unit × Host) :
    ((device.flush (unitOf unit) host writeMedia).1 = .ok () ∧
        (device.flush (unitOf unit) host writeMedia).2.1 = device ∧
        (device.units unit).dirtySectors = ∅) ∨
      ((∃ error, (device.flush (unitOf unit) host writeMedia).1 = .error error) ∧
        (device.flush (unitOf unit) host writeMedia).2.1.units = device.units) ∨
      ((device.flush (unitOf unit) host writeMedia).1 = .ok () ∧
        (device.flush (unitOf unit) host writeMedia).2.1 =
          device.setUnitState unit { device.units unit with dirtySectors := ∅ }) := by
  unfold BlockDevice.flush
  rw [unitIndex_unitOf]
  simp only
  split
  · rename_i clean
    exact .inl ⟨rfl, rfl, clean⟩
  · split
    · exact .inr (.inl ⟨⟨_, rfl⟩, rfl⟩)
    · split
      · exact .inr (.inl ⟨⟨_, rfl⟩, rfl⟩)
      · exact .inr (.inr ⟨rfl, rfl⟩)

/-- A flush that succeeds leaves its unit clean, one that fails leaves it as it was; neither
touches the other unit. -/
theorem dirty_flushUnit (emulator : Emulator) (unit : Fin 2) (outcome : Except IoError Unit) :
    (((emulator.flushUnit unit outcome).1 = .ok () ∧
        (emulator.flushUnit unit outcome).2.dirty unit = ∅) ∨
      ((∃ error, (emulator.flushUnit unit outcome).1 = .error error) ∧
        (emulator.flushUnit unit outcome).2.dirty unit = emulator.dirty unit)) ∧
    ∀ other, other ≠ unit →
      (emulator.flushUnit unit outcome).2.dirty other = emulator.dirty other := by
  have flushed (other : Fin 2) : (emulator.flushUnit unit outcome).2.dirty other =
      ((emulator.backend.machine.bus.block.flush (unitOf unit) () fun _ _ =>
        (outcome, ())).2.1.units other).dirtySectors := rfl
  rcases flush_cases emulator.backend.machine.bus.block unit () fun _ _ => (outcome, ()) with
    ⟨done, same, clean⟩ | ⟨failed, same⟩ | ⟨done, written⟩
  · refine ⟨.inl ⟨done, ?_⟩, fun other _ => ?_⟩
    · rw [flushed, same, clean]
    · rw [flushed, same]
      rfl
  · refine ⟨.inr ⟨failed, ?_⟩, fun other _ => ?_⟩
    · rw [flushed, same]
      rfl
    · rw [flushed, same]
      rfl
  · refine ⟨.inl ⟨done, ?_⟩, fun other different => ?_⟩
    · rw [flushed, written]
      simp [BlockDevice.setUnitState]
    · rw [flushed, written]
      simp only [BlockDevice.setUnitState, ne_eq, different, not_false_eq_true,
        Function.update_of_ne]
      rfl

theorem dirty_deliverUart (emulator : Emulator) (port : UartPort) (bytes : List U8) :
    (emulator.deliverUart port bytes).dirty = emulator.dirty ∧
      (emulator.deliverUart port bytes).blockMediaPaths = emulator.blockMediaPaths := by
  induction bytes generalizing emulator with
  | nil => exact ⟨rfl, rfl⟩
  | cons byte bytes ih =>
    cases port with
    | uart0 => exact ih (emulator.setBus (emulator.backend.machine.bus.updateUart0 (.receive byte)))
    | uart1 => exact ih (emulator.setBus (emulator.backend.machine.bus.updateUart1 (.receive byte)))

/-- No request changes what no inspection changes. -/
theorem inspected_inspectBackend (backend : UnicornBackend) (inspector : Inspector)
    (request : RuntimeInspectionRequest) :
    UnicornBackend.Inspected backend (inspectBackend backend inspector request).2 := by
  cases request with
  | machine request =>
    cases request with
    | memory range => exact .refl backend
    | mmu => exact .refl backend
    | peripherals => exact ⟨rfl, rfl, rfl, rfl, rfl, rfl⟩
    | events => exact .refl backend
  | liveMemory range =>
    exact UnicornBackend.related_readPhysicalMemory inspector .refl (fun _ _ _ => .trans)
      .mmioRead backend range.start range.length.toNat
  | virtualMemory address length =>
    exact UnicornBackend.related_readTranslatedFrom inspector .refl (fun _ _ _ => .trans) .tlb
      .mmioRead address.get length .read true backend 0
  | translate address =>
    exact UnicornBackend.related_vmemTranslate inspector .tlb backend address.get .read
  | execution address before after =>
    exact UnicornBackend.related_inspectExecution inspector .refl (fun _ _ _ => .trans) .tlb
      .mmioRead backend address before after
  | searchMemory pattern =>
    exact UnicornBackend.related_searchMemory inspector .refl (fun _ _ _ => .trans) .mmioRead
      backend pattern

/-- No inspection touches the media. -/
theorem media_inspect (emulator : Emulator) (request : RuntimeInspectionRequest)
    (inspector : Inspector) :
    (emulator.inspect request inspector).2.dirty = emulator.dirty ∧
      (emulator.inspect request inspector).2.blockMediaPaths = emulator.blockMediaPaths := by
  refine ⟨funext fun unit => ?_, rfl⟩
  have same := (inspected_inspectBackend emulator.backend inspector request).block
  exact congrArg (fun block : BlockDevice => (block.units unit).dirtySectors) same

theorem media_drainUart (emulator : Emulator) (inbox : UartPort → List U8) :
    (emulator.drainUart inbox).dirty = emulator.dirty ∧
      (emulator.drainUart inbox).blockMediaPaths = emulator.blockMediaPaths := by
  obtain ⟨dirty, files⟩ := emulator.dirty_deliverUart .uart0 (inbox .uart0)
  obtain ⟨dirty', files'⟩ :=
    (emulator.deliverUart .uart0 (inbox .uart0)).dirty_deliverUart .uart1 (inbox .uart1)
  exact ⟨dirty'.trans dirty, files'.trans files⟩

end Emulator

namespace Service

variable {service : Service} {host : HostOutcomes}

/-- Every dirty unit with a file has had a flush fail since the last batch. -/
def Tried (service : Service) : Prop :=
  ∀ unit, (service.emulator.blockMediaPaths unit).isSome = true →
    service.emulator.dirty unit ≠ ∅ → FailedSince unit service.history

/-- No unit with a file is dirty. -/
def Clean (service : Service) : Prop :=
  ∀ unit, (service.emulator.blockMediaPaths unit).isSome = true → service.emulator.dirty unit = ∅

/-- Every dirty unit with a file has had a flush fail, and an error is published. -/
def Settled (service : Service) : Prop :=
  ∀ unit, (service.emulator.blockMediaPaths unit).isSome = true →
    service.emulator.dirty unit ≠ ∅ →
      FailedSince unit service.history ∧ service.status.lastError.isSome = true

/-- The state of the service keeps what the status it publishes promises. -/
structure Honest (paths : Fin 2 → Option String) (service : Service) : Prop where
  files : service.emulator.blockMediaPaths = paths
  persisted : Persisted paths service.history
  halted : service.status.lifecycle = .paused ∨ service.status.lifecycle = .failed →
    service.Settled
  unfinished : service.status.lifecycle ≠ .stopped

/-- What holds between the steps of the loop. -/
structure Sound (paths : Fin 2 → Option String) (service : Service) : Prop where
  persisted : Persisted paths service.history
  honest : service.live = true → Honest paths service
  shown : service.live = true → service.status.lifecycle = service.lifecycle
  active : service.live = true → service.lifecycle = .running ∨ service.lifecycle = .paused

/-- The promise is about the emulator, the history and the status only. -/
theorem Honest.congr (honest : Honest paths service) {after : Service}
    (emulator : after.emulator = service.emulator) (history : after.history = service.history)
    (status : after.status = service.status) : Honest paths after := by
  obtain ⟨files, persisted, halted, unfinished⟩ := honest
  unfold Settled at halted
  rw [← emulator, ← history, ← status] at *
  exact ⟨files, persisted, halted, unfinished⟩

/-! ### Notes and publications -/

theorem Honest.note (honest : Honest paths service) {happening : Happening}
    (quiet : happening = .batch →
      service.status.lifecycle ≠ .paused ∧ service.status.lifecycle ≠ .failed) :
    Honest paths (service.note happening) := by
  have settled (halted : service.status.lifecycle = .paused ∨ service.status.lifecycle = .failed) :
      (service.note happening).Settled := by
    intro unit file dirty
    have running : happening ≠ .batch := by
      intro batch
      exact halted.elim (quiet batch).1 (quiet batch).2
    obtain ⟨failed, told⟩ := honest.halted halted unit file dirty
    exact ⟨⟨running, .inr failed⟩, told⟩
  refine ⟨honest.files, ⟨⟨fun halted unit file => ?_, fun stopped => ?_⟩, honest.persisted⟩, settled,
    honest.unfinished⟩
  · exact settled halted unit (honest.files.symm ▸ file)
  · exact absurd stopped honest.unfinished

/-- A publication that promises no more than the service has kept. -/
theorem Honest.publish (files : service.emulator.blockMediaPaths = paths)
    (persisted : Persisted paths service.history) (lifecycle : LifecycleState)
    (lastStop : Option StopText) (lastError : Option ErrorText)
    (unfinished : lifecycle ≠ .stopped)
    (halted : lifecycle = .paused ∨ lifecycle = .failed → service.Tried ∧
      (service.Clean ∨ (lastError.or service.status.lastError).isSome = true)) :
    Honest paths (service.publish lifecycle lastStop lastError) := by
  have settled (stops : lifecycle = .paused ∨ lifecycle = .failed) :
      (service.publish lifecycle lastStop lastError).Settled := by
    intro unit file dirty
    obtain ⟨tried, clean | told⟩ := halted stops
    · exact absurd (clean unit file) dirty
    · exact ⟨⟨fun batch => (by cases batch), .inr (tried unit file dirty)⟩, told⟩
  refine ⟨files, ⟨⟨fun stops unit file => ?_, fun stopped => absurd stopped unfinished⟩, persisted⟩,
    settled, unfinished⟩
  exact settled stops unit (files.symm ▸ file)

/-! ### Flushes -/

/-- How the flush of one unit can end. -/
theorem flushUnit_cases (service : Service) (unit : Fin 2) (host : HostOutcomes) :
    (service.emulator.blockMediaPaths unit = none ∧
        service.flushUnit unit host = (none, service)) ∨
      (∃ emulator, emulator.blockMediaPaths = service.emulator.blockMediaPaths ∧
        emulator.dirty unit = ∅ ∧
        (∀ other, other ≠ unit → emulator.dirty other = service.emulator.dirty other) ∧
        service.flushUnit unit host =
          (none, { service with emulator }.note (.flushed unit false))) ∨
      ∃ emulator error, emulator.blockMediaPaths = service.emulator.blockMediaPaths ∧
        emulator.dirty = service.emulator.dirty ∧
        service.flushUnit unit host =
          (some error, { service with emulator }.note (.flushed unit true)) := by
  unfold flushUnit
  cases file : service.emulator.blockMediaPaths unit with
  | none => exact .inl ⟨rfl, rfl⟩
  | some path =>
    right
    obtain ⟨⟨done, clean⟩ | ⟨⟨error, failed⟩, same⟩, others⟩ :=
      service.emulator.dirty_flushUnit unit (host.write unit)
    · refine .inl ⟨(service.emulator.flushUnit unit (host.write unit)).2, rfl, clean, others, ?_⟩
      simp only [done]
    · refine .inr ⟨(service.emulator.flushUnit unit (host.write unit)).2, error, rfl, ?_, ?_⟩
      · funext other
        by_cases this : other = unit
        · rw [this, same]
        · exact others other this
      · simp only [failed]

/-- A part of a step that flushes and does nothing else. -/
structure Flushes (service after : Service) : Prop where
  same : after = { service with emulator := after.emulator, history := after.history }
  files : after.emulator.blockMediaPaths = service.emulator.blockMediaPaths
  dirty : ∀ unit, after.emulator.dirty unit = ∅ ∨
    after.emulator.dirty unit = service.emulator.dirty unit
  failed : ∀ unit, FailedSince unit service.history → FailedSince unit after.history
  honest : ∀ paths, Honest paths service → Honest paths after

/-- Media that got cleaner break no promise. -/
theorem Honest.cleaned (honest : Honest paths service) {emulator : Emulator}
    (files : emulator.blockMediaPaths = service.emulator.blockMediaPaths)
    (cleaner : ∀ unit, emulator.dirty unit = ∅ ∨
      emulator.dirty unit = service.emulator.dirty unit) :
    Honest paths { service with emulator } := by
  refine ⟨files.trans honest.files, honest.persisted, fun halted unit file dirty => ?_,
    honest.unfinished⟩
  rcases cleaner unit with clean | same
  · exact absurd clean dirty
  · exact honest.halted halted unit (files ▸ file) (same ▸ dirty)

theorem flushes_noted {emulator : Emulator} {unit : Fin 2} {failed : Bool}
    (files : emulator.blockMediaPaths = service.emulator.blockMediaPaths)
    (cleaner : ∀ unit, emulator.dirty unit = ∅ ∨
      emulator.dirty unit = service.emulator.dirty unit) :
    Flushes service ({ service with emulator }.note (.flushed unit failed)) where
  same := rfl
  files := files
  dirty := cleaner
  failed _ before := ⟨fun batch => (by cases batch), .inr before⟩
  honest _ honest := (honest.cleaned files cleaner).note fun batch => by cases batch

theorem flushes_flushUnit (service : Service) (unit : Fin 2) (host : HostOutcomes) :
    Flushes service (service.flushUnit unit host).2 := by
  rcases service.flushUnit_cases unit host with
    ⟨_, flushed⟩ | ⟨emulator, files, clean, others, flushed⟩ | ⟨emulator, error, files, same, flushed⟩
  · rw [flushed]
    exact ⟨rfl, rfl, fun _ => .inr rfl, fun _ before => before, fun _ honest => honest⟩
  · rw [flushed]
    refine flushes_noted files fun other => ?_
    by_cases this : other = unit
    · exact .inl (this ▸ clean)
    · exact .inr (others other this)
  · rw [flushed]
    exact flushes_noted files fun other => .inr (congrFun same other)

/-- After its flush a unit with a file is clean, or the flush has failed. -/
theorem flushUnit_tries (service : Service) (unit : Fin 2) (host : HostOutcomes)
    (file : (service.emulator.blockMediaPaths unit).isSome = true) :
    ((service.flushUnit unit host).1 = none ∧
        (service.flushUnit unit host).2.emulator.dirty unit = ∅) ∨
      ((service.flushUnit unit host).1.isSome = true ∧
        FailedSince unit (service.flushUnit unit host).2.history) := by
  rcases service.flushUnit_cases unit host with
    ⟨absent, _⟩ | ⟨emulator, _, clean, _, flushed⟩ | ⟨emulator, error, _, _, flushed⟩
  · rw [absent] at file
    cases file
  · rw [flushed]
    exact .inl ⟨rfl, clean⟩
  · rw [flushed]
    exact .inr ⟨rfl, fun batch => (by cases batch), .inl rfl⟩

theorem Flushes.trans {first second third : Service} (before : Flushes first second)
    (after : Flushes second third) : Flushes first third where
  same := by
    have last := after.same
    rw [before.same] at last
    exact last
  files := after.files.trans before.files
  dirty unit := by
    rcases after.dirty unit with clean | same
    · exact .inl clean
    · rw [same]
      exact before.dirty unit
  failed unit failed := after.failed unit (before.failed unit failed)
  honest paths honest := after.honest paths (before.honest paths honest)

theorem flushes_flush (service : Service) (host : HostOutcomes) :
    Flushes service (service.flush host).2 :=
  (service.flushes_flushUnit 0 host).trans ((service.flushUnit 0 host).2.flushes_flushUnit 1 host)

/-- A flush tries every dirty unit with a file, and reports no error only over clean media. -/
theorem flush_tries (service : Service) (host : HostOutcomes) :
    (service.flush host).2.Tried ∧
      ((service.flush host).1 = none → (service.flush host).2.Clean) := by
  have first := service.flushes_flushUnit 0 host
  have second := (service.flushUnit 0 host).2.flushes_flushUnit 1 host
  have tries (unit : Fin 2) (file : ((service.flush host).2.emulator.blockMediaPaths unit).isSome) :
      (service.flush host).2.emulator.dirty unit = ∅ ∨
        ((service.flush host).1.isSome = true ∧
          FailedSince unit (service.flush host).2.history) := by
    match unit with
    | 0 =>
      rw [show (service.flush host).2.emulator.blockMediaPaths = service.emulator.blockMediaPaths
        from (service.flushes_flush host).files] at file
      rcases service.flushUnit_tries 0 host file with ⟨_, clean⟩ | ⟨error, failed⟩
      · rcases second.dirty 0 with cleaned | same
        · exact .inl cleaned
        · exact .inl (same.trans clean)
      · refine .inr ⟨?_, second.failed 0 failed⟩
        simp only [flush, Option.isSome_map, Option.isSome_or, error, Bool.true_or]
    | 1 =>
      rw [show (service.flush host).2.emulator.blockMediaPaths =
        (service.flushUnit 0 host).2.emulator.blockMediaPaths from second.files] at file
      rcases (service.flushUnit 0 host).2.flushUnit_tries 1 host file with
        ⟨_, clean⟩ | ⟨error, failed⟩
      · exact .inl clean
      · refine .inr ⟨?_, failed⟩
        simp only [flush, Option.isSome_map, Option.isSome_or, error, Bool.or_true]
  refine ⟨fun unit file dirty => ?_, fun none unit file => ?_⟩
  · exact ((tries unit file).resolve_left dirty).2
  · rcases tries unit file with clean | ⟨error, _⟩
    · exact clean
    · rw [none] at error
      cases error

/-! ### The parts of the loop -/

theorem Honest.flush (honest : Honest paths service) (host : HostOutcomes) :
    Honest paths (service.flush host).2 :=
  (service.flushes_flush host).honest paths honest

theorem Sound.ended (persisted : Persisted paths service.history) (ended : service.live = false) :
    Sound paths service :=
  ⟨persisted, fun live => absurd live (by simp [ended]), fun live => absurd live (by simp [ended]),
    fun live => absurd live (by simp [ended])⟩

/-- A pause flushes before it is published. -/
theorem Sound.pauseWith (honest : Honest paths service) (lastStop : Option StopText)
    (host : HostOutcomes) : Sound paths (service.pauseWith lastStop host) := by
  have pausing : Honest paths { service with lifecycle := .paused } :=
    ⟨honest.files, honest.persisted, honest.halted, honest.unfinished⟩
  obtain ⟨tried, clean⟩ := flush_tries { service with lifecycle := .paused } host
  have flushed := pausing.flush host
  have told : (flush { service with lifecycle := .paused } host).2.Clean ∨
      ((((flush { service with lifecycle := .paused } host).1.map ErrorText.error).or
        (flush { service with lifecycle := .paused } host).2.status.lastError).isSome = true) := by
    cases error : (flush { service with lifecycle := .paused } host).1 with
    | none => exact .inl (clean error)
    | some error => exact .inr rfl
  have paused := Honest.publish flushed.files flushed.persisted .paused lastStop _ (by decide) fun _ => ⟨tried, told⟩
  have kept : (flush { service with lifecycle := .paused } host).2.lifecycle = .paused := by
    rw [(flushes_flush _ host).same]
  exact ⟨paused.persisted, fun _ => paused, fun _ => kept.symm, fun _ => .inr kept⟩

theorem Sound.fail (honest : Honest paths service) (tried : service.Tried)
    (lastStop : Option StopText) (error : ErrorText) : Sound paths (service.fail lastStop error) := by
  have failed := Honest.publish honest.files honest.persisted .failed lastStop (some error)
    (by decide) fun _ => ⟨tried, .inr rfl⟩
  exact .ended failed.persisted rfl

/-- The end of the loop: Stopped is published over clean media only. -/
theorem Sound.stop (honest : Honest paths service) (host : HostOutcomes) :
    Sound paths (service.stop host) := by
  have stopping := Honest.publish honest.files honest.persisted .stopping none none (by decide)
    fun halted => by rcases halted with halted | halted <;> cases halted
  obtain ⟨tried, clean⟩ := (service.publish .stopping none none).flush_tries host
  have flushed := stopping.flush host
  refine .ended ?_ rfl
  unfold Service.stop
  cases error : ((service.publish .stopping none none).flush host).1 with
  | none =>
    simp only [error]
    refine ⟨⟨fun halted => ?_, fun _ unit file => ?_⟩, flushed.persisted⟩
    · rcases halted with halted | halted <;> cases halted
    · exact clean error unit (flushed.files.symm ▸ file)
  | some error' =>
    simp only [error]
    exact (Honest.publish flushed.files flushed.persisted .failed none (some (.error error'))
      (by decide) fun _ => ⟨tried, .inr rfl⟩).persisted

theorem Honest.publishClearingStop (files : service.emulator.blockMediaPaths = paths)
    (persisted : Persisted paths service.history) {lifecycle : LifecycleState}
    (unfinished : lifecycle ≠ .stopped)
    (halted : lifecycle = .paused ∨ lifecycle = .failed → service.Settled) :
    Honest paths (service.publishClearingStop lifecycle) := by
  have settled (stops : lifecycle = .paused ∨ lifecycle = .failed) :
      (service.publishClearingStop lifecycle).Settled := by
    intro unit file dirty
    obtain ⟨tried, told⟩ := halted stops unit file dirty
    exact ⟨⟨fun batch => (by cases batch), .inr tried⟩, told⟩
  refine ⟨files, ⟨⟨fun stops unit file => ?_, fun stopped => absurd stopped unfinished⟩, persisted⟩,
    settled, unfinished⟩
  exact settled stops unit (files.symm ▸ file)

/-- What a reset leaves: every dirty unit tried, nothing dirty if it succeeded, and every
promise kept. -/
structure Resets (service after : Service) (error : Option RuntimeError) : Prop where
  tried : after.Tried
  clean : error = none → after.Clean
  honest : ∀ paths, Honest paths service → Honest paths after
  same : after = { service with emulator := after.emulator, history := after.history }

/-- A freshly built emulator keeps every promise. -/
theorem resets_replaced (service : Service) (emulator : Emulator) (host : HostOutcomes)
    (files : emulator.blockMediaPaths = service.emulator.blockMediaPaths)
    (clean : ∀ unit, emulator.dirty unit = ∅) (error : Option RuntimeError) :
    Resets service ({ (service.flush host).2 with emulator }.note .replaced) error := by
  have flushes := service.flushes_flush host
  refine ⟨fun unit _ dirty => absurd (clean unit) dirty, fun _ unit _ => clean unit,
    fun paths honest => ?_, ?_⟩
  · refine Honest.note ?_ fun batch => by cases batch
    exact (honest.flush host).cleaned (files.trans flushes.files.symm) fun unit => .inl (clean unit)
  · rw [flushes.same]
    rfl

/-- The program counter is no medium. -/
theorem machine_setProgramCounter {backend backend' : UnicornBackend} {value : U32}
    (positioned : Emulator.setProgramCounter backend value host = .ok backend') :
    backend'.machine = backend.machine := by
  unfold Emulator.setProgramCounter at positioned
  cases outcome : host.programCounter with
  | error error => simp [outcome, Except.map, Except.mapError] at positioned
  | ok _ =>
    simp only [outcome, Except.map, Except.mapError] at positioned
    cases positioned
    rfl

theorem machine_newBackend {machine : Machine} {backend : UnicornBackend}
    (built : Emulator.newBackend machine host = .ok backend) : backend.machine = machine := by
  unfold Emulator.newBackend at built
  cases created : host.newBackend with
  | error error => simp [created, Except.map, Except.mapError] at built
  | ok _ =>
    simp only [created, Except.map, Except.mapError] at built
    cases built
    rfl

theorem resets_resetEmulator (service : Service) (host : HostOutcomes) :
    Resets service (service.resetEmulator host).2 (service.resetEmulator host).1 := by
  have flushes := service.flushes_flush host
  obtain ⟨tried, clean⟩ := service.flush_tries host
  unfold resetEmulator
  cases flushed : (service.flush host).1 with
  | some error =>
    simp only [flushed]
    exact ⟨tried, fun none => (by cases none), flushes.honest, flushes.same⟩
  | none =>
    simp only [flushed]
    split
    · rename_i error _
      exact ⟨tried, fun none => (by cases none), flushes.honest, flushes.same⟩
    · rename_i backend built
      obtain ⟨clone, _, built⟩ := bind_ok built
      obtain ⟨machine, configured, built⟩ := bind_ok built
      have empty (unit : Fin 2) : (backend.machine.bus.block.units unit).dirtySectors = ∅ :=
        machine_newBackend built ▸ cleanMachine_configured configured unit
      have replaced := resets_replaced service
        { (service.flush host).2.emulator with backend } host flushes.files empty
      split
      · exact replaced _
      · rename_i backend' positioned
        have same := machine_setProgramCounter positioned
        have still (unit : Fin 2) : (backend'.machine.bus.block.units unit).dirtySectors = ∅ :=
          same ▸ empty unit
        refine ⟨fun unit _ dirty => absurd (still unit) dirty, fun _ unit _ => still unit,
          fun paths honest => ?_, ?_⟩
        · exact ((replaced none).honest paths honest).cleaned rfl fun unit => .inl (still unit)
        · rw [flushes.same]
          rfl

/-! ### The steps of the loop -/

/-- A resumed emulator has the machine of the paused one, and the rest but for the registers. -/
theorem resumed_emulator {emulator emulator' : Emulator} {address : U32}
    (resumed : emulator.resumeFromBreakpoint address host = .ok emulator') :
    emulator'.backend.machine = emulator.backend.machine ∧
      emulator' = { emulator with backend := emulator'.backend } := by
  unfold Emulator.resumeFromBreakpoint at resumed
  split at resumed
  · cases moved : Emulator.setProgramCounter emulator.backend (address + 4#32) host with
    | error error => simp [moved, Except.map] at resumed
    | ok backend =>
      simp only [moved, Except.map] at resumed
      cases resumed
      exact ⟨machine_setProgramCounter moved, rfl⟩
  · cases outcome : host.programCounter with
    | error error => simp [outcome, Except.map, Except.mapError] at resumed
    | ok _ =>
      simp only [outcome, Except.map, Except.mapError] at resumed
      cases resumed
      exact ⟨rfl, rfl⟩

/-- While the service runs it promises nothing about its media. -/
theorem Honest.running (files : service.emulator.blockMediaPaths = paths)
    (persisted : Persisted paths service.history) (running : service.status.lifecycle = .running) :
    Honest paths service := by
  refine ⟨files, persisted, fun halted => ?_, by simp [running]⟩
  rw [running] at halted
  rcases halted with halted | halted <;> cases halted

theorem Sound.live (honest : Honest paths service)
    (shown : service.status.lifecycle = service.lifecycle)
    (active : service.lifecycle = .running ∨ service.lifecycle = .paused) : Sound paths service :=
  ⟨honest.persisted, fun _ => honest, fun _ => shown, fun _ => active⟩

/-- A pause or a failure of a paused service has the flush it needs behind it. -/
theorem Honest.tried (honest : Honest paths service)
    (paused : service.status.lifecycle = .paused) : service.Tried := fun unit file dirty =>
  (honest.halted (.inl paused) unit file dirty).1

theorem Sound.resume (honest : Honest paths service)
    (shown : service.status.lifecycle = service.lifecycle)
    (paused : service.status.lifecycle = .paused) (limit : Option ℕ+) (host : HostOutcomes) :
    Sound paths (service.processCommand (.resume limit) host) := by
  have unfinished : service.lifecycle = .paused := shown.symm.trans paused
  have continued (emulator : Emulator)
      (files : emulator.blockMediaPaths = service.emulator.blockMediaPaths) :
      Sound paths ({ service with
        emulator
        pendingBreakpoint := none
        remainingInstructions := limit.map PNat.val
        lifecycle := .running }.publishClearingStop .running) := by
    refine .live (Honest.publishClearingStop ?_ ?_ (by decide) ?_) rfl (.inl rfl)
    · exact files.trans honest.files
    · exact honest.persisted
    · rintro (halted | halted) <;> cases halted
  simp only [Service.processCommand, unfinished]
  cases service.pendingBreakpoint with
  | none => exact continued service.emulator rfl
  | some address =>
    cases resumed : service.emulator.resumeFromBreakpoint address host with
    | error error =>
      have waiting : Honest paths { service with pendingBreakpoint := none } :=
        honest.congr rfl rfl rfl
      simpa only [resumed, unfinished] using
        Sound.fail waiting (waiting.tried paused) none (.error error)
    | ok emulator =>
      have files : emulator.blockMediaPaths = service.emulator.blockMediaPaths := by
        rw [(resumed_emulator resumed).2]
      simpa only [resumed] using continued emulator files

theorem Sound.reset (honest : Honest paths service)
    (active : service.lifecycle = .running ∨ service.lifecycle = .paused) (host : HostOutcomes) :
    Sound paths (service.processCommand .reset host) := by
  have resets := service.resets_resetEmulator host
  cases reset : service.resetEmulator host with
  | mk error after =>
    rw [reset] at resets
    have same : after.lifecycle = service.lifecycle := by
      have frame := resets.same
      dsimp only at frame
      rw [frame]
    have kept := resets.honest paths honest
    have going : after.lifecycle = .running ∨ after.lifecycle = .paused := same.symm ▸ active
    have unfinished : after.lifecycle ≠ .stopped := by
      rcases going with going | going <;> simp [going]
    cases error with
    | none =>
      have cleared : Honest paths
          ({ after with pendingBreakpoint := none }.publishClearingStop after.lifecycle) := by
        refine .publishClearingStop ?_ ?_ unfinished ?_
        · exact kept.files
        · exact kept.persisted
        · exact fun _ unit file dirty => absurd (resets.clean rfl unit file) dirty
      have done : Sound paths
          ({ after with pendingBreakpoint := none }.publishClearingStop after.lifecycle) :=
        .live cleared rfl going
      rcases active with running | paused
      · simpa only [Service.processCommand, running, reset] using done
      · simpa only [Service.processCommand, paused, reset] using done
    | some error =>
      have told := Honest.publish kept.files kept.persisted after.lifecycle none
        (some (.error error)) unfinished fun _ => ⟨resets.tried, .inr rfl⟩
      have done : Sound paths (after.publish after.lifecycle none (some (.error error))) :=
        .live told rfl going
      rcases active with running | paused
      · simpa only [Service.processCommand, running, reset] using done
      · simpa only [Service.processCommand, paused, reset] using done

/-- Every command keeps the service sound. -/
theorem Sound.processCommand (sound : Sound paths service) (live : service.live = true)
    (command : Command) (host : HostOutcomes) :
    Sound paths (service.processCommand command host) := by
  have honest := sound.honest live
  have shown := sound.shown live
  have active := sound.active live
  cases command with
  | pause =>
    rcases active with running | paused
    · have unlimited : Honest paths { service with remainingInstructions := none } :=
        honest.congr rfl rfl rfl
      simpa only [Service.processCommand, running] using Sound.pauseWith unlimited none host
    · simpa only [Service.processCommand, paused] using sound
  | resume limit =>
    rcases active with running | paused
    · simpa only [Service.processCommand, running] using sound
    · exact .resume honest shown (shown.trans paused) limit host
  | reset => exact .reset honest active host
  | shutdown => exact .stop honest host
  | inspect request =>
    have media := service.emulator.media_inspect request host.inspector
    exact .live (honest.cleaned media.2 fun unit => .inr (congrFun media.1 unit)) shown active

/-! ### Turns of the loop -/

theorem media_deliverScheduled (service : Service) (currentTick : Nat) :
    (service.deliverScheduled currentTick).emulator.dirty = service.emulator.dirty ∧
      (service.deliverScheduled currentTick).emulator.blockMediaPaths =
        service.emulator.blockMediaPaths := by
  unfold deliverScheduled
  simp only
  generalize service.scheduledUart.takeWhile _ = due
  induction due generalizing service with
  | nil => exact ⟨rfl, rfl⟩
  | cons input due ih =>
    obtain ⟨dirty, files⟩ := service.emulator.dirty_deliverUart input.port input.bytes
    obtain ⟨dirty', files'⟩ := ih { service with
      emulator := service.emulator.deliverUart input.port input.bytes }
    exact ⟨dirty'.trans dirty, files'.trans files⟩

theorem Honest.delivered (honest : Honest paths service) (currentTick : Nat) :
    Honest paths (service.deliverScheduled currentTick) := by
  obtain ⟨dirty, files⟩ := service.media_deliverScheduled currentTick
  exact (honest.cleaned files fun unit => .inr (congrFun dirty unit)).congr rfl rfl rfl

/-- Once a batch has run, every way out of the running state flushes. -/
theorem Sound.afterBatch (honest : Honest paths service)
    (shown : service.status.lifecycle = service.lifecycle)
    (running : service.lifecycle = .running) (result : Except RuntimeError BackendStop)
    (limitReached publishDue : Bool) (host : HostOutcomes) :
    Sound paths (service.afterBatch result limitReached publishDue host) := by
  have failing (lastStop : Option StopText) (error : ErrorText) :
      Sound paths ((service.flush host).2.fail lastStop error) :=
    .fail (honest.flush host) (service.flush_tries host).1 lastStop error
  have pausing (lastStop : Option StopText) (pendingBreakpoint : Option U32) :
      Sound paths ({ service with
        remainingInstructions := none
        pendingBreakpoint }.pauseWith lastStop host) := by
    have unlimited : Honest paths { service with remainingInstructions := none, pendingBreakpoint } :=
      honest.congr rfl rfl rfl
    exact Sound.pauseWith unlimited lastStop host
  have going (stop : BackendStop) : Sound paths
      (if limitReached then
        { service with remainingInstructions := none }.pauseWith
          (some (.instructionLimitReached stop)) host
      else if publishDue then service.publish service.lifecycle (some (.stop stop)) none
      else service) := by
    split
    · exact pausing _ service.pendingBreakpoint
    · split
      · have running' : Honest paths (service.publish service.lifecycle (some (.stop stop)) none) :=
          Honest.publish honest.files honest.persisted _ _ _ (by simp [running])
            (by simp [running])
        exact .live running' rfl (.inl running)
      · exact .live honest shown (.inl running)
  unfold Service.afterBatch
  match result with
  | .ok (.unicorn error) => exact failing _ _
  | .ok (.breakpoint address immediate) => exact pausing _ _
  | .ok .instructionBudget | .ok (.mmioFault ..) | .ok (.mmuFault _) | .ok .cp15Boundary
  | .ok (.exception _) => exact going _
  | .error error => exact failing _ _

/-- Every turn of the loop keeps the service sound, whatever the batch does. -/
theorem Sound.turn (sound : Sound paths service) (live : service.live = true)
    (running : service.lifecycle = .running) (inbox : UartPort → List U8) (runner : Runner)
    (publishDue : Bool) (host : HostOutcomes) :
    Sound paths (service.turn inbox runner publishDue host) := by
  have honest := sound.honest live
  have shown := sound.shown live
  have delivered := honest.delivered service.emulator.backend.machine.ticks
  unfold Service.turn
  simp only
  split
  · exact Sound.pauseWith delivered _ host
  · have drained := (service.deliverScheduled
      service.emulator.backend.machine.ticks).emulator.media_drainUart inbox
    have idle : service.status.lifecycle = .running := shown.trans running
    generalize ran : ({ service.deliverScheduled service.emulator.backend.machine.ticks with
      emulator := (service.deliverScheduled service.emulator.backend.machine.ticks).emulator.drainUart
        inbox } : Service).runBatch runner service.emulator.backend.machine.ticks = outcome
    have after : Honest paths outcome.2.2 := by
      rw [← ran]
      refine .running (drained.2.trans delivered.files) ⟨⟨fun halted => ?_, fun stopped => ?_⟩,
        honest.persisted⟩ idle
      · rcases halted with halted | halted
        · cases idle.symm.trans halted
        · cases idle.symm.trans halted
      · cases idle.symm.trans stopped
    have same : outcome.2.2.status = service.status ∧ outcome.2.2.lifecycle = service.lifecycle := by
      rw [← ran]
      exact ⟨rfl, rfl⟩
    exact .afterBatch after (same.1 ▸ shown |>.trans same.2.symm) (same.2.trans running) _ _ _ _

/-! ### Runs -/

theorem Sound.step (sound : Sound paths service) (next : Step) : Sound paths (service.step next) := by
  cases live : service.live with
  | false => simpa only [Service.step, live, Bool.not_false, if_true] using sound
  | true =>
    simp only [Service.step, live, Bool.not_true, Bool.false_eq_true, if_false]
    cases next with
    | command command host => exact sound.processCommand live command host
    | disconnected host => exact .stop (sound.honest live) host
    | turn inbox runner publishDue host =>
      simp only
      split
      · exact sound.turn live ‹_› inbox runner publishDue host
      · exact sound

/-- The first publication of a service is over clean media. -/
theorem Sound.announced (files : service.emulator.blockMediaPaths = paths)
    (new : service.history = []) (clean : ∀ unit, service.emulator.dirty unit = ∅)
    (active : service.lifecycle = .running ∨ service.lifecycle = .paused) :
    Sound paths (service.publish service.lifecycle none none) := by
  have persisted : Persisted paths service.history := new ▸ trivial
  have unfinished : service.lifecycle ≠ .stopped := by
    rcases active with active | active <;> simp [active]
  refine .live (.publish files persisted _ none _ unfinished fun _ => ⟨?_, .inl ?_⟩) rfl active
  · exact fun unit _ dirty => absurd (clean unit) dirty
  · exact fun unit _ => clean unit

/-- What a new emulator is built from. -/
theorem new_ok {config : RuntimeConfig} {emulator : Emulator}
    (created : Emulator.new config host = .ok emulator) :
    emulator.blockMediaPaths = config.blockMediaPaths ∧ ∀ unit, emulator.dirty unit = ∅ := by
  obtain ⟨machine, configured, created⟩ := bind_ok created
  obtain ⟨backend, built, created⟩ := bind_ok created
  obtain ⟨backend', positioned, created⟩ := bind_ok created
  cases created
  have same : backend'.machine = machine :=
    (machine_setProgramCounter positioned).trans (machine_newBackend built)
  refine ⟨rfl, fun unit => ?_⟩
  change (backend'.machine.bus.block.units unit).dirtySectors = ∅
  rw [same]
  exact cleanMachine_configured configured unit

/-- A service that has started shows clean media. -/
theorem sound_start {config : RuntimeConfig}
    (started : Service.start config host = .ok service) : Sound config.blockMediaPaths service := by
  obtain ⟨emulator, created, started⟩ := bind_ok started
  obtain ⟨files, clean⟩ := new_ok created
  cases started
  refine .announced files rfl clean ?_
  simp only
  split
  · exact .inr rfl
  · exact .inl rfl

/-- At every instant of every run of a service that has started, whatever the commands, the
batches and the files do: Paused and Failed show dirty media only after a flush of them has
failed since the last batch, with an error published, and Stopped shows clean media. -/
theorem persistence_at_every_stop (config : RuntimeConfig) (host : HostOutcomes)
    (service : Service) (started : Service.start config host = .ok service) (steps : List Step) :
    Persisted config.blockMediaPaths (run step service steps).history :=
  have kept (service : Service) (next : Step) (_ : True) (sound : Sound config.blockMediaPaths service) :
      Sound config.blockMediaPaths (service.step next) := sound.step next
  (run_invariant kept service steps (sound_start started) fun _ _ => trivial).persisted

/-- A machine with one file of one sector behind unit 0. -/
def oneFileConfig : RuntimeConfig where
  machine := .default
  entry := 0x8000
  stop := 0
  instructionBatch := 64
  blockMediaPaths := ![some "disk.img", none]
  initialRamWrites := []
  startPaused := false
  executionDeadline := none
  scheduledUart := []

/-- Reads find one empty sector, writes fail. -/
def fullDisk : HostOutcomes where
  write _ := .error ⟨"no space left on device"⟩
  read _ := .ok (List.replicate 512 0)
  newBackend := .ok ()
  programCounter := .ok ()

/-- A batch that writes the first sector of every unit. -/
def writingRunner : Runner := fun backend _ _ _ _ =>
  let block := backend.machine.bus.block
  (.ok .instructionBudget, backend.setBus { backend.machine.bus with
    block := { block with units := fun unit => { block.units unit with dirtySectors := {0} } } })

theorem start_ok (config : RuntimeConfig) (host : HostOutcomes) {emulator : Emulator}
    (created : Emulator.new { config with instructionBatch := max config.instructionBatch 1 } host =
      .ok emulator) : ∃ service, Service.start config host = .ok service := by
  unfold Service.start
  rw [created]
  exact ⟨_, rfl⟩

set_option maxRecDepth 8000 in
theorem persistence_at_every_stop_full_disk :
    ∃ service, Service.start oneFileConfig fullDisk = .ok service ∧
      Persisted oneFileConfig.blockMediaPaths (run step service
        [.turn (fun _ => []) writingRunner false fullDisk, .command .pause fullDisk,
          .command .shutdown fullDisk]).history := by
  obtain ⟨service, started⟩ := start_ok oneFileConfig fullDisk rfl
  exact ⟨service, started, persistence_at_every_stop _ _ _ started _⟩

end Service

end Minemu.Runtime
