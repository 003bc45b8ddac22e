import Minemu.Library.Runs
import Minemu.Core.Block

/-! No block write is lost: the media of a unit differs from what its host was
last given only in dirty sectors, in every state any run reaches. -/

namespace Minemu.Core.BlockPersistence

open Library Platform

/-- One operation on the device. The memory an `advanceTo` transfers with is arbitrary. -/
inductive BlockStep where
  | attach (unit : U32) (media : List U8)
  | detach (unit : U32)
  | write (register : BlockRegister) (value : U32) (now : Nat)
  | flushFailed (unit : U32)
  | advanceTo (now : Nat) (memory : PhysicalMemory)
  | flush (unit : U32) (outcome : Except IoError Unit)

/-- The device, and for each unit the bytes last attached or successfully flushed. -/
structure BlockState where
  device : BlockDevice
  persisted : Fin 2 → Option (List U8)

namespace BlockState

def initial : BlockState := ⟨.new, fun _ => none⟩

def persist (persisted : Fin 2 → Option (List U8)) (unit : U32) (image : Option (List U8)) :
    Fin 2 → Option (List U8) :=
  fun index => if index.val = unit.toNat then image else persisted index

def update (state : BlockState) (update : BlockUpdate)
    (persisted : Fin 2 → Option (List U8)) : BlockState :=
  match state.device.update update with
  | .error _ => state
  | .ok (device, _) => ⟨device, persisted⟩

/-- The host write of a flush: a success records the bytes, a failure promises nothing. -/
def hostWrite (outcome : Except IoError Unit) (host : Option (List U8)) (bytes : List U8) :
    Except IoError Unit × Option (List U8) :=
  match outcome with
  | .ok () => (.ok (), some bytes)
  | .error error => (.error error, host)

def step (state : BlockState) : BlockStep → BlockState
  | .attach unit media => state.update (.attach unit media) (persist state.persisted unit (some media))
  | .detach unit => state.update (.detach unit) state.persisted
  | .write register value now => state.update (.write register value now) state.persisted
  | .flushFailed unit => state.update (.flushFailed unit) state.persisted
  | .advanceTo now memory => ⟨(state.device.advanceTo now memory).1, state.persisted⟩
  | .flush unit outcome =>
    match BlockDevice.unitIndex unit with
    | .error _ => state
    | .ok index =>
      let (_, device, host, _) :=
        state.device.flush unit (state.persisted index) (hostWrite outcome)
      ⟨device, persist state.persisted unit host⟩

end BlockState

namespace BlockStep

/-- Media of fewer than `2^32` sectors. -/
def Small : BlockStep → Prop
  | attach _ media => media.length < 2 ^ 32 * sectorSize
  | _ => True

/-- The unit a step attaches, detaches, flushes or executes a request for. -/
def target (state : BlockState) : BlockStep → Option (Fin 2)
  | attach unit _ | detach unit | flush unit _ => (BlockDevice.unitIndex unit).toOption
  | write _ _ _ | flushFailed _ => none
  | advanceTo now _ =>
    match state.device.active with
    | none => none
    | some request =>
      if now < request.deadline then none else (BlockDevice.unitIndex request.unit).toOption

end BlockStep

/-- What holds of one unit and its persisted bytes. -/
structure UnitSafe (unit : MediaUnit) (persisted : Option (List U8)) : Prop where
  attached : ∀ media, unit.media = some media →
    media.length < 2 ^ 32 * sectorSize ∧
      ∃ image, persisted = some image ∧ Tracks sectorSize media image unit.dirtySectors
  detached : unit.media = none → unit.dirtySectors = ∅

def Safe (state : BlockState) : Prop :=
  ∀ index, UnitSafe (state.device.units index) (state.persisted index)

theorem UnitSafe.empty (persisted : Option (List U8)) : UnitSafe ⟨none, ∅⟩ persisted :=
  ⟨fun _ impossible => (nomatch impossible), fun _ => rfl⟩

theorem unitIndex_ok {unit : U32} {index : Fin 2} (found : BlockDevice.unitIndex unit = .ok index) :
    index.val = unit.toNat := by
  unfold BlockDevice.unitIndex at found
  split at found
  · cases found
    rfl
  · cases found

theorem persist_same {persisted : Fin 2 → Option (List U8)} {unit : U32} {index : Fin 2}
    (found : BlockDevice.unitIndex unit = .ok index) (image : Option (List U8)) :
    BlockState.persist persisted unit image = Function.update persisted index image := by
  funext other
  have position := unitIndex_ok found
  by_cases same : other = index
  · subst same
    simp [BlockState.persist, position]
  · have different : other.val ≠ unit.toNat := fun value => same (Fin.ext (value.trans position.symm))
    simp [BlockState.persist, different, same]

/-! ### What each device operation does to the units -/

/-- A register write never touches media. -/
theorem writeRegister_units (device : BlockDevice) (register : BlockRegister) (value : U32)
    (now : Nat) : (device.writeRegister register value now).units = device.units := by
  cases register <;> simp only [BlockDevice.writeRegister, BlockDevice.command, BlockDevice.ack,
    BlockDevice.setControl]
  split <;> rfl

/-- The shape of an accepted attach. -/
theorem attach_ok {device after : BlockDevice} {unit : U32} {media : List U8}
    (attached : device.attach unit media = .ok after) :
    ∃ index, BlockDevice.unitIndex unit = .ok index ∧ media ≠ [] ∧ sectorSize ∣ media.length ∧
      after = device.setUnitState index ⟨some media, ∅⟩ := by
  unfold BlockDevice.attach at attached
  by_cases bad : media = [] ∨ ¬ sectorSize ∣ media.length
  · simp [bad, throw, throwThe, MonadExceptOf.throw, bind, Except.bind] at attached
  · obtain ⟨nonempty, whole⟩ := not_or.mp bad
    cases found : BlockDevice.unitIndex unit with
    | error error => simp [bad, found, bind, Except.bind] at attached
    | ok index =>
      simp only [bad, found, bind, Except.bind, pure, Except.pure, ↓reduceIte,
        Except.ok.injEq] at attached
      exact ⟨index, rfl, nonempty, not_not.mp whole, attached.symm⟩

/-- The shape of an executed request: unchanged media, or whole sectors overwritten
and marked dirty. -/
theorem execute_ok {units after : Fin 2 → MediaUnit} {request : Request}
    {memory memory' : PhysicalMemory}
    (executed : BlockDevice.execute units request memory = .ok (after, memory')) :
    ∃ index, BlockDevice.unitIndex request.unit = .ok index ∧
      ∃ media, (units index).media = some media ∧
        request.lba.toNat * sectorSize + request.sectorCount.toNat * sectorSize ≤ media.length ∧
        (after = units ∨ ∃ bytes written,
          overwrite? media (request.lba.toNat * sectorSize) bytes = some written ∧
          bytes.length = request.sectorCount.toNat * sectorSize ∧
          after = Function.update units index ⟨some written, (units index).dirtySectors ∪
            Finset.Ico request.lba.toNat (request.lba + request.sectorCount).toNat⟩) := by
  cases found : BlockDevice.unitIndex request.unit with
  | error error =>
    simp [BlockDevice.execute, found, Except.mapError, bind, Except.bind] at executed
  | ok index =>
    cases checked : BlockDevice.dmaRange request with
    | error error =>
      simp [BlockDevice.execute, found, checked, Except.mapError, bind, Except.bind] at executed
    | ok range =>
      cases present : (units index).media with
      | none =>
        simp [BlockDevice.execute, found, checked, present, Except.mapError, bind, Except.bind,
          throw, throwThe, MonadExceptOf.throw] at executed
      | some media =>
        simp only [BlockDevice.execute, found, checked, present, Except.mapError, bind, Except.bind,
          pure, Except.pure, throw, throwThe, MonadExceptOf.throw] at executed
        cases cut : slice? media (request.lba.toNat * sectorSize)
            (request.lba.toNat * sectorSize + request.sectorCount.toNat * sectorSize) with
        | none => simp [cut] at executed
        | some sectors =>
          have fits := (slice?_eq_some.mp cut).2.1
          have length := length_of_slice? cut
          refine ⟨index, rfl, media, present, fits, ?_⟩
          simp only [cut] at executed
          split at executed
          · split at executed
            · cases executed
            · cases executed
              exact .inl rfl
          · split at executed
            · cases executed
            · rename_i bytes read
              have size := PhysicalMemory.length_readRange read
              cases written : overwrite? media (request.lba.toNat * sectorSize) bytes with
              | none =>
                have outside : ¬ request.lba.toNat * sectorSize + bytes.length ≤ media.length := by
                  simpa [overwrite?] using written
                omega
              | some image =>
                rw [written] at executed
                cases executed
                exact .inr ⟨bytes, image, written, by omega, rfl⟩

/-- What a step does to the two units; the persisted bytes follow attaches and flushes. -/
theorem advanceTo_units (device : BlockDevice) (now : Nat) (memory : PhysicalMemory) :
    (device.advanceTo now memory).1.units = device.units ∨
      ∃ request, device.active = some request ∧ ¬ now < request.deadline ∧
        ∃ after memory', BlockDevice.execute device.units request memory = .ok (after, memory') ∧
          (device.advanceTo now memory).1.units = after := by
  unfold BlockDevice.advanceTo
  cases pending : device.active with
  | none => exact .inl rfl
  | some request =>
    simp only
    split
    · exact .inl rfl
    · rename_i due
      cases executed : BlockDevice.execute device.units request memory with
      | error error => exact .inl rfl
      | ok result => exact .inr ⟨request, rfl, due, result.1, result.2, executed, rfl⟩

theorem detach_ok {device after : BlockDevice} {unit : U32}
    (detached : device.detach unit = .ok after) :
    ∃ index, BlockDevice.unitIndex unit = .ok index ∧
      after = device.setUnitState index ⟨none, ∅⟩ := by
  unfold BlockDevice.detach at detached
  cases found : BlockDevice.unitIndex unit with
  | error error => simp [found, bind, Except.bind] at detached
  | ok index =>
    simp only [found, bind, Except.bind, pure, Except.pure, Except.ok.injEq] at detached
    exact ⟨index, rfl, detached.symm⟩

/-- A flush of a unit: nothing, a failure that keeps the units, or everything written. -/
theorem flush_units (device : BlockDevice) {unit : U32} {index : Fin 2}
    (found : BlockDevice.unitIndex unit = .ok index) (host : Option (List U8))
    (outcome : Except IoError Unit) :
    ((device.flush unit host (BlockState.hostWrite outcome)).2.1.units = device.units ∧
        (device.flush unit host (BlockState.hostWrite outcome)).2.2.1 = host) ∨
      ∃ media, (device.units index).media = some media ∧
        (device.flush unit host (BlockState.hostWrite outcome)).2.1.units =
          Function.update device.units index ⟨some media, ∅⟩ ∧
        (device.flush unit host (BlockState.hostWrite outcome)).2.2.1 = some media := by
  unfold BlockDevice.flush
  simp only [found]
  by_cases clean : (device.units index).dirtySectors = ∅
  · simp [clean]
  · cases present : (device.units index).media with
    | none => simp [clean]
    | some media =>
      cases outcome with
      | error error => simp [clean, BlockState.hostWrite, BlockDevice.markFlushFailed]
      | ok done => simp [clean, BlockState.hostWrite, BlockDevice.setUnitState]

/-! ### One step, then every run -/

theorem Safe.congr {state after : BlockState} (safe : Safe state)
    (units : after.device.units = state.device.units) (persisted : after.persisted = state.persisted) :
    Safe after := by
  intro index
  rw [units, persisted]
  exact safe index

/-- Replacing one unit and its persisted bytes by a safe pair keeps every unit safe. -/
theorem Safe.replace {state after : BlockState} (safe : Safe state) (index : Fin 2)
    (unit : MediaUnit) (image : Option (List U8)) (fresh : UnitSafe unit image)
    (units : after.device.units = Function.update state.device.units index unit)
    (persisted : after.persisted = Function.update state.persisted index image) : Safe after := by
  intro other
  rw [units, persisted]
  by_cases same : other = index
  · subst same
    simpa using fresh
  · simpa [same] using safe other

theorem safe_execute {state after : BlockState} (safe : Safe state) {request : Request}
    {units : Fin 2 → MediaUnit} {memory memory' : PhysicalMemory}
    (executed : BlockDevice.execute state.device.units request memory = .ok (units, memory'))
    (replaced : after.device.units = units) (persisted : after.persisted = state.persisted) :
    Safe after := by
  obtain ⟨index, _, media, present, fits, unchanged | ⟨bytes, written, stored, length, marked⟩⟩ :=
    execute_ok executed
  · exact safe.congr (replaced.trans unchanged) persisted
  · obtain ⟨small, image, known, tracks⟩ := (safe index).attached media present
    have stop : (request.lba + request.sectorCount).toNat =
        request.lba.toNat + request.sectorCount.toNat := by
      rw [BitVec.toNat_add]
      unfold sectorSize at fits small
      omega
    have tracked := tracks.write stored length
    rw [← stop] at tracked
    refine safe.replace index ⟨some written, (state.device.units index).dirtySectors ∪
        Finset.Ico request.lba.toNat (request.lba + request.sectorCount).toNat⟩
      (state.persisted index)
      ⟨fun other same => ?_, fun impossible => nomatch impossible⟩ (replaced.trans marked) ?_
    · cases same
      exact ⟨(length_overwrite stored).trans_lt small, image, known, tracked⟩
    · exact persisted.trans (Function.update_eq_self index state.persisted).symm

/-- Every operation keeps every unit safe. -/
theorem safe_step {state : BlockState} (step : BlockStep) (small : step.Small) (safe : Safe state) :
    Safe (state.step step) := by
  cases step with
  | attach unit media =>
    simp only [BlockState.step, BlockState.update, BlockDevice.update, BlockDevice.applyUpdate]
    cases attached : state.device.attach unit media with
    | error error => exact safe
    | ok device =>
      obtain ⟨index, found, nonempty, whole, rfl⟩ := attach_ok attached
      refine safe.replace index ⟨some media, ∅⟩ (some media)
        ⟨fun other same => ?_, fun impossible => nomatch impossible⟩ rfl
        (persist_same found _)
      cases same
      exact ⟨small, media, rfl, .attach nonempty whole⟩
  | detach unit =>
    simp only [BlockState.step, BlockState.update, BlockDevice.update, BlockDevice.applyUpdate]
    cases detached : state.device.detach unit with
    | error error => exact safe
    | ok device =>
      obtain ⟨index, found, rfl⟩ := detach_ok detached
      exact safe.replace index ⟨none, ∅⟩ (state.persisted index) (.empty _) rfl
        (Function.update_eq_self index state.persisted).symm
  | write register value now => exact safe.congr (writeRegister_units _ register value now) rfl
  | flushFailed unit =>
    simp only [BlockState.step, BlockState.update, BlockDevice.update, BlockDevice.applyUpdate]
    cases BlockDevice.unitIndex unit with
    | error error => exact safe
    | ok index => exact safe.congr rfl rfl
  | advanceTo now memory =>
    rcases advanceTo_units state.device now memory with
      same | ⟨request, _, _, after, memory', executed, same⟩
    · exact safe.congr same rfl
    · exact safe_execute safe executed same rfl
  | flush unit outcome =>
    simp only [BlockState.step]
    cases found : BlockDevice.unitIndex unit with
    | error error => exact safe
    | ok index =>
      rcases flush_units state.device found (state.persisted index) outcome with
        ⟨units, host⟩ | ⟨media, present, units, host⟩
      · refine safe.congr units ?_
        simp only [persist_same found, host]
        exact Function.update_eq_self index state.persisted
      · obtain ⟨bound, image, _, tracks⟩ := (safe index).attached media present
        refine safe.replace index ⟨some media, ∅⟩ (some media)
          ⟨fun other same => ?_, fun impossible => nomatch impossible⟩ units ?_
        · cases same
          exact ⟨bound, media, rfl, tracks.flush⟩
        · simp only [persist_same found, host]

/-- A step leaves every unit but its target alone. -/
theorem step_frame (state : BlockState) (step : BlockStep) (index : Fin 2)
    (other : step.target state ≠ some index) :
    (state.step step).device.units index = state.device.units index := by
  have apart {unit : U32} {target : Fin 2} (found : BlockDevice.unitIndex unit = .ok target)
      (different : (BlockDevice.unitIndex unit).toOption ≠ some index) : index ≠ target := by
    rintro rfl
    exact different (by rw [found]; rfl)
  cases step with
  | attach unit media =>
    simp only [BlockState.step, BlockState.update, BlockDevice.update, BlockDevice.applyUpdate]
    cases attached : state.device.attach unit media with
    | error error => rfl
    | ok device =>
      obtain ⟨target, found, _, _, rfl⟩ := attach_ok attached
      exact Function.update_of_ne (apart found other) _ _
  | detach unit =>
    simp only [BlockState.step, BlockState.update, BlockDevice.update, BlockDevice.applyUpdate]
    cases detached : state.device.detach unit with
    | error error => rfl
    | ok device =>
      obtain ⟨target, found, rfl⟩ := detach_ok detached
      exact Function.update_of_ne (apart found other) _ _
  | write register value now => exact congrFun (writeRegister_units _ register value now) index
  | flushFailed unit =>
    simp only [BlockState.step, BlockState.update, BlockDevice.update, BlockDevice.applyUpdate]
    cases BlockDevice.unitIndex unit <;> rfl
  | advanceTo now memory =>
    rcases advanceTo_units state.device now memory with
      same | ⟨request, pending, due, after, memory', executed, same⟩
    · exact congrFun same index
    · obtain ⟨target, found, _, _, _, unchanged | ⟨_, _, _, _, replaced⟩⟩ := execute_ok executed
      · rw [BlockState.step, same, unchanged]
      · simp only [BlockStep.target, pending, due, ↓reduceIte] at other
        rw [BlockState.step, same, replaced]
        exact Function.update_of_ne (apart found other) _ _
  | flush unit outcome =>
    simp only [BlockState.step]
    cases found : BlockDevice.unitIndex unit with
    | error error => rfl
    | ok target =>
      rcases flush_units state.device found (state.persisted target) outcome with
        ⟨units, _⟩ | ⟨media, _, units, _⟩
      · exact congrFun units index
      · exact (congrFun units index).trans (Function.update_of_ne (apart found other) _ _)

theorem initial_safe : Safe .initial := fun _ => .empty none

/-- No lost block write, in every state a run reaches. -/
theorem no_lost_block_write (steps : List BlockStep) (small : ∀ step ∈ steps, step.Small) :
    (∀ state ∈ visited BlockState.step .initial steps, ∀ index,
      (∀ media, (state.device.units index).media = some media →
        media ≠ [] ∧ 512 ∣ media.length ∧
        ∃ image, state.persisted index = some image ∧ image.length = media.length ∧
          (∀ sector, block 512 media sector ≠ block 512 image sector →
            sector ∈ (state.device.units index).dirtySectors) ∧
          ((state.device.units index).dirtySectors = ∅ → media = image) ∧
          ∀ sector ∈ (state.device.units index).dirtySectors, (sector + 1) * 512 ≤ media.length) ∧
      ((state.device.units index).media = none → (state.device.units index).dirtySectors = ∅)) ∧
    ∀ (state : BlockState) (step : BlockStep) (index : Fin 2), step.target state ≠ some index →
      (state.step step).device.units index = state.device.units index := by
  refine ⟨fun state member index => ⟨fun media present => ?_, fun absent => ?_⟩, step_frame⟩
  all_goals
    have safe := visited_invariant (fun _ step allowed safe => safe_step step allowed safe)
      BlockState.initial steps initial_safe small state member
  · obtain ⟨_, image, known, tracks⟩ := (safe index).attached media present
    refine ⟨tracks.nonempty, tracks.whole, image, known, tracks.sameLength, tracks.covered,
      fun clean => ?_, tracks.inside⟩
    rw [clean] at tracks
    exact tracks.clean (by decide)
  · exact (safe index).detached absent

set_option maxRecDepth 4000 in
/-- A failed flush of a freshly attached sector keeps its persisted bytes known. -/
theorem no_lost_block_write_one_sector :
    ∃ image, (run BlockState.step .initial [.attach 0 (List.replicate 512 7),
      .flush 0 (.error ⟨"disk full"⟩)]).persisted 0 = some image ∧ image.length = 512 := by
  have small : ∀ step ∈ [BlockStep.attach 0 (List.replicate 512 7),
      .flush 0 (.error ⟨"disk full"⟩)], step.Small := by
    refine List.forall_mem_cons.mpr ⟨?_, by simp [BlockStep.Small]⟩
    rw [BlockStep.Small, List.length_replicate]
    decide
  have reached := (no_lost_block_write _ small).1 _ (run_mem_visited _ _ _) 0
  obtain ⟨_, _, image, known, length, _⟩ := reached.1 (List.replicate 512 7) rfl
  exact ⟨image, known, by rw [length, List.length_replicate]⟩

end Minemu.Core.BlockPersistence
