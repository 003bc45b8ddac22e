import Minemu.Core.BlockProtocol
import Minemu.Runtime.Reset

/-! The flush of both media units: one write for each unit that has something to save, whatever
becomes of the other one, and what the writes and their failures leave in the device. -/

namespace Minemu.Core.BlockDevice

open Library Platform BlockPersistence

variable {device after : BlockDevice}

/-- Only a unit with media has dirty sectors. -/
def Mounted (device : BlockDevice) : Prop :=
  ∀ unit, (device.units unit).media = none → (device.units unit).dirtySectors = ∅

theorem mounted_new : Mounted .new := fun _ _ => rfl

theorem Mounted.congr (mounted : Mounted device) (units : after.units = device.units) :
    Mounted after := by
  intro unit
  rw [units]
  exact mounted unit

theorem Mounted.replace (mounted : Mounted device) {index : Fin 2} {state : MediaUnit}
    (fresh : state.media = none → state.dirtySectors = ∅)
    (units : after.units = Function.update device.units index state) : Mounted after := by
  intro unit
  rw [units]
  by_cases same : unit = index
  · subst same
    rw [Function.update_self]
    exact fresh
  · rw [Function.update_of_ne same]
    exact mounted unit

theorem Mounted.applyUpdate (mounted : Mounted device) {update : BlockUpdate}
    (updated : device.applyUpdate update = .ok after) : Mounted after := by
  cases update with
  | attach unit media =>
    obtain ⟨index, _, _, _, rfl⟩ := attach_ok updated
    exact mounted.replace (fun absent => by cases absent) rfl
  | detach unit =>
    obtain ⟨index, _, rfl⟩ := detach_ok updated
    exact mounted.replace (fun _ => rfl) rfl
  | write register value now =>
    cases updated
    exact mounted.congr (writeRegister_units device register value now)
  | flushFailed unit =>
    simp only [BlockDevice.applyUpdate] at updated
    cases found : unitIndex unit with
    | error error =>
      rw [found] at updated
      cases updated
    | ok index =>
      rw [found] at updated
      cases updated
      exact mounted.congr rfl

theorem Mounted.flush (mounted : Mounted device) (unit : U32) (host : Host)
    (writeMedia : Host → List U8 → Except IoError Unit × Host) :
    Mounted (device.flush unit host writeMedia).2.1 := by
  unfold BlockDevice.flush
  split
  · exact mounted
  · rename_i index _
    simp only
    split
    · exact mounted
    · split
      · exact mounted
      · split
        · exact mounted.congr rfl
        · rename_i media present _ _ _
          exact mounted.replace (fun _ => rfl) rfl

theorem Mounted.advanceTo (mounted : Mounted device) (now : Nat) (memory : PhysicalMemory) :
    Mounted (device.advanceTo now memory).1 := by
  rcases advanceTo_units device now memory with same | ⟨request, _, _, units, _, executed, moved⟩
  · exact mounted.congr same
  · obtain ⟨index, _, media, present, _, same | ⟨bytes, written, _, _, marked⟩⟩ :=
      execute_ok executed
    · exact mounted.congr (moved.trans same)
    · exact mounted.replace (fun absent => by cases absent) (moved.trans marked)

theorem Mounted.step (mounted : Mounted device) (next : DeviceStep) :
    Mounted (device.step next) := by
  cases next with
  | update update =>
    cases updated : device.applyUpdate update with
    | error error =>
      rw [BlockDevice.step, updated]
      exact mounted
    | ok after =>
      rw [BlockDevice.step, updated]
      exact mounted.applyUpdate updated
  | flush unit outcome => exact mounted.flush unit _ _
  | advanceTo now memory => exact mounted.advanceTo now memory

/-- No use of the device leaves dirty sectors without media. -/
theorem mounted_run (steps : List DeviceStep) : Mounted (run step .new steps) := by
  have preserved (device : BlockDevice) (next : DeviceStep) (_ : True)
      (mounted : Mounted device) : Mounted (step device next) := mounted.step next
  exact run_invariant preserved .new steps mounted_new fun _ _ => trivial

/-- The device over other media units, with the flush failure reported if there was one. -/
def afterFlush (device : BlockDevice) (failed : Bool) (units : Fin 2 → MediaUnit) : BlockDevice :=
  { device with
    complete := device.complete || failed
    error := if failed then .deferredPersistence else device.error
    units }

end Minemu.Core.BlockDevice

namespace Minemu.Runtime

open Library Platform Minemu.Core Minemu.Unicorn

/-- One `fs::write` of a whole media file. -/
structure MediaWrite where
  unit : Fin 2
  path : String
  media : List U8

namespace Emulator

/-- One turn of the loop, over whatever host `fs::write` works on. -/
def flushUnitTo (emulator : Emulator) (host : Host) (unit : Fin 2)
    (write : String → Host → List U8 → Except IoError Unit × Host) :
    Option CoreError × Emulator × Host :=
  match emulator.blockMediaPaths unit with
  | none => (none, emulator, host)
  | some path =>
    let (result, bus, host) :=
      emulator.backend.machine.bus.flushBlock (unitOf unit) host (write path)
    (match result with
      | .ok () => none
      | .error error => some error, emulator.setBus bus, host)

/-- The loop over the units, with the first error. -/
def flushEach (write : Fin 2 → String → Host → List U8 → Except IoError Unit × Host)
    (emulator : Emulator) (host : Host) : List (Fin 2) → Option CoreError × Emulator × Host
  | [] => (none, emulator, host)
  | unit :: units =>
    let (first, emulator, host) := emulator.flushUnitTo host unit (write unit)
    let (later, emulator, host) := flushEach write emulator host units
    (first.or later, emulator, host)

/-- An `fs::write` that ends as it is told and is remembered. -/
def logged (outcome : Fin 2 → Except IoError Unit) (unit : Fin 2) (path : String)
    (writes : List MediaWrite) (media : List U8) : Except IoError Unit × List MediaWrite :=
  (outcome unit, writes ++ [⟨unit, path, media⟩])

/-- A flush, and the writes it attempts in order. -/
def flushLogged (emulator : Emulator) (outcome : Fin 2 → Except IoError Unit) :
    Option CoreError × Emulator × List MediaWrite :=
  flushEach (logged outcome) emulator [] [filesystem, swap]

/-- The host after the attempted writes. -/
def replay (write : Fin 2 → String → Host → List U8 → Except IoError Unit × Host) (host : Host)
    (writes : List MediaWrite) : Host :=
  writes.foldl (fun host entry => (write entry.unit entry.path host entry.media).2) host

/-- The files of the host are one such host. -/
theorem flush_eq_flushEach (emulator : Emulator) (files : HostFiles)
    (write : Fin 2 → WriteOutcome) :
    emulator.flush files write =
      flushEach (fun unit path => writeFile path (write unit)) emulator files [filesystem, swap] := by
  simp only [flushEach, Option.or_none]
  rfl

/-- A turn does to a host what it logs, and nothing else depends on the host. -/
theorem flushUnitTo_replay {outcome : Fin 2 → Except IoError Unit}
    {write : Fin 2 → String → Host → List U8 → Except IoError Unit × Host}
    (ends : ∀ unit path host media, (write unit path host media).1 = outcome unit)
    (emulator : Emulator) (writes : List MediaWrite) (unit : Fin 2) :
    ∃ error after made, emulator.flushUnitTo writes unit (logged outcome unit) =
        (error, after, writes ++ made) ∧
      ∀ host, emulator.flushUnitTo host unit (write unit) =
        (error, after, replay write host made) := by
  cases file : emulator.blockMediaPaths unit with
  | none =>
    refine ⟨none, emulator, [], ?_, fun host => ?_⟩
    · simp [flushUnitTo, file]
    · simp [flushUnitTo, file, replay]
  | some path =>
    simp only [flushUnitTo, file, MmioBus.flushBlock, BlockDevice.flush, unitIndex_unitOf]
    by_cases clean : (emulator.backend.machine.bus.block.units unit).dirtySectors = ∅
    · simp only [if_pos clean]
      exact ⟨_, _, [], by rw [List.append_nil], fun host => rfl⟩
    · simp only [if_neg clean]
      cases (emulator.backend.machine.bus.block.units unit).media with
      | none => exact ⟨_, _, [], by rw [List.append_nil], fun host => rfl⟩
      | some media =>
        cases ended : outcome unit with
        | ok done =>
          simp only [logged, ended]
          refine ⟨_, _, [⟨unit, path, media⟩], rfl, fun host => ?_⟩
          have same := ends unit path host media
          rw [ended] at same
          cases wrote : write unit path host media with
          | mk result left =>
            rw [wrote] at same
            cases same
            simp only [replay, List.foldl_cons, List.foldl_nil, wrote]
        | error error =>
          simp only [logged, ended]
          refine ⟨_, _, [⟨unit, path, media⟩], rfl, fun host => ?_⟩
          have same := ends unit path host media
          rw [ended] at same
          cases wrote : write unit path host media with
          | mk result left =>
            rw [wrote] at same
            cases same
            simp only [replay, List.foldl_cons, List.foldl_nil, wrote]

theorem flushEach_replay {outcome : Fin 2 → Except IoError Unit}
    {write : Fin 2 → String → Host → List U8 → Except IoError Unit × Host}
    (ends : ∀ unit path host media, (write unit path host media).1 = outcome unit)
    (units : List (Fin 2)) : ∀ (emulator : Emulator) (writes : List MediaWrite),
      ∃ error after made, flushEach (logged outcome) emulator writes units =
          (error, after, writes ++ made) ∧
        ∀ host, flushEach write emulator host units = (error, after, replay write host made) := by
  induction units with
  | nil =>
    intro emulator writes
    exact ⟨none, emulator, [], by rw [flushEach, List.append_nil], fun host => rfl⟩
  | cons unit units ih =>
    intro emulator writes
    obtain ⟨first, middle, made, turned, turn⟩ := emulator.flushUnitTo_replay ends writes unit
    obtain ⟨later, after, others, looped, rest⟩ := ih middle (writes ++ made)
    refine ⟨first.or later, after, made ++ others, ?_, fun host => ?_⟩
    · simp only [flushEach, turned, looped, List.append_assoc]
    · simp only [flushEach, turn, rest, replay, List.foldl_append]

/-- A flush to the files of the host does the logged writes to them. -/
theorem flush_eq_flushLogged (emulator : Emulator) (files : HostFiles)
    (write : Fin 2 → WriteOutcome) :
    emulator.flush files write =
      let (error, after, writes) := emulator.flushLogged fun unit => (write unit).result
      (error, after, replay (fun unit path => writeFile path (write unit)) files writes) := by
  have ends (unit : Fin 2) (path : String) (files : HostFiles) (media : List U8) :
      (writeFile path (write unit) files media).1 = (write unit).result := by
    unfold writeFile
    cases write unit <;> rfl
  obtain ⟨error, after, made, looped, replayed⟩ :=
    flushEach_replay ends [filesystem, swap] emulator []
  rw [flush_eq_flushEach, replayed, flushLogged, looped, List.nil_append]

/-- What a unit must have for a flush to write it. -/
def Due (emulator : Emulator) (unit : Fin 2) : Prop :=
  (emulator.blockMediaPaths unit).isSome = true ∧ emulator.dirty unit ≠ ∅

instance (emulator : Emulator) (unit : Fin 2) : Decidable (emulator.Due unit) :=
  inferInstanceAs (Decidable (_ ∧ _))

/-- The error of a unit whose write fails. -/
def failure (emulator : Emulator) (outcome : Fin 2 → Except IoError Unit) (unit : Fin 2) :
    Option CoreError :=
  match outcome unit with
  | .ok () => none
  | .error error => if emulator.Due unit then some (.blockFlush (unitOf unit) error) else none

/-- What flushing some units leaves: the writes, the error, and all it changes in the device. -/
structure Flushed (emulator : Emulator) (outcome : Fin 2 → Except IoError Unit)
    (units : List (Fin 2)) (error : Option CoreError) (after : Emulator)
    (writes : List MediaWrite) : Prop where
  attempted : writes.map MediaWrite.unit = units.filter fun unit => emulator.Due unit
  whole : ∀ write ∈ writes, emulator.blockMediaPaths write.unit = some write.path ∧
    mediaOf emulator.backend.machine write.unit = some write.media
  media : mediaOf after.backend.machine = mediaOf emulator.backend.machine
  paths : after.blockMediaPaths = emulator.blockMediaPaths
  dirty : ∀ unit, after.dirty unit =
    if unit ∈ units ∧ emulator.Due unit ∧ outcome unit = .ok () then ∅ else emulator.dirty unit
  first : error = units.findSome? (emulator.failure outcome)
  registers : after.backend.machine.bus.block =
    emulator.backend.machine.bus.block.afterFlush
      (units.findSome? (emulator.failure outcome)).isSome after.backend.machine.bus.block.units

variable {emulator middle after : Emulator} {outcome : Fin 2 → Except IoError Unit}
  {first later : Option CoreError} {writes others : List MediaWrite} {unit : Fin 2}
  {units : List (Fin 2)}

/-- One turn: nothing is due, or one write that fails, or one that succeeds. -/
theorem flushed_unit (mounted : emulator.backend.machine.bus.block.Mounted)
    (outcome : Fin 2 → Except IoError Unit) (writes : List MediaWrite) (unit : Fin 2) :
    ∃ error after made,
      emulator.flushUnitTo writes unit (logged outcome unit) = (error, after, writes ++ made) ∧
        Flushed emulator outcome [unit] error after made ∧
        after.backend.machine.bus.block.Mounted := by
  have idle (not_due : ¬ emulator.Due unit) : Flushed emulator outcome [unit] none emulator [] := by
    have quiet : emulator.failure outcome unit = none := by
      unfold failure
      split
      · rfl
      · exact if_neg not_due
    refine ⟨by simp [not_due], fun _ impossible => (by cases impossible), rfl, rfl, ?_, ?_, ?_⟩
    · intro other
      refine (if_neg ?_).symm
      rintro ⟨inside, due, _⟩
      exact not_due (List.mem_singleton.mp inside ▸ due)
    · simp [quiet]
    · simp [quiet, BlockDevice.afterFlush]
  cases file : emulator.blockMediaPaths unit with
  | none =>
    refine ⟨none, emulator, [], ?_, idle fun due => ?_, mounted⟩
    · simp [flushUnitTo, file]
    · simpa [file] using due.1
  | some path =>
    by_cases clean : emulator.dirty unit = ∅
    · refine ⟨none, emulator, [], ?_, idle fun due => due.2 clean, mounted⟩
      have clean' : (emulator.backend.machine.bus.block.units unit).dirtySectors = ∅ := clean
      simp only [flushUnitTo, file, MmioBus.flushBlock, BlockDevice.flush, unitIndex_unitOf, clean',
        ↓reduceIte, send_nil, List.append_nil]
      rfl
    · have dirty : ¬ (emulator.backend.machine.bus.block.units unit).dirtySectors = ∅ := clean
      have due : emulator.Due unit := ⟨by rw [file]; rfl, clean⟩
      obtain ⟨media, present⟩ : ∃ media,
          (emulator.backend.machine.bus.block.units unit).media = some media :=
        Option.ne_none_iff_exists'.mp fun absent => dirty (mounted unit absent)
      have one : ([⟨unit, path, media⟩] : List MediaWrite).map MediaWrite.unit =
          [unit].filter fun unit => emulator.Due unit := by
        simp [due]
      have whole : ∀ write ∈ ([⟨unit, path, media⟩] : List MediaWrite),
          emulator.blockMediaPaths write.unit = some write.path ∧
            mediaOf emulator.backend.machine write.unit = some write.media := by
        intro write member
        cases List.mem_singleton.mp member
        exact ⟨file, present⟩
      cases ended : outcome unit with
      | error error =>
        have failed : emulator.failure outcome unit = some (.blockFlush (unitOf unit) error) := by
          simp only [failure, ended, if_pos due]
        refine ⟨some (.blockFlush (unitOf unit) error),
          emulator.setBus ({ emulator.backend.machine.bus with
            block := emulator.backend.machine.bus.block.markFlushFailed }.send
              [emulator.backend.machine.bus.block.markFlushFailed.signal]), [⟨unit, path, media⟩],
          ?_, ⟨one, whole, rfl, rfl, ?_, ?_, ?_⟩, mounted.congr rfl⟩
        · simp only [flushUnitTo, file, MmioBus.flushBlock, BlockDevice.flush, unitIndex_unitOf,
            dirty, ↓reduceIte, present, logged, ended]
        · intro other
          refine (if_neg ?_).symm
          rintro ⟨inside, _, success⟩
          rw [List.mem_singleton.mp inside, ended] at success
          cases success
        · simp [failed]
        · simp [failed, BlockDevice.afterFlush, setBus, UnicornBackend.setBus, MmioBus.send, BlockDevice.markFlushFailed]
      | ok done =>
        have succeeded : emulator.failure outcome unit = none := by
          simp only [failure, ended]
        refine ⟨none, emulator.setBus { emulator.backend.machine.bus with
            block := emulator.backend.machine.bus.block.setUnitState unit
              { emulator.backend.machine.bus.block.units unit with dirtySectors := ∅ } },
          [⟨unit, path, media⟩], ?_, ⟨one, whole, ?_, rfl, ?_, ?_, ?_⟩, ?_⟩
        · simp only [flushUnitTo, file, MmioBus.flushBlock, BlockDevice.flush, unitIndex_unitOf,
            dirty, ↓reduceIte, present, logged, ended, send_nil]
        · funext other
          by_cases same : other = unit
          · subst same
            simp [mediaOf, setBus, UnicornBackend.setBus, BlockDevice.setUnitState]
          · simp [mediaOf, setBus, UnicornBackend.setBus, BlockDevice.setUnitState, same]
        · intro other
          by_cases same : other = unit
          · subst same
            simp [Emulator.dirty, setBus, UnicornBackend.setBus, BlockDevice.setUnitState, due,
              ended]
          · simp [Emulator.dirty, setBus, UnicornBackend.setBus, BlockDevice.setUnitState, same]
        · simp [succeeded]
        · simp [succeeded, BlockDevice.afterFlush, setBus, UnicornBackend.setBus,
            BlockDevice.setUnitState]
        · exact mounted.replace (fun _ => rfl) rfl

/-- A turn for one unit and then the turns for others. -/
theorem Flushed.cons (turn : Flushed emulator outcome [unit] first middle writes)
    (rest : Flushed middle outcome units later after others) (fresh : unit ∉ units) :
    Flushed emulator outcome (unit :: units) (first.or later) after (writes ++ others) := by
  have untouched {other : Fin 2} (inside : other ∈ units) :
      middle.dirty other = emulator.dirty other := by
    rw [turn.dirty]
    refine if_neg ?_
    rintro ⟨same, _⟩
    exact fresh (List.mem_singleton.mp same ▸ inside)
  have due {other : Fin 2} (inside : other ∈ units) : middle.Due other ↔ emulator.Due other := by
    unfold Due
    rw [turn.paths, untouched inside]
  have failures : units.findSome? (middle.failure outcome) =
      units.findSome? (emulator.failure outcome) := by
    rw [← List.head?_filterMap, ← List.head?_filterMap]
    congr 1
    refine List.filterMap_congr fun other inside => ?_
    simp only [failure, due inside]
  have found : (unit :: units).findSome? (emulator.failure outcome) =
      ([unit].findSome? (emulator.failure outcome)).or
        (units.findSome? (emulator.failure outcome)) := by
    rw [← List.findSome?_append]
    rfl
  constructor
  · have same : units.filter (fun unit => middle.Due unit) =
        units.filter fun unit => emulator.Due unit :=
      List.filter_congr fun other inside => decide_eq_decide.mpr (due inside)
    rw [List.map_append, turn.attempted, rest.attempted, same, ← List.filter_append]
    rfl
  · intro write member
    rcases List.mem_append.mp member with inside | inside
    · exact turn.whole write inside
    · have written := rest.whole write inside
      rwa [turn.paths, turn.media] at written
  · rw [rest.media, turn.media]
  · rw [rest.paths, turn.paths]
  · intro other
    rw [rest.dirty]
    by_cases inside : other ∈ units
    · simp only [inside, due inside, untouched inside, true_and, List.mem_cons, or_true]
    · rw [if_neg fun both => inside both.1, turn.dirty]
      simp only [List.mem_cons, List.not_mem_nil, inside, or_false]
  · rw [found, turn.first, rest.first, failures]
  · rw [found, rest.registers, failures, turn.registers]
    generalize [unit].findSome? (emulator.failure outcome) = one
    generalize units.findSome? (emulator.failure outcome) = two
    cases one <;> cases two <;> simp [BlockDevice.afterFlush]

/-- The loop over distinct units. -/
theorem flushed_each (outcome : Fin 2 → Except IoError Unit) {units : List (Fin 2)}
    (distinct : units.Nodup) : ∀ (emulator : Emulator) (writes : List MediaWrite),
      emulator.backend.machine.bus.block.Mounted →
      ∃ error after made,
        flushEach (logged outcome) emulator writes units = (error, after, writes ++ made) ∧
          Flushed emulator outcome units error after made := by
  induction units with
  | nil =>
    intro emulator writes _
    refine ⟨none, emulator, [], by rw [flushEach, List.append_nil],
      rfl, fun _ impossible => (by cases impossible), rfl, rfl, fun unit => by simp, rfl, ?_⟩
    simp [BlockDevice.afterFlush]
  | cons unit units ih =>
    intro emulator writes mounted
    rw [List.nodup_cons] at distinct
    obtain ⟨first, middle, made, turned, turn, mounted⟩ :=
      emulator.flushed_unit mounted outcome writes unit
    obtain ⟨later, after, others, looped, rest⟩ := ih distinct.2 middle (writes ++ made) mounted
    refine ⟨first.or later, after, made ++ others, ?_, turn.cons rest distinct.1⟩
    simp only [flushEach, turned, looped, List.append_assoc]

theorem failure_eq_none :
    emulator.failure outcome unit = none ↔ (emulator.Due unit → outcome unit = .ok ()) := by
  unfold failure
  split
  · rename_i done ended
    exact iff_of_true rfl fun _ => ended
  · rename_i error ended
    by_cases due : emulator.Due unit
    · simp [due, ended]
    · simp [due]

/-- Flushing both units writes each one that has a file and dirty sectors, once and whole; the
written ones become clean, no media changes, and the error is that of the lowest failing unit. -/
theorem flush_both_units (emulator : Emulator) (steps : List BlockDevice.DeviceStep)
    (reached : emulator.backend.machine.bus.block = run BlockDevice.step .new steps)
    (files files' : HostFiles) (write : Fin 2 → WriteOutcome) (error : Option CoreError)
    (after : Emulator) (writes : List MediaWrite)
    (flushed : emulator.flush files write = (error, after, files'))
    (attempted : writes = (emulator.flushLogged fun unit => (write unit).result).2.2) :
    files' = replay (fun unit path => writeFile path (write unit)) files writes ∧
      writes.map MediaWrite.unit = ([0, 1] : List (Fin 2)).filter (fun unit =>
        (emulator.blockMediaPaths unit).isSome = true ∧ emulator.dirty unit ≠ ∅) ∧
      (∀ entry ∈ writes, emulator.blockMediaPaths entry.unit = some entry.path ∧
        mediaOf emulator.backend.machine entry.unit = some entry.media) ∧
      (∀ unit, after.dirty unit =
        if emulator.Due unit ∧ (write unit).result = .ok () then ∅ else emulator.dirty unit) ∧
      mediaOf after.backend.machine = mediaOf emulator.backend.machine ∧
      (error = none ↔ ∀ unit, emulator.Due unit → (write unit).result = .ok ()) ∧
      (∀ unit failed, emulator.Due unit → (write unit).result = .error failed →
        (∀ lower, lower < unit → emulator.Due lower → (write lower).result = .ok ()) →
        error = some (.blockFlush (unitOf unit) failed)) ∧
      (error = none →
        after.backend.machine.bus.block.complete = emulator.backend.machine.bus.block.complete ∧
        after.backend.machine.bus.block.error = emulator.backend.machine.bus.block.error) ∧
      (error ≠ none → after.backend.machine.bus.block.complete = true ∧
        after.backend.machine.bus.block.error = .deferredPersistence) := by
  have mounted : emulator.backend.machine.bus.block.Mounted := by
    rw [reached]
    exact BlockDevice.mounted_run steps
  have both : [filesystem, swap].Nodup := by decide
  obtain ⟨error, after, made, looped, settled⟩ :=
    flushed_each (fun unit => (write unit).result) both emulator [] mounted
  rw [flush_eq_flushLogged, flushLogged, looped, List.nil_append] at flushed
  rw [flushLogged, looped, List.nil_append] at attempted
  cases flushed
  cases attempted
  have failed : error = [filesystem, swap].findSome?
      (emulator.failure fun unit => (write unit).result) := settled.first
  have every (unit : Fin 2) : unit ∈ [filesystem, swap] := by revert unit; decide
  have registers := settled.registers
  rw [← failed] at registers
  refine ⟨rfl, settled.attempted, settled.whole, fun unit => ?_, settled.media, ?_, ?_, ?_, ?_⟩
  · rw [settled.dirty]
    simp only [every, true_and]
  · rw [failed, List.findSome?_eq_none_iff]
    constructor
    · intro none unit
      exact failure_eq_none.mp (none unit (every unit))
    · intro written unit _
      exact failure_eq_none.mpr (written unit)
  · intro unit error due ended before
    have here : emulator.failure (fun unit => (write unit).result) unit =
        some (.blockFlush (unitOf unit) error) := by
      simp only [failure, ended, if_pos due]
    have below (lower : Fin 2) (lt : lower < unit) :
        emulator.failure (fun unit => (write unit).result) lower = none :=
      failure_eq_none.mpr (before lower lt)
    rw [failed, List.findSome?_eq_some_iff]
    rcases Fin.exists_fin_two.mp ⟨unit, rfl⟩ with rfl | rfl
    · exact ⟨[], filesystem, [swap], rfl, here, fun _ impossible => (by cases impossible)⟩
    · refine ⟨[filesystem], swap, [], rfl, here, fun lower member => ?_⟩
      cases List.mem_singleton.mp member
      exact below filesystem Nat.zero_lt_one
  · intro none
    rw [registers, none]
    simp [BlockDevice.afterFlush]
  · intro some
    rw [registers, Option.isSome_iff_ne_none.mpr some]
    simp [BlockDevice.afterFlush]

/-- Both units get a sector, and then a guest write to it. -/
def bothWritten : List BlockDevice.DeviceStep :=
  [.update (.attach 0 (List.replicate 512 0)), .update (.attach 1 (List.replicate 512 0)),
    .update (.write .sectorCount 1 0), .update (.write .physicalAddress 0x4000_0000 0),
    .update (.write .command 2 0), .advanceTo 32 Machine.default.memory,
    .update (.write .unit 1 32), .update (.write .command 2 32),
    .advanceTo 64 Machine.default.memory]

def twoDisks : Emulator where
  backend := .new { Machine.default with bus := { Machine.default.bus with
    block := run BlockDevice.step .new bothWritten } }
  entry := 0x8000
  stop := 0
  instructionBatch := 64
  blockMediaPaths := ![some "disk0.img", some "disk1.img"]
  initialRamWrites := []

/-- The filesystem disk is full, the swap disk is not. -/
def firstDiskFull : Fin 2 → WriteOutcome :=
  ![.failed ⟨"no space left on device"⟩ [], .written]

set_option maxRecDepth 8000 in
/-- The second disk is saved although the first one fails. -/
theorem flush_both_units_first_full : ∃ after files,
    twoDisks.flush emptyDisk firstDiskFull =
        (some (.blockFlush (unitOf 0) ⟨"no space left on device"⟩), after, files) ∧
      after.dirty 1 = ∅ := by
  have due : ∀ unit, twoDisks.Due unit := by decide +kernel
  obtain ⟨⟨error, after, files⟩, flushed⟩ :
      ∃ result, twoDisks.flush emptyDisk firstDiskFull = result := ⟨_, rfl⟩
  obtain ⟨_, _, _, dirty, _, _, lowest, _⟩ :=
    flush_both_units twoDisks bothWritten rfl emptyDisk files firstDiskFull error after _ flushed rfl
  refine ⟨after, files, ?_, ?_⟩
  · rw [flushed, lowest 0 _ (due 0) rfl fun lower below => absurd below (Fin.not_lt_zero lower)]
  · rw [dirty, if_pos ⟨due 1, rfl⟩]

end Emulator

end Minemu.Runtime
