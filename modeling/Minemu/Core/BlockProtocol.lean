import Minemu.Core.BlockPersistence

/-! The request protocol of the block device: a command accepted while idle is carried out once,
at its deadline, with the values it was accepted with, whatever happens in between. -/

namespace Minemu.Core.BlockDevice

open Library Platform BlockPersistence

variable {device : BlockDevice} {request : Request}

/-- One use of the device, by the guest, the host or the clock. -/
inductive DeviceStep where
  | update (update : BlockUpdate)
  | flush (unit : U32) (outcome : Except IoError Unit)
  | advanceTo (now : Nat) (memory : PhysicalMemory)

/-- A rejected update leaves the device as it was. -/
def step (device : BlockDevice) : DeviceStep → BlockDevice
  | .update update => (device.applyUpdate update).toOption.getD device
  | .flush unit outcome => (device.flush unit () fun _ _ => (outcome, ())).2.1
  | .advanceTo now memory => (device.advanceTo now memory).1

/-- The request a command would create, from the staged values of this moment. -/
def snapshot (device : BlockDevice) (command : U32) (now : Nat) : Request :=
  ⟨command, device.lba, device.sectorCount, device.dmaAddress, device.unit, now + 32⟩

/-- The request a step accepts. -/
def accepts (device : BlockDevice) : DeviceStep → List Request
  | .update (.write .command value now) =>
    if device.active.isSome then [] else [device.snapshot value now]
  | _ => []

/-- The request a step carries out. -/
def carriesOut (device : BlockDevice) : DeviceStep → List Request
  | .advanceTo now _ => (device.active.filter fun request => request.deadline ≤ now).toList
  | _ => []

/-- What a run has of something that its steps do, in order. -/
def log (does : BlockDevice → DeviceStep → List Request) (device : BlockDevice) :
    List DeviceStep → List Request
  | [] => []
  | next :: steps => does device next ++ log does (device.step next) steps

/-! ### Single steps -/

/-- A command while a request is active is refused with Busy. -/
theorem command_busy (active : device.active = some request) (value : U32) (now : Nat) :
    device.step (.update (.write .command value now)) =
      { device with complete := true, error := .busy } := by
  simp [step, applyUpdate, writeRegister, command, active, Except.toOption]

/-- A command while idle clears the last result and becomes the active request. -/
theorem command_idle (idle : device.active = none) (value : U32) (now : Nat) :
    device.step (.update (.write .command value now)) =
      { device with
        complete := false
        error := .none
        active := some (device.snapshot value now) } := by
  simp [step, applyUpdate, writeRegister, command, idle, Except.toOption, snapshot,
    completionDelay]

theorem advanceTo_early {now : Nat} (memory : PhysicalMemory)
    (early : ∀ request, device.active = some request → now < request.deadline) :
    device.advanceTo now memory = (device, memory, []) := by
  unfold advanceTo
  cases active : device.active with
  | none => rfl
  | some request => simp only [if_pos (early request active)]

/-- The device and the memory once a request has been carried out. -/
def carriedOut (device : BlockDevice) (request : Request) (memory : PhysicalMemory) :
    BlockDevice × PhysicalMemory :=
  match execute device.units request memory with
  | .ok (units, memory) =>
    ({ device with active := none, error := .none, complete := true, units }, memory)
  | .error error => ({ device with active := none, error, complete := true }, memory)

theorem advanceTo_due {now : Nat} (memory : PhysicalMemory) (active : device.active = some request)
    (due : request.deadline ≤ now) :
    (device.advanceTo now memory).1 = (device.carriedOut request memory).1 ∧
      (device.advanceTo now memory).2.1 = (device.carriedOut request memory).2 := by
  unfold advanceTo carriedOut
  simp only [active, if_neg (not_lt.mpr due)]
  cases execute device.units request memory <;> exact ⟨rfl, rfl⟩

theorem carriedOut_active (memory : PhysicalMemory) :
    (device.carriedOut request memory).1.active = none := by
  unfold carriedOut
  split <;> rfl

theorem flush_active (unit : U32) (outcome : Except IoError Unit) :
    (device.step (.flush unit outcome)).active = device.active := by
  unfold step flush
  simp only
  split
  · rfl
  · split
    · rfl
    · split
      · rfl
      · cases outcome <;> rfl

/-- No update but a command touches the active request. -/
theorem applyUpdate_active {update : BlockUpdate} {after : BlockDevice}
    (other : ∀ value now, update ≠ .write .command value now)
    (applied : device.applyUpdate update = .ok after) : after.active = device.active := by
  cases update with
  | attach unit media =>
    obtain ⟨_, _, _, _, rfl⟩ := attach_ok applied
    rfl
  | detach unit =>
    obtain ⟨_, _, rfl⟩ := detach_ok applied
    rfl
  | flushFailed unit =>
    change (unitIndex unit).map (fun _ => device.markFlushFailed) = .ok after at applied
    cases found : unitIndex unit with
    | error error => simp [found, Except.map] at applied
    | ok index =>
      rw [found] at applied
      cases applied
      rfl
  | write register value now =>
    cases applied
    cases register with
    | command => exact absurd rfl (other value now)
    | lba | sectorCount | physicalAddress | status | error | ack | control | unit => rfl

theorem update_active {update : BlockUpdate}
    (other : ∀ value now, update ≠ .write .command value now) :
    (device.step (.update update)).active = device.active := by
  rw [step]
  cases applied : device.applyUpdate update with
  | error error => rfl
  | ok after => exact applyUpdate_active other applied

/-- What a step accepts and carries out accounts for every change of the active request. -/
theorem step_balance (device : BlockDevice) (next : DeviceStep) :
    device.active.toList ++ device.accepts next =
      device.carriesOut next ++ (device.step next).active.toList := by
  cases next with
  | flush unit outcome =>
    change device.active.toList ++ [] = [] ++ _
    rw [flush_active, List.append_nil, List.nil_append]
  | advanceTo now memory =>
    change device.active.toList ++ [] =
      (device.active.filter fun request => request.deadline ≤ now).toList ++ _
    rw [List.append_nil]
    by_cases early : ∀ request, device.active = some request → now < request.deadline
    · rw [step, advanceTo_early memory early]
      cases active : device.active with
      | none => rfl
      | some request => simp [Option.filter, not_le.mpr (early request active)]
    · push Not at early
      obtain ⟨request, active, due⟩ := early
      rw [step, (advanceTo_due memory active due).1, carriedOut_active, active]
      simp [Option.filter, due]
  | update update =>
    cases update with
    | attach unit media | detach unit | flushFailed unit =>
      change device.active.toList ++ [] = [] ++ _
      rw [update_active (by simp), List.append_nil, List.nil_append]
    | write register value now =>
      cases register with
      | command =>
        change device.active.toList ++
          (if device.active.isSome then [] else [device.snapshot value now]) = [] ++ _
        cases active : device.active with
        | none =>
          rw [command_idle active]
          rfl
        | some request =>
          rw [command_busy active]
          simp [active]
      | lba | sectorCount | physicalAddress | status | error | ack | control | unit =>
        change device.active.toList ++ [] = [] ++ _
        rw [update_active (by simp), List.append_nil, List.nil_append]

/-- Over a run, what was accepted is what was carried out and then what is still active. -/
theorem log_balance (device : BlockDevice) (steps : List DeviceStep) :
    device.active.toList ++ log accepts device steps =
      log carriesOut device steps ++ (run step device steps).active.toList := by
  induction steps generalizing device with
  | nil => simp [log]
  | cons next steps ih =>
    calc device.active.toList ++ log accepts device (next :: steps)
        = (device.active.toList ++ device.accepts next) ++ log accepts (device.step next) steps := by
          rw [log, List.append_assoc]
      _ = device.carriesOut next ++
            ((device.step next).active.toList ++ log accepts (device.step next) steps) := by
          rw [step_balance, List.append_assoc]
      _ = log carriesOut device (next :: steps) ++ (run step device (next :: steps)).active.toList := by
          rw [ih, log, List.append_assoc, run_cons]

/-- A step neither cancels nor replaces a request that is not due. -/
theorem step_active (active : device.active = some request) {next : DeviceStep}
    (early : ∀ now memory, next = .advanceTo now memory → now < request.deadline) :
    (device.step next).active = some request := by
  cases next with
  | flush unit outcome => rw [flush_active, active]
  | advanceTo now memory =>
    have quiet : ∀ other, device.active = some other → now < other.deadline := by
      intro other same
      cases active.symm.trans same
      exact early now memory rfl
    rw [step, advanceTo_early memory quiet, active]
  | update update =>
    by_cases command : ∃ value now, update = .write .command value now
    · obtain ⟨value, now, rfl⟩ := command
      rw [command_busy active]
      exact active
    · rw [update_active fun value now same => command ⟨value, now, same⟩, active]

/-- Until its deadline an accepted request stays as it is. -/
theorem run_active (active : device.active = some request) {steps : List DeviceStep}
    (early : ∀ now memory, .advanceTo now memory ∈ steps → now < request.deadline) :
    (run step device steps).active = some request := by
  have preserved (device : BlockDevice) (next : DeviceStep)
      (early : ∀ now memory, next = .advanceTo now memory → now < request.deadline)
      (active : device.active = some request) : (device.step next).active = some request :=
    step_active active early
  refine run_invariant preserved device steps active fun next member now memory same => ?_
  exact early now memory (same ▸ member)

theorem busy_iff : device.status &&& statusBusy ≠ 0#32 ↔ device.active.isSome = true := by
  unfold status
  generalize device.active.isSome = busy
  generalize device.complete = complete
  by_cases clear : device.error = .none
  · rw [if_pos clear]
    revert busy complete
    decide
  · rw [if_neg clear]
    revert busy complete
    decide

/-! ### The protocol -/

/-- What holds of the requests in a state of the device. -/
structure RequestProtocol (device : BlockDevice) : Prop where
  /-- STATUS.busy tells whether the one active request is there. -/
  busy : device.status &&& statusBusy ≠ 0#32 ↔ device.active.isSome = true
  /-- A command while idle becomes the active request with the values of its moment. It stays
  so until the first advance at or after its deadline, which carries it out. -/
  accepted : device.active = none → ∀ value start,
    device.step (.update (.write .command value start)) =
        { device with
          complete := false
          error := .none
          active := some (device.snapshot value start) } ∧
      ∀ steps, (∀ now memory, .advanceTo now memory ∈ steps → now < start + 32) →
        let waiting := run step device (.update (.write .command value start) :: steps)
        waiting.active = some (device.snapshot value start) ∧
          ∀ now memory, start + 32 ≤ now →
            (waiting.advanceTo now memory).1 =
                (waiting.carriedOut (device.snapshot value start) memory).1 ∧
              (waiting.advanceTo now memory).2.1 =
                (waiting.carriedOut (device.snapshot value start) memory).2
  /-- A command while busy only reports Busy. -/
  refused : device.active.isSome = true → ∀ value now,
    device.step (.update (.write .command value now)) =
      { device with complete := true, error := .busy }
  /-- Nothing else touches the active request before its deadline. -/
  kept : ∀ request, device.active = some request → ∀ next,
    (∀ now memory, next = .advanceTo now memory → now < request.deadline) →
      (device.step next).active = some request
  /-- An advance that finds nothing due changes nothing. -/
  early : ∀ now memory, (∀ request, device.active = some request → now < request.deadline) →
    device.advanceTo now memory = (device, memory, [])

/-- The request protocol holds in every state the device reaches, and the requests accepted
on the way are those carried out, in order, and then the active one. -/
theorem block_request_protocol (steps : List DeviceStep) :
    RequestProtocol (run step .new steps) ∧
      log accepts .new steps =
        log carriesOut .new steps ++ (run step .new steps).active.toList := by
  refine ⟨?_, log_balance .new steps⟩
  generalize run step .new steps = device
  refine ⟨busy_iff, fun idle value start => ⟨command_idle idle value start, ?_⟩, ?_,
    fun request active next early => step_active active early,
    fun now memory early => advanceTo_early memory early⟩
  · intro steps early
    have active : (device.step (.update (.write .command value start))).active =
        some (device.snapshot value start) := by rw [command_idle idle]
    have waiting := run_active active early
    exact ⟨waiting, fun now memory due => advanceTo_due memory waiting due⟩
  · intro busy value now
    obtain ⟨request, active⟩ := Option.isSome_iff_exists.mp busy
    exact command_busy active value now

end Minemu.Core.BlockDevice
