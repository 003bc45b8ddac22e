import Minemu.Library.Channel
import Minemu.Library.Runs
import Minemu.Runtime.Service

/-! The handle and the service on the two ends of the command channel: when a caller of
`shutdown` waits for the thread, was the thread told to stop? -/

namespace Minemu.Runtime

open Library Platform Minemu.Core Minemu.Unicorn

/-- The service with its command channel. `placed` records that a Shutdown command was put into
the channel, `waiting` counts the callers of `shutdown` between their send and the join, and
`joined` records that one has gone on to join. -/
structure System where
  service : Service
  commands : Channel Command
  placed : Bool
  waiting : Nat
  joined : Bool

namespace System

/-- What `RuntimeHandle::spawn` connects. -/
def spawn (service : Service) (commandCapacity : Nat) : System :=
  ⟨service, .empty (max commandCapacity 1), false, 0, false⟩

/-- `RuntimeHandle::send`. -/
def send (system : System) (command : Command) : SendOutcome × System :=
  let (outcome, commands) := system.commands.trySend command
  (outcome, { system with
    commands
    placed := system.placed || (outcome = .sent && command = .shutdown) })

/-- One step of a host thread or of the service thread. -/
inductive Interleaving where
  | send (command : Command)
  | shutdown
  | join
  | receive (host : HostOutcomes)
  | turn (inbox : UartPort → List U8) (runner : Service.Runner) (publishDue : Bool)
    (host : HostOutcomes)
  | exit

/-- `shutdown` sends, whatever the outcome, and then joins. The service takes commands while it
is live, and drops its receiver when its loop has ended. -/
def step (system : System) : Interleaving → System
  | .send command => (system.send command).2
  | .shutdown =>
    let (_, system) := system.send .shutdown
    { system with waiting := system.waiting + 1 }
  | .join =>
    if system.waiting = 0 then system
    else { system with waiting := system.waiting - 1, joined := true }
  | .receive host =>
    if system.service.live = false then system
    else
      let (command, commands) := system.commands.receive
      match command with
      | none => system
      | some command =>
        { system with commands, service := system.service.step (.command command host) }
  | .turn inbox runner publishDue host =>
    { system with service := system.service.step (.turn inbox runner publishDue host) }
  | .exit =>
    if system.service.live = true then system
    else { system with commands := system.commands.disconnect }

/-- A Shutdown command has been placed, or the receiver is gone. -/
def Told (system : System) : Prop := system.placed = true ∨ system.commands.connected = false

variable {system : System}

/-! ### One send -/

theorem told_send (told : system.Told) (command : Command) : (system.send command).2.Told := by
  rcases told with placed | gone
  · left
    simp [send, placed]
  · right
    simp [send, gone]

/-- After the send of `shutdown` the service is told exactly when it was told before or there
was room. -/
theorem told_shutdown_iff : (system.step .shutdown).Told ↔
    system.Told ∨ system.commands.HasRoom := by
  constructor
  · intro told
    by_contra neither
    rw [not_or] at neither
    obtain ⟨untold, full⟩ := neither
    have failed : (system.commands.trySend .shutdown).1 ≠ .sent ∧
        (system.commands.trySend .shutdown).2 = system.commands := Channel.trySend_failed (.inr full)
    rcases told with placed | gone
    · refine untold (.inl ?_)
      simpa [step, send, failed.1] using placed
    · refine untold (.inr ?_)
      simpa [step, send] using gone
  · rintro (told | room)
    · rcases told_send told .shutdown with placed | gone
      · exact .inl placed
      · exact .inr gone
    · by_cases gone : system.commands.connected = false
      · right
        simpa [step, send] using gone
      · left
        rw [Bool.not_eq_false] at gone
        have sent : (system.commands.trySend .shutdown).1 = .sent :=
          (Channel.trySend_sent gone room).1
        simp [step, send, sent]

/-! ### Runs -/

/-- What the service was told it stays told. -/
theorem told_step (told : system.Told) (next : Interleaving) : (system.step next).Told := by
  cases next with
  | send command => exact told_send told command
  | shutdown => exact told_shutdown_iff.mpr (.inl told)
  | join =>
    simp only [step]
    split
    · exact told
    · exact told
  | receive host =>
    simp only [step]
    split
    · exact told
    · split
      · exact told
      · exact told
  | turn inbox runner publishDue host => exact told
  | exit =>
    simp only [step]
    split
    · exact told
    · exact .inr rfl

/-- Callers of `shutdown` that are past their send find the service told. -/
def Answered (system : System) : Prop := 0 < system.waiting ∨ system.joined = true → system.Told

/-- The send of `shutdown` finds room, or the service has been told before. -/
def Heard (system : System) (next : Interleaving) : Prop :=
  next = .shutdown → system.Told ∨ system.commands.HasRoom

theorem answered_step (system : System) (next : Interleaving) (heard : system.Heard next)
    (answered : system.Answered) : (system.step next).Answered := by
  intro past
  cases next with
  | shutdown => exact told_shutdown_iff.mpr (heard rfl)
  | join =>
    refine told_step (answered ?_) .join
    by_cases idle : system.waiting = 0
    · simp only [step, if_pos idle] at past
      exact past
    · exact .inl (Nat.pos_of_ne_zero idle)
  | send command => exact told_step (answered past) _
  | turn inbox runner publishDue host => exact told_step (answered past) _
  | receive host =>
    refine told_step (answered ?_) _
    simp only [step] at past
    split at past
    · exact past
    · split at past <;> exact past
  | exit =>
    refine told_step (answered ?_) _
    simp only [step] at past
    split at past <;> exact past

/-- In a run, every `shutdown` leaves the service told exactly when each of its sends finds
room in the channel or the service told already; and then whoever goes on to join, at whatever
moment, waits for a thread that was told. -/
theorem shutdown_told_iff (service : Service) (commandCapacity : Nat) (steps : List Interleaving) :
    (Throughout step (fun system next => next = .shutdown → (system.step next).Told)
        (spawn service commandCapacity) steps ↔
      Throughout step Heard (spawn service commandCapacity) steps) ∧
    (Throughout step Heard (spawn service commandCapacity) steps →
      ∀ system ∈ visited step (spawn service commandCapacity) steps,
        0 < system.waiting ∨ system.joined = true → system.Told) := by
  constructor
  · refine throughout_congr (fun system next => ?_) _ _
    refine forall_congr' fun same => ?_
    rw [same]
    exact told_shutdown_iff
  · intro heard
    refine throughout_invariant answered_step _ _ ?_ heard
    rintro (waiting | joined)
    · exact absurd waiting (by simp [spawn])
    · exact absurd joined (by simp [spawn])

/-! ### What telling does -/

/-- A Shutdown command that was placed is still queued, or the service has stopped. -/
def Delivered (system : System) : Prop :=
  system.placed = true → .shutdown ∈ system.commands.queue ∨ system.service.live = false

theorem step_stopped {service : Service} (stopped : service.live = false) (next : Service.Step) :
    (service.step next).live = false := by
  simp only [Service.step, stopped, Bool.not_false, ↓reduceIte]

theorem step_shutdown (service : Service) (host : HostOutcomes) :
    (service.step (.command .shutdown host)).live = false := by
  cases live : service.live with
  | false => exact step_stopped live _
  | true =>
    simp only [Service.step, live, Bool.not_true, Bool.false_eq_true, ↓reduceIte]
    rfl

theorem delivered_send (delivered : system.Delivered) (command : Command) :
    (system.send command).2.Delivered := by
  intro placed
  by_cases before : system.placed = true
  · exact (delivered before).imp_left Channel.mem_trySend
  · left
    rw [Bool.not_eq_true] at before
    simp only [send, before, Bool.false_or, Bool.and_eq_true, decide_eq_true_iff] at placed
    obtain ⟨sent, rfl⟩ := placed
    obtain ⟨connected, room⟩ := Channel.trySend_sent_iff.mp sent
    rw [send, (Channel.trySend_sent connected room).2.1]
    exact List.mem_append_right _ (.head _)

theorem delivered_step (system : System) (next : Interleaving) (delivered : system.Delivered) :
    (system.step next).Delivered := by
  cases next with
  | send command => exact delivered_send delivered command
  | shutdown => exact delivered_send delivered .shutdown
  | join =>
    simp only [step]
    split <;> exact delivered
  | turn inbox runner publishDue host =>
    intro placed
    exact (delivered placed).imp_right fun stopped => step_stopped stopped _
  | exit =>
    simp only [step]
    split
    · exact delivered
    · rename_i stopped
      exact fun _ => .inr (Bool.eq_false_of_not_eq_true stopped)
  | receive host =>
    simp only [step]
    split
    · exact delivered
    · split
      · exact delivered
      · rename_i command first
        intro placed
        obtain ⟨rest, queue⟩ := List.head?_eq_some_iff.mp first
        rcases delivered placed with queued | stopped
        · rw [queue] at queued
          rcases List.mem_cons.mp queued with rfl | later
          · exact .inr (step_shutdown _ host)
          · left
            simpa [Channel.receive, queue] using later
        · exact .inr (step_stopped stopped _)

/-- In every run a placed Shutdown command is still queued, or the service has stopped. -/
theorem placed_delivered (service : Service) (commandCapacity : Nat) (steps : List Interleaving) :
    ∀ system ∈ visited step (spawn service commandCapacity) steps, system.Delivered := by
  have preserved (system : System) (next : Interleaving) (_ : True) (delivered : system.Delivered) :
      (system.step next).Delivered := delivered_step system next delivered
  refine visited_invariant preserved _ steps ?_ (fun _ _ => trivial)
  intro placed
  cases placed

/-! ### A full queue -/

def quietHost : HostOutcomes := ⟨fun _ => .ok (), fun _ => .ok [], .ok (), .ok (), .ofMemory⟩

def plainConfig : RuntimeConfig where
  machine := .default
  entry := 0
  stop := BitVec.allOnes 32
  instructionBatch := 1
  blockMediaPaths := fun _ => none
  initialRamWrites := []
  startPaused := true
  executionDeadline := none
  scheduledUart := []

/-- With a pause still queued in a channel for one command, the Shutdown of `shutdown` is
dropped, and its caller goes on to join. -/
theorem full_queue_unheard : ∃ service, Service.start plainConfig quietHost = .ok service ∧
    ∃ system, run step (spawn service 1) [.send .pause, .shutdown, .join] = system ∧
      system.joined = true ∧ ¬ system.Told ∧ system.service.live = true := by
  refine ⟨_, rfl, _, rfl, rfl, ?_, rfl⟩
  rintro (placed | gone)
  · cases placed
  · cases gone

end System

end Minemu.Runtime
