import Minemu.Library.Barriers
import Minemu.Runtime.Reset
import Minemu.Runtime.UartIngress
import Minemu.Tui.CommandBar
import Minemu.Tui.ConsoleOrigins

/-! The console across a reset: its inspections are answered by the emulator thread some time
after they were requested, and the transcripts are cleared when the reset is requested. -/

namespace Minemu.Tui

open Library Platform Minemu.Core Minemu.Unicorn Minemu.Runtime

inductive WidgetId where
  | header
  | console
  | events
  | dialog
  | primary
  | secondary
  | inputBar
  | hints
  | help
deriving DecidableEq

/-- The keys that insert mode knows, a character by its UTF-8 bytes. -/
inductive ConsoleKey where
  | enter
  | backspace
  | char (utf8 : List U8)
  | other

/-- What the app processes, as far as it reaches the console or the emulator thread. The
lifecycle commands that an action sends are actions of their own. -/
inductive ConsoleAction where
  | selectView (view : View)
  | pause
  | resume (instructionLimit : Option ℕ+)
  | shutdown
  | reset
  | sendUart (port : UartPort) (bytes : List U8)
  | requestInspection (target : WidgetId) (request : RuntimeInspectionRequest)
  | widgetKey (target : WidgetId) (mode : InputMode) (key : ConsoleKey)
  | insertText (target : WidgetId) (text : List U8)
  | setUart (port : UartPort)

/-- The events the console widget reacts to, but for scrolling. -/
inductive ConsoleEvent where
  | inspection (inspection : RuntimeInspection)
  | viewChanged (view : View)
  | reset
  | pulse
  | uartSelected (port : UartPort)
  | insertText (text : List U8)

structure ConsoleWidget where
  uart : UartPort := .uart0
  uart0 : ConsoleStream := {}
  uart1 : ConsoleStream := {}
  active : Bool := true

namespace ConsoleWidget

def stream (console : ConsoleWidget) : UartPort → ConsoleStream
  | .uart0 => console.uart0
  | .uart1 => console.uart1

def setStream (console : ConsoleWidget) (stream : ConsoleStream) : UartPort → ConsoleWidget
  | .uart0 => { console with uart0 := stream }
  | .uart1 => { console with uart1 := stream }

/-- The bytes that a key sends; in normal mode no key sends any. -/
def typed (mode : InputMode) (key : ConsoleKey) : Option (List U8) :=
  match mode, key with
  | .insert, .enter => some [10]
  | .insert, .backspace => some [8]
  | .insert, .char utf8 => some utf8
  | _, _ => none

/-- Input is echoed at once and sent on. -/
def send (console : ConsoleWidget) (bytes : List U8) : ConsoleWidget × List ConsoleAction :=
  (console.setStream ((console.stream console.uart).echoInput bytes) console.uart,
    [.sendUart console.uart bytes])

def requestPeripherals : ConsoleAction := .requestInspection .console (.machine .peripherals)

def update (console : ConsoleWidget) : ConsoleEvent → ConsoleWidget × List ConsoleAction
  | .inspection (.machine (.peripherals bus)) =>
    ({ console with
        uart0 := console.uart0.observe bus.uart0.inspect
        uart1 := console.uart1.observe bus.uart1.inspect }, [])
  | .inspection _ => (console, [])
  | .viewChanged view =>
    ({ console with active := view = .runtime }, if view = .runtime then [requestPeripherals] else [])
  | .reset => ({ console with uart0 := console.uart0.reset, uart1 := console.uart1.reset }, [])
  | .pulse => (console, if console.active then [requestPeripherals] else [])
  | .uartSelected uart => ({ console with uart }, [])
  | .insertText text => console.send text

end ConsoleWidget

/-! ### The app and the emulator thread -/

/-- A queued command, with the number of the response channel that an inspection carries and the
number of resets requested up to it. -/
structure Message where
  command : Command
  reply : Option Nat
  resets : Nat

/-- What a response channel has to give: a result, with the resets requested before the inspection
and the last reset done when it was answered, or the news that its sender is gone. -/
inductive Response where
  | received (result : Except RuntimeError RuntimeInspection) (resets generation : Nat)
  | disconnected

structure PendingInspection where
  target : WidgetId
  request : RuntimeInspectionRequest
  channel : Nat
  response : Option Response

/-- `Vec::swap_remove`. -/
def swapRemove (pending : List PendingInspection) (index : Nat) : List PendingInspection :=
  match pending.getLast? with
  | none => pending
  | some last => (pending.set index last).dropLast

/-- The loop of `RuntimeController::poll`, which looks at each entry once. -/
def pollFrom : Nat → Nat → List PendingInspection →
    List (WidgetId × Response) × List PendingInspection
  | 0, _, pending => ([], pending)
  | fuel + 1, index, pending =>
    match pending[index]? with
    | none => ([], pending)
    | some entry =>
      match entry.response with
      | none => pollFrom fuel (index + 1) pending
      | some response =>
        let (results, pending) := pollFrom fuel index (swapRemove pending index)
        ((entry.target, response) :: results, pending)

/-- The app over the command channel. `resets` counts the resets it has requested, `generation` is
the last of them that the emulator thread has done, `failed` are those that it will not do, and
`origins` says of each transcript byte after which reset the guest sent it or it was typed. -/
structure ConsoleApp where
  service : Service
  commands : Channel Message
  pending : List PendingInspection
  channels : Nat
  view : View
  console : ConsoleWidget
  actions : List ConsoleAction
  resets : Nat
  generation : Nat
  failed : List Nat
  origins : UartPort → List Nat

/-- The emulator thread takes a Reset command, and the reset succeeds. -/
def ResetDone (service : Service) (host : HostOutcomes) : Prop :=
  (service.lifecycle = .running ∨ service.lifecycle = .paused) ∧
    (service.resetEmulator host).1 = none

instance (service : Service) (host : HostOutcomes) : Decidable (ResetDone service host) :=
  inferInstanceAs (Decidable (_ ∧ _))

namespace ConsoleApp

def start (service : Service) (commandCapacity : Nat) : ConsoleApp where
  service
  commands := .empty (max commandCapacity 1)
  pending := []
  channels := 0
  view := .runtime
  console := {}
  actions := []
  resets := 0
  generation := 0
  failed := []
  origins _ := []

/-- The stream of a port with the origins of its bytes. -/
def traced (app : ConsoleApp) (port : UartPort) : TracedStream :=
  ⟨app.console.stream port, app.origins port⟩

/-- The origins after an event or a key. -/
def originsAfter (app : ConsoleApp) (origin : Nat) : ConsoleEvent → UartPort → List Nat
  | .inspection (.machine (.peripherals bus)) => fun port =>
    ((app.traced port).observe (uartOf bus port).inspect origin).origins
  | .reset => fun _ => []
  | .insertText text => Function.update app.origins app.console.uart
      ((app.traced app.console.uart).echoInput text origin).origins
  | _ => app.origins

/-- The console widget is told of an event. -/
def event (app : ConsoleApp) (event : ConsoleEvent) (origin : Nat) : ConsoleApp :=
  let (console, actions) := app.console.update event
  { app with
    console
    actions := app.actions ++ actions
    origins := app.originsAfter origin event }

/-- `RuntimeHandle::send`. -/
def send (app : ConsoleApp) (command : Command) (reply : Option Nat) : SendOutcome × ConsoleApp :=
  let resets := if command = .reset then app.resets + 1 else app.resets
  let (outcome, commands) := app.commands.trySend ⟨command, reply, resets⟩
  (outcome, { app with commands })

/-- `RuntimeController::request`: what is pending is not requested again. -/
def request (app : ConsoleApp) (target : WidgetId) (request : RuntimeInspectionRequest) :
    ConsoleApp :=
  if app.pending.any fun entry => entry.target = target && entry.request = request then app
  else
    let (outcome, app) := app.send (.inspect request) (some app.channels)
    if outcome = .sent then
      { app with
        pending := app.pending ++ [⟨target, request, app.channels, none⟩]
        channels := app.channels + 1 }
    else app

/-- A reset that is sent clears the transcripts. -/
def reset (app : ConsoleApp) : ConsoleApp :=
  let (outcome, app) := app.send .reset none
  if outcome = .sent then { app with resets := app.resets + 1 }.event .reset 0 else app

def processAction (app : ConsoleApp) : ConsoleAction → ConsoleApp
  | .selectView view =>
    if app.view = view then app else { app with view }.event (.viewChanged view) 0
  | .pause => (app.send .pause none).2
  | .resume instructionLimit => (app.send (.resume instructionLimit) none).2
  | .shutdown => (app.send .shutdown none).2
  | .reset => app.reset
  | .sendUart _ _ => app
  | .requestInspection target request => app.request target request
  | .widgetKey target mode key =>
    if target = .console then
      (ConsoleWidget.typed mode key).elim app fun bytes => app.event (.insertText bytes) app.resets
    else app
  | .insertText target text =>
    if target = .console then app.event (.insertText text) app.resets else app
  | .setUart port => app.event (.uartSelected port) 0

/-- A result of a poll reaches its target; failures become messages. -/
def deliver (app : ConsoleApp) (target : WidgetId) : Response → ConsoleApp
  | .received (.ok inspection) _ generation =>
    if target = .console then app.event (.inspection inspection) generation else app
  | _ => app

def poll (app : ConsoleApp) : ConsoleApp :=
  let (results, pending) := pollFrom app.pending.length 0 app.pending
  results.foldl (fun app result => app.deliver result.1 result.2) { app with pending }

/-- The emulator thread processes a command; an inspection is answered on its channel. -/
def take (app : ConsoleApp) (message : Message) (host : HostOutcomes) : ConsoleApp :=
  let service := app.service.step (.command message.command host)
  match message.command with
  | .reset =>
    if ResetDone app.service host then { app with service, generation := message.resets }
    else { app with service, failed := message.resets :: app.failed }
  | .inspect request =>
    let result := (app.service.emulator.inspect request host.inspector).1
    { app with
      service
      pending := app.pending.map fun entry =>
        if message.reply = some entry.channel then
          { entry with response := some (.received result message.resets app.generation) }
        else entry }
  | _ => { app with service }

/-- One step of the UI thread or of the emulator thread. -/
inductive ConsoleStep where
  | route (action : ConsoleAction)
  | process
  | pulse
  | poll
  | receive (host : HostOutcomes)
  | turn (inbox : UartPort → List U8) (runner : Service.Runner) (publishDue : Bool)
    (host : HostOutcomes)
  | exit

/-- Actions wait in a queue of the app, commands in the channel. When the emulator thread's loop
has ended, the commands still queued go with its receiver, and with them their response channels. -/
def step (app : ConsoleApp) : ConsoleStep → ConsoleApp
  | .route action => { app with actions := app.actions ++ [action] }
  | .process =>
    match app.actions with
    | [] => app
    | action :: actions => { app with actions }.processAction action
  | .pulse => app.event .pulse 0
  | .poll => app.poll
  | .receive host =>
    if app.service.live = false then app
    else
      let (message, commands) := app.commands.receive
      match message with
      | none => app
      | some message => { app with commands }.take message host
  | .turn inbox runner publishDue host =>
    { app with service := app.service.step (.turn inbox runner publishDue host) }
  | .exit =>
    if app.service.live = true then app
    else
      { app with
        commands := app.commands.disconnect
        pending := app.pending.map fun entry =>
          { entry with response := entry.response.or (some .disconnected) }
        failed := app.failed ++
          (app.commands.queue.filter fun message => message.command = .reset).map Message.resets }

/-- Every transcript byte came after every reset that the app has requested and that the emulator
thread did not fail to do. -/
def OnlyAfterResets (app : ConsoleApp) : Prop :=
  ∀ port, (app.traced port).Parallel ∧
    ∀ reset, 0 < reset → reset ≤ app.resets → reset ∉ app.failed →
      ∀ origin ∈ app.origins port, reset ≤ origin

/-- An inspection of the console that was requested before a reset holds no guest bytes, if it is
polled after the reset was requested. -/
def Meets (app : ConsoleApp) (next : ConsoleStep) : Prop :=
  next = .poll → ∀ entry ∈ app.pending, entry.target = .console → ∀ bus resets generation,
    entry.response = some (.received (.ok (.machine (.peripherals bus))) resets generation) →
      (∀ reset, resets < reset → reset ≤ app.resets → reset ∈ app.failed) ∨
        bus.uart0.tx = [] ∧ bus.uart1.tx = []

/-- What the invariant of a run says: resets and inspections are taken in the order they were
requested, so an answer comes after every reset requested before its inspection. -/
structure Sound (app : ConsoleApp) : Prop where
  ordered : BarrierQueue (fun message : Message => message.command = .reset) Message.resets
    app.commands.queue app.resets app.generation app.failed
  answered : ∀ entry ∈ app.pending, ∀ result resets generation,
    entry.response = some (.received result resets generation) →
      ∀ reset, 0 < reset → reset ≤ resets → reset ∈ app.failed ∨ reset ≤ generation
  only : app.OnlyAfterResets

variable {app : ConsoleApp}

theorem sound_start (service : Service) (commandCapacity : Nat) :
    (start service commandCapacity).Sound where
  ordered := .empty
  answered entry member := absurd member List.not_mem_nil
  only port := by
    cases port with
    | uart0 | uart1 => exact ⟨rfl, fun _ _ _ _ _ member => absurd member List.not_mem_nil⟩

/-! ### Events -/

/-- The event brings no bytes. -/
def Silent : ConsoleEvent → Prop
  | .inspection (.machine (.peripherals bus)) => bus.uart0.tx = [] ∧ bus.uart1.tx = []
  | .insertText _ => False
  | _ => True

theorem mem_originsAfter {event : ConsoleEvent} {origin other : Nat} {port : UartPort}
    (member : other ∈ app.originsAfter origin event port) :
    other ∈ app.origins port ∨ ¬Silent event ∧ other = origin := by
  cases event with
  | inspection inspection =>
    cases inspection with
    | machine response =>
      cases response with
      | peripherals bus =>
        rcases TracedStream.mem_observe member with old | ⟨some, same⟩
        · exact .inl old
        · refine .inr ⟨fun silent => some ?_, same⟩
          cases port with
          | uart0 => exact silent.1
          | uart1 => exact silent.2
      | memory | mmu | events => exact .inl member
    | liveMemory | virtualMemory | translation | execution | searchMemory => exact .inl member
  | insertText text =>
    rw [originsAfter, Function.update_apply] at member
    split at member
    · rename_i same
      rcases TracedStream.mem_echoInput member with old | new
      · exact .inl (same ▸ old)
      · exact .inr ⟨id, new⟩
    · exact .inl member
  | reset => exact absurd member List.not_mem_nil
  | viewChanged | pulse | uartSelected => exact .inl member

theorem parallel_event (parallel : ∀ port, (app.traced port).Parallel) (event : ConsoleEvent)
    (origin : Nat) (port : UartPort) : ((app.event event origin).traced port).Parallel := by
  cases event with
  | inspection inspection =>
    cases inspection with
    | machine response =>
      cases response with
      | peripherals bus =>
        have observed := (parallel port).observe (uartOf bus port).inspect origin
        cases port with
        | uart0 | uart1 => exact observed
      | memory | mmu | events => exact parallel port
    | liveMemory | virtualMemory | translation | execution | searchMemory => exact parallel port
  | insertText text =>
    have echoed := (parallel app.console.uart).echoInput text origin
    rw [TracedStream.Parallel, TracedStream.stream_echoInput] at echoed
    have same : (app.event (.insertText text) origin).console =
      app.console.setStream ((app.console.stream app.console.uart).echoInput text)
        app.console.uart := rfl
    have origins : (app.event (.insertText text) origin).origins = Function.update app.origins
      app.console.uart ((app.traced app.console.uart).echoInput text origin).origins := rfl
    rw [TracedStream.Parallel, traced, same, origins, Function.update_apply]
    by_cases selected : port = app.console.uart
    · rw [if_pos selected, selected]
      rw [echoed]
      cases app.console.uart with
      | uart0 | uart1 => rfl
    · rw [if_neg selected]
      have kept := parallel port
      rw [TracedStream.Parallel, traced] at kept
      rw [kept]
      cases selection : app.console.uart with
      | uart0 =>
        cases port with
        | uart0 => exact absurd selection.symm selected
        | uart1 => rfl
      | uart1 =>
        cases port with
        | uart0 => rfl
        | uart1 => exact absurd selection.symm selected
  | reset =>
    cases port with
    | uart0 | uart1 => rfl
  | viewChanged | pulse | uartSelected =>
    cases port with
    | uart0 => exact parallel .uart0
    | uart1 => exact parallel .uart1

/-- An event whose bytes came after the resets keeps the transcripts after the resets. -/
theorem sound_event (sound : app.Sound) (event : ConsoleEvent) (origin : Nat)
    (late : Silent event ∨ ∀ reset, 0 < reset → reset ≤ app.resets → reset ∉ app.failed →
      reset ≤ origin) : (app.event event origin).Sound where
  ordered := sound.ordered
  answered := sound.answered
  only port := by
    refine ⟨parallel_event (fun port => (sound.only port).1) event origin port, ?_⟩
    intro reset positive within done other member
    rcases mem_originsAfter member with old | ⟨brings, rfl⟩
    · exact (sound.only port).2 reset positive within done other old
    · exact late.resolve_left brings reset positive within done

theorem sound_typed (sound : app.Sound) (text : List U8) :
    (app.event (.insertText text) app.resets).Sound := by
  apply sound_event sound
  right
  intro reset _ within _
  exact within

/-! ### Actions -/

theorem sound_send (sound : app.Sound) {command : Command} (other : command ≠ .reset)
    (reply : Option Nat) : (app.send command reply).2.Sound := by
  refine ⟨?_, sound.answered, sound.only⟩
  by_cases sent : (app.commands.trySend ⟨command, reply, app.resets⟩).1 = .sent
  · obtain ⟨connected, room⟩ := Channel.trySend_sent_iff.mp sent
    have queued : (app.commands.trySend ⟨command, reply, app.resets⟩).2.queue =
        app.commands.queue ++ [⟨command, reply, app.resets⟩] :=
      (Channel.trySend_sent connected room).2.1
    have ordered := sound.ordered.sendRequest ⟨command, reply, app.resets⟩ other rfl
    rw [← queued] at ordered
    simpa only [send, if_neg other] using ordered
  · rw [Channel.trySend_sent_iff, not_and_or, Bool.not_eq_true] at sent
    simpa only [send, if_neg other, (Channel.trySend_failed sent).2] using sound.ordered

theorem sound_request (sound : app.Sound) (target : WidgetId)
    (request : RuntimeInspectionRequest) : (app.request target request).Sound := by
  rw [ConsoleApp.request]
  split
  · exact sound
  · have sent := sound_send sound (Command.noConfusion : Command.inspect request ≠ .reset)
      (some app.channels)
    dsimp only
    split
    · refine ⟨sent.ordered, ?_, sent.only⟩
      intro entry member result resets generation received
      rcases List.mem_append.mp member with old | new
      · exact sent.answered entry old result resets generation received
      · rw [List.mem_singleton.mp new] at received
        cases received
    · exact sent

theorem sound_reset (sound : app.Sound) : app.reset.Sound := by
  rw [reset]
  dsimp only
  by_cases sent : (app.send .reset none).1 = .sent
  · rw [if_pos sent]
    obtain ⟨connected, room⟩ := Channel.trySend_sent_iff.mp sent
    have queued : (app.commands.trySend ⟨.reset, none, app.resets + 1⟩).2.queue =
        app.commands.queue ++ [⟨.reset, none, app.resets + 1⟩] :=
      (Channel.trySend_sent connected room).2.1
    have ordered := sound.ordered.sendBarrier ⟨.reset, none, app.resets + 1⟩ rfl rfl
    rw [← queued] at ordered
    refine ⟨ordered, sound.answered, fun port => ⟨?_, ?_⟩⟩
    · cases port with
      | uart0 | uart1 => rfl
    · intro reset _ _ _ origin member
      exact absurd member List.not_mem_nil
  · rw [if_neg sent]
    have failed := sent
    rw [send, Channel.trySend_sent_iff, not_and_or, Bool.not_eq_true] at failed
    have same : (app.send .reset none).2 = app := by
      have unchanged : (app.commands.trySend ⟨.reset, none, app.resets + 1⟩).2 = app.commands :=
        (Channel.trySend_failed failed).2
      rw [send, if_pos rfl]
      dsimp only
      rw [unchanged]
    rw [same]
    exact sound

theorem sound_processAction (sound : app.Sound) (action : ConsoleAction) :
    (app.processAction action).Sound := by
  cases action with
  | selectView view =>
    rw [processAction]
    split
    · exact sound
    · have moved : ({ app with view } : ConsoleApp).Sound :=
        ⟨sound.ordered, sound.answered, sound.only⟩
      exact sound_event moved (.viewChanged view) 0 (.inl trivial)
  | pause => exact sound_send sound Command.noConfusion none
  | resume => exact sound_send sound Command.noConfusion none
  | shutdown => exact sound_send sound Command.noConfusion none
  | reset => exact sound_reset sound
  | sendUart => exact sound
  | requestInspection target request => exact sound_request sound target request
  | widgetKey target mode key =>
    rw [processAction]
    split
    · cases ConsoleWidget.typed mode key with
      | none => exact sound
      | some bytes => exact sound_typed sound bytes
    · exact sound
  | insertText target text =>
    rw [processAction]
    split
    · exact sound_typed sound text
    · exact sound
  | setUart port => exact sound_event sound (.uartSelected port) 0 (.inl trivial)

/-! ### Polls -/

theorem mem_swapRemove {pending : List PendingInspection} {index : Nat} {entry : PendingInspection}
    (member : entry ∈ swapRemove pending index) : entry ∈ pending := by
  cases found : pending.getLast? with
  | none =>
    rw [swapRemove, found] at member
    exact member
  | some last =>
    rw [swapRemove, found] at member
    rcases List.mem_or_eq_of_mem_set (List.mem_of_mem_dropLast member) with old | moved
    · exact old
    · exact moved ▸ List.mem_of_getLast? found

/-- A poll finds responses of entries that were pending, and leaves entries that were. -/
theorem mem_pollFrom (fuel index : Nat) (pending : List PendingInspection) :
    (∀ result ∈ (pollFrom fuel index pending).1, ∃ entry ∈ pending,
      entry.target = result.1 ∧ entry.response = some result.2) ∧
    ∀ entry ∈ (pollFrom fuel index pending).2, entry ∈ pending := by
  induction fuel generalizing index pending with
  | zero => exact ⟨fun result member => absurd member List.not_mem_nil, fun entry member => member⟩
  | succ fuel ih =>
    cases found : pending[index]? with
    | none =>
      rw [pollFrom, found]
      exact ⟨fun result member => absurd member List.not_mem_nil, fun entry member => member⟩
    | some entry =>
      cases response : entry.response with
      | none =>
        simp only [pollFrom, found, response]
        exact ih (index + 1) pending
      | some response' =>
        simp only [pollFrom, found, response]
        obtain ⟨results, left⟩ := ih index (swapRemove pending index)
        constructor
        · intro result member
          rcases List.mem_cons.mp member with rfl | later
          · exact ⟨entry, List.mem_of_getElem? found, rfl, response⟩
          · obtain ⟨other, inside, same⟩ := results result later
            exact ⟨other, mem_swapRemove inside, same⟩
        · intro other member
          exact mem_swapRemove (left other member)

/-- A result for the console holds no guest bytes from before a reset. -/
def Timely (app : ConsoleApp) (result : WidgetId × Response) : Prop :=
  result.1 = .console → ∀ inspection resets generation,
    result.2 = .received (.ok inspection) resets generation →
      Silent (.inspection inspection) ∨
        ∀ reset, 0 < reset → reset ≤ app.resets → reset ∉ app.failed → reset ≤ generation

theorem sound_deliver (sound : app.Sound) {result : WidgetId × Response}
    (timely : app.Timely result) : (app.deliver result.1 result.2).Sound ∧
      (app.deliver result.1 result.2).resets = app.resets ∧
      (app.deliver result.1 result.2).failed = app.failed := by
  obtain ⟨target, response⟩ := result
  cases response with
  | disconnected => exact ⟨sound, rfl, rfl⟩
  | received result resets generation =>
    cases result with
    | error error => exact ⟨sound, rfl, rfl⟩
    | ok inspection =>
      rw [deliver]
      split
      · rename_i console
        exact ⟨sound_event sound _ _ (timely console inspection resets generation rfl), rfl, rfl⟩
      · exact ⟨sound, rfl, rfl⟩

theorem sound_delivered (sound : app.Sound) (results : List (WidgetId × Response))
    (timely : ∀ result ∈ results, app.Timely result) :
    (results.foldl (fun app result => app.deliver result.1 result.2) app).Sound := by
  induction results generalizing app with
  | nil => exact sound
  | cons result results ih =>
    obtain ⟨next, resets, failed⟩ := sound_deliver sound (timely result (.head _))
    apply ih next
    intro other member
    rw [Timely, resets, failed]
    exact timely other (.tail _ member)

theorem sound_poll (sound : app.Sound) (meets : app.Meets .poll) : app.poll.Sound := by
  obtain ⟨results, left⟩ := mem_pollFrom app.pending.length 0 app.pending
  have polled : ({ app with pending := (pollFrom app.pending.length 0 app.pending).2 } :
      ConsoleApp).Sound :=
    ⟨sound.ordered, fun entry member => sound.answered entry (left entry member), sound.only⟩
  apply sound_delivered polled
  intro result member console inspection resets generation received
  obtain ⟨entry, inside, target, response⟩ := results result member
  rw [received] at response
  rw [console] at target
  by_cases silent : Silent (.inspection inspection)
  · exact .inl silent
  · right
    intro reset positive within done
    -- only a snapshot of the peripherals can hold guest bytes
    obtain ⟨bus, rfl⟩ : ∃ bus, inspection = .machine (.peripherals bus) := by
      cases inspection with
      | machine machine =>
        cases machine with
        | peripherals bus => exact ⟨bus, rfl⟩
        | memory | mmu | events => exact absurd trivial silent
      | liveMemory | virtualMemory | translation | execution | searchMemory =>
        exact absurd trivial silent
    have failed := (meets rfl entry inside target bus resets generation response).resolve_right silent
    have before : reset ≤ resets := by
      by_contra later
      exact done (failed reset (Nat.not_le.mp later) within)
    have settled := sound.answered entry inside _ resets generation response reset positive before
    exact settled.resolve_left done

/-! ### The emulator thread -/

/-- The response that the emulator thread gives to the oldest message keeps the answers after the
resets before them. -/
theorem sound_take {message : Message} {queue : List Message} {commands : Channel Message}
    (sound : app.Sound) (oldest : app.commands.queue = message :: queue)
    (rest : commands.queue = queue) (host : HostOutcomes) :
    (({ app with commands } : ConsoleApp).take message host).Sound := by
  have ordered := sound.ordered
  rw [oldest] at ordered
  subst rest
  obtain ⟨command, reply, resets⟩ := message
  cases command with
  | pause | resume | shutdown =>
    exact ⟨ordered.takeRequest Command.noConfusion, sound.answered, sound.only⟩
  | reset =>
    rw [take]
    dsimp only
    split
    · refine ⟨ordered.takeDone, ?_, sound.only⟩
      intro entry member result resets' generation received reset positive before
      exact sound.answered entry member result resets' generation received reset positive before
    · refine ⟨ordered.takeFailed, ?_, fun port => ⟨(sound.only port).1, ?_⟩⟩
      · intro entry member result resets' generation received reset positive before
        have settled :=
          sound.answered entry member result resets' generation received reset positive before
        exact settled.imp_left (.tail _)
      · intro reset positive within done
        exact (sound.only port).2 reset positive within fun failed => done (.tail _ failed)
  | inspect request =>
    have requested : ¬(Command.inspect request = .reset) := Command.noConfusion
    refine ⟨ordered.takeRequest requested, ?_, sound.only⟩
    intro entry member result resets' generation received reset positive before
    obtain ⟨old, inside, rfl⟩ := List.mem_map.mp member
    split at received
    · cases received
      exact ordered.settled requested positive before
    · exact sound.answered old inside result resets' generation received reset positive before

theorem sound_receive (sound : app.Sound) (host : HostOutcomes) :
    (app.step (.receive host)).Sound := by
  rw [step]
  split
  · exact sound
  · cases queued : app.commands.queue with
    | nil =>
      simp only [Channel.receive, queued, List.head?_nil]
      exact sound
    | cons message queue =>
      simp only [Channel.receive, queued, List.head?_cons]
      exact sound_take sound queued rfl host

theorem sound_exit (sound : app.Sound) : (app.step .exit).Sound := by
  rw [step]
  split
  · exact sound
  · refine ⟨sound.ordered.drop fun message member isReset => ?_, ?_, fun port => ⟨?_, ?_⟩⟩
    · apply List.mem_map_of_mem
      exact List.mem_filter.mpr ⟨member, decide_eq_true isReset⟩
    · intro entry member result resets generation received reset positive before
      obtain ⟨old, inside, rfl⟩ := List.mem_map.mp member
      have same : old.response = some (.received result resets generation) := by
        cases response : old.response with
        | none =>
          rw [response] at received
          cases received
        | some response' =>
          rw [response] at received
          exact received
      have settled := sound.answered old inside result resets generation same reset positive before
      exact settled.imp_left (List.mem_append_left _)
    · exact (sound.only port).1
    · intro reset positive within done
      exact (sound.only port).2 reset positive within fun failed =>
        done (List.mem_append_left _ failed)

theorem sound_step (app : ConsoleApp) (next : ConsoleStep) (meets : app.Meets next)
    (sound : app.Sound) : (app.step next).Sound := by
  cases next with
  | route action => exact ⟨sound.ordered, sound.answered, sound.only⟩
  | process =>
    cases waiting : app.actions with
    | nil =>
      rw [step, waiting]
      exact sound
    | cons action actions =>
      have popped : ({ app with actions } : ConsoleApp).Sound :=
        ⟨sound.ordered, sound.answered, sound.only⟩
      rw [step, waiting]
      exact sound_processAction popped action
  | pulse => exact sound_event sound .pulse 0 (.inl trivial)
  | poll => exact sound_poll sound meets
  | receive host => exact sound_receive sound host
  | turn inbox runner publishDue host => exact ⟨sound.ordered, sound.answered, sound.only⟩
  | exit => exact sound_exit sound

/-! ### A reset empties the transmit histories -/

theorem tx_of_blank {machine : Machine} {memory : PhysicalMemory} {eventCapacity : Nat}
    {media : Fin 2 → Option (List U8)} (fresh : drained machine = blank memory eventCapacity media)
    (port : UartPort) : (uartOf machine.bus port).tx = [] := by
  cases port with
  | uart0 => exact congrArg (fun machine : Machine => machine.bus.uart0.tx) fresh
  | uart1 => exact congrArg (fun machine : Machine => machine.bus.uart1.tx) fresh

theorem tx_resetEmulator (service : Service) (host : HostOutcomes) :
    (service.resetEmulator host).1 = none → ∀ port,
      (uartOf (service.resetEmulator host).2.emulator.backend.machine.bus port).tx = [] := by
  unfold Service.resetEmulator
  cases flushed : (service.flush host).1 with
  | some error =>
    simp only [flushed]
    intro done
    cases done
  | none =>
    simp only [flushed]
    split
    · intro done
      cases done
    · rename_i backend built
      obtain ⟨clone, _, built⟩ := bind_ok built
      obtain ⟨machine, configured, built⟩ := bind_ok built
      obtain ⟨memory, _, bare⟩ := (blank_configured configured).2
      have same := newBackend_ok built
      split
      · intro done
        cases done
      · rename_i backend' positioned
        intro _ port
        rw [setProgramCounter_ok positioned, same]
        exact tx_of_blank bare port

/-- Reading the status drains the interrupt queue only. -/
theorem tx_processCommand {service : Service} {host : HostOutcomes}
    (done : ResetDone service host) (port : UartPort) :
    (uartOf (service.processCommand .reset host).emulator.backend.machine.bus port).tx = [] := by
  have empty := tx_resetEmulator service host done.2 port
  obtain ⟨after, result⟩ : ∃ after, service.resetEmulator host = (none, after) :=
    ⟨_, Prod.ext done.2 rfl⟩
  rw [result] at empty
  have published : service.processCommand .reset host =
      { after with pendingBreakpoint := none }.publishClearingStop after.lifecycle := by
    rcases done.1 with running | paused
    · simp only [Service.processCommand, running, result]
    · simp only [Service.processCommand, paused, result]
  rw [published]
  cases port with
  | uart0 | uart1 => exact empty

/-- In a run whose every step meets the condition, every byte of the transcripts was sent or typed
after every reset that the app has processed and that did not fail. What the guest has sent when a
reset is done is gone, so all that a later snapshot holds was sent after it. -/
theorem no_output_from_before_reset (service : Service) (commandCapacity : Nat)
    (steps : List ConsoleStep) (meets : Throughout step Meets (start service commandCapacity) steps) :
    (∀ app ∈ visited step (start service commandCapacity) steps, app.OnlyAfterResets) ∧
      ∀ service host, ResetDone service host → ∀ port,
        (uartOf (service.processCommand .reset host).emulator.backend.machine.bus port).tx = [] := by
  constructor
  · intro app reached
    exact (throughout_invariant sound_step _ _ (sound_start service commandCapacity) meets
      app reached).only
  · intro service host done port
    exact tx_processCommand done port

/-- A batch in which the guest sends one byte to UART0. -/
def greetingRunner : Service.Runner := fun backend _ _ _ _ =>
  (.ok .instructionBudget,
    backend.setBus (backend.machine.bus.updateUart0 (.write .transmitData 65)))

/-- The guest is running and has sent a byte. -/
def greeted : List ConsoleStep :=
  [.route (.resume none), .process, .receive System.quietHost,
    .turn (fun _ => []) greetingRunner false System.quietHost]

/-- A snapshot is polled before the reset is requested. -/
def polledBefore : List ConsoleStep :=
  greeted ++ [.pulse, .process, .receive System.quietHost, .poll, .route .reset, .process,
    .receive System.quietHost]

theorem no_output_from_before_reset_polled : ∃ service,
    Service.start System.plainConfig System.quietHost = .ok service ∧
      Throughout step Meets (start service 4) polledBefore ∧
        ∀ app ∈ visited step (start service 4) polledBefore, app.OnlyAfterResets := by
  obtain ⟨service, started⟩ : ∃ service,
      Service.start System.plainConfig System.quietHost = .ok service := ⟨_, rfl⟩
  have other (app : ConsoleApp) {next : ConsoleStep} (differs : next ≠ .poll) : app.Meets next :=
    fun same => absurd same differs
  have meets : Throughout step Meets (start service 4) polledBefore := by
    cases started
    have action {app : ConsoleApp} {action : ConsoleAction} : app.Meets (.route action) :=
      other app ConsoleStep.noConfusion
    have process {app : ConsoleApp} : app.Meets .process := other app ConsoleStep.noConfusion
    have receive {app : ConsoleApp} {host : HostOutcomes} : app.Meets (.receive host) :=
      other app ConsoleStep.noConfusion
    refine ⟨action, process, receive, other _ ConsoleStep.noConfusion,
      other _ ConsoleStep.noConfusion, process, receive, ?_, action, process, receive, trivial⟩
    intro _ entry member console bus resets generation response
    left
    intro reset later within
    exact absurd within (Nat.not_le.mpr (Nat.zero_lt_of_lt later))
  exact ⟨service, started, meets, (no_output_from_before_reset service 4 polledBefore meets).1⟩

/-- A snapshot is requested and answered before the reset is requested, and polled after. -/
def polledAfter : List ConsoleStep :=
  greeted ++ [.pulse, .process, .receive System.quietHost, .route .reset, .process,
    .receive System.quietHost, .poll]

/-- The reset is done and the guest has sent nothing since, and the transcript shows its byte. -/
theorem stale_output_after_reset : ∃ service,
    Service.start System.plainConfig System.quietHost = .ok service ∧
    ∃ app, run step (start service 4) polledAfter = app ∧ app.resets = 1 ∧ app.generation = 1 ∧
      app.failed = [] ∧ app.service.emulator.backend.machine.bus.uart0.tx = [] ∧
      app.console.uart0.transcript = [65] ∧ ¬app.OnlyAfterResets := by
  obtain ⟨service, started⟩ : ∃ service,
      Service.start System.plainConfig System.quietHost = .ok service := ⟨_, rfl⟩
  refine ⟨service, started, run step (start service 4) polledAfter, rfl, ?_⟩
  have observed : let app := run step (start service 4) polledAfter
      app.resets = 1 ∧ app.generation = 1 ∧ app.failed = [] ∧
        app.service.emulator.backend.machine.bus.uart0.tx = [] ∧
        app.console.uart0.transcript = [65] ∧ app.origins .uart0 = [0] := by
    cases started
    decide +kernel
  obtain ⟨resets, generation, failed, empty, transcript, origins⟩ := observed
  refine ⟨resets, generation, failed, empty, transcript, fun only => ?_⟩
  have late := (only .uart0).2 1 Nat.one_pos resets.ge (failed ▸ List.not_mem_nil) 0
    (origins ▸ .head _)
  exact absurd late (by decide)

end ConsoleApp

end Minemu.Tui
