import Minemu.Library.Origins
import Minemu.Tui.ConsoleReset

/-! Inspections between the app and the emulator thread: each request that is sent is answered once,
for what it asked, and no answer is lost or handed out twice. -/

namespace Minemu.Tui

open Library Platform Minemu.Core Minemu.Unicorn Minemu.Runtime

/-! ### A poll -/

/-- The entries whose responses the loop of a poll takes, in its order. -/
def takenFrom : Nat → Nat → List PendingInspection → List PendingInspection
  | 0, _, _ => []
  | fuel + 1, index, pending =>
    match pending[index]? with
    | none => []
    | some entry =>
      match entry.response with
      | none => takenFrom fuel (index + 1) pending
      | some _ => entry :: takenFrom fuel index (swapRemove pending index)

/-- The results of a poll are the responses of what it takes. -/
theorem pollFrom_taken (fuel index : Nat) (pending : List PendingInspection) :
    (pollFrom fuel index pending).1.map (fun result => (result.1, some result.2)) =
      (takenFrom fuel index pending).map fun entry => (entry.target, entry.response) := by
  induction fuel generalizing index pending with
  | zero => rfl
  | succ fuel ih =>
    cases found : pending[index]? with
    | none => simp only [pollFrom, takenFrom, found, List.map_nil]
    | some entry =>
      cases response : entry.response with
      | none => simp only [pollFrom, takenFrom, found, response, ih]
      | some response' =>
        simp only [pollFrom, takenFrom, found, response, List.map_cons, ih]

section SwapRemove

variable {pending : List PendingInspection} {index : Nat} {entry : PendingInspection}

/-- The entry at the index is taken out, and the others stay. -/
theorem swapRemove_perm (found : pending[index]? = some entry) :
    (entry :: swapRemove pending index).Perm pending := by
  obtain ⟨bound, rfl⟩ := List.getElem?_eq_some_iff.mp found
  obtain ⟨others, last, rfl⟩ := List.eq_nil_or_concat' pending |>.resolve_left
    (List.ne_nil_of_length_pos (Nat.zero_lt_of_lt bound))
  have back : (others ++ [last]).Perm (last :: others) := List.perm_append_singleton last others
  refine List.Perm.trans ?_ back.symm
  rw [swapRemove, List.getLast?_concat]
  dsimp only
  rw [List.length_append, List.length_singleton] at bound
  by_cases inside : index < others.length
  · rw [List.set_append_left _ _ inside, List.dropLast_concat, List.getElem_append_left inside]
    have moved := (List.set_perm_cons_eraseIdx inside last).cons others[index]
    have whole := (List.getElem_cons_eraseIdx_perm inside).cons last
    exact (moved.trans (.swap _ _ _)).trans whole
  · obtain rfl : index = others.length := by omega
    rw [List.set_append_right _ _ le_rfl, Nat.sub_self, List.set_cons_zero, List.dropLast_concat,
      List.getElem_concat_length rfl]

/-- What comes before the index keeps its place. -/
theorem take_swapRemove (found : pending[index]? = some entry) :
    (swapRemove pending index).take index = pending.take index := by
  obtain ⟨bound, -⟩ := List.getElem?_eq_some_iff.mp found
  obtain ⟨others, last, rfl⟩ := List.eq_nil_or_concat' pending |>.resolve_left
    (List.ne_nil_of_length_pos (Nat.zero_lt_of_lt bound))
  rw [List.length_append, List.length_singleton] at bound
  rw [swapRemove, List.getLast?_concat]
  dsimp only
  rw [List.dropLast_eq_take, List.take_take, List.length_set, List.length_append,
    List.length_singleton, Nat.add_sub_cancel, Nat.min_eq_left (by omega),
    List.take_set_of_le le_rfl]

end SwapRemove

/-- A poll that has passed only open entries splits what is pending into the entries that it takes,
which are answered, and those that it leaves, which are not. -/
theorem pollFrom_split {fuel index : Nat} {pending : List PendingInspection}
    (enough : pending.length ≤ index + fuel)
    (passed : ∀ entry ∈ pending.take index, entry.response = none) :
    (takenFrom fuel index pending ++ (pollFrom fuel index pending).2).Perm pending ∧
      (∀ entry ∈ takenFrom fuel index pending, entry.response ≠ none) ∧
      ∀ entry ∈ (pollFrom fuel index pending).2, entry.response = none := by
  induction fuel generalizing index pending with
  | zero =>
    refine ⟨.refl _, fun entry member => absurd member List.not_mem_nil, ?_⟩
    rwa [List.take_of_length_le (show pending.length ≤ index from enough)] at passed
  | succ fuel ih =>
    cases found : pending[index]? with
    | none =>
      simp only [takenFrom, pollFrom, found]
      refine ⟨.refl _, fun entry member => absurd member List.not_mem_nil, ?_⟩
      rwa [List.take_of_length_le (List.getElem?_eq_none_iff.mp found)] at passed
    | some entry =>
      cases response : entry.response with
      | none =>
        simp only [takenFrom, pollFrom, found, response]
        refine ih (by omega) ?_
        rw [List.take_add_one, found]
        intro other member
        rcases List.mem_append.mp member with old | new
        · exact passed other old
        · rw [List.mem_singleton.mp new, response]
      | some response' =>
        simp only [takenFrom, pollFrom, found, response]
        have perm := swapRemove_perm found
        have shorter := perm.length_eq
        rw [List.length_cons] at shorter
        have enough' : (swapRemove pending index).length ≤ index + fuel := by omega
        obtain ⟨split, taken, left⟩ := ih enough' (take_swapRemove found ▸ passed)
        refine ⟨(split.cons entry).trans perm, ?_, left⟩
        rw [List.forall_mem_cons]
        exact ⟨ne_of_eq_of_ne response (Option.some_ne_none response'), taken⟩

/-- A poll of everything that is pending. -/
theorem poll_split (pending : List PendingInspection) :
    (takenFrom pending.length 0 pending ++ (pollFrom pending.length 0 pending).2).Perm pending ∧
      (∀ entry ∈ takenFrom pending.length 0 pending, entry.response ≠ none) ∧
      ∀ entry ∈ (pollFrom pending.length 0 pending).2, entry.response = none :=
  pollFrom_split (Nat.le_add_left _ 0) fun _ member => absurd member List.not_mem_nil

/-! ### Requests and answers -/

/-- What a queued message asks, by the number of its response channel. -/
def Message.question (message : Message) : Option (Nat × Command) :=
  message.reply.map (·, message.command)

namespace PendingInspection

def question (entry : PendingInspection) : Nat × Command := (entry.channel, .inspect entry.request)

def isOpen (entry : PendingInspection) : Bool := entry.response.isNone

/-- The entry as it was before its answer. -/
def unanswered (entry : PendingInspection) : PendingInspection := { entry with response := none }

/-- The entry after a response on a channel. -/
def heard (reply : Option Nat) (response : Response) (entry : PendingInspection) :
    PendingInspection :=
  if reply = some entry.channel then { entry with response := some response } else entry

end PendingInspection

/-- The app with the entries that its polls have handed out. -/
structure InspectionLog where
  app : ConsoleApp
  handed : List PendingInspection

section Heard

variable (reply : Option Nat) (response : Response) (entry : PendingInspection)

@[simp] theorem target_heard : (entry.heard reply response).target = entry.target := by
  unfold PendingInspection.heard
  split <;> rfl

@[simp] theorem request_heard : (entry.heard reply response).request = entry.request := by
  unfold PendingInspection.heard
  split <;> rfl

@[simp] theorem channel_heard : (entry.heard reply response).channel = entry.channel := by
  unfold PendingInspection.heard
  split <;> rfl

end Heard

namespace InspectionLog

open ConsoleApp (ConsoleStep)

/-- What a step hands out. -/
def hands (app : ConsoleApp) : ConsoleStep → List PendingInspection
  | .poll => takenFrom app.pending.length 0 app.pending
  | _ => []

def step (log : InspectionLog) (next : ConsoleStep) : InspectionLog :=
  ⟨log.app.step next, log.handed ++ hands log.app next⟩

/-- The log of a run from the start. -/
def ofRun (service : Service) (commandCapacity : Nat) (steps : List ConsoleStep) : InspectionLog :=
  run step ⟨.start service commandCapacity, []⟩ steps

/-- Everything that was requested. -/
def entries (log : InspectionLog) : List PendingInspection := log.handed ++ log.app.pending

theorem app_run (log : InspectionLog) (steps : List ConsoleStep) :
    (run step log steps).app = run ConsoleApp.step log.app steps := by
  induction steps generalizing log with
  | nil => rfl
  | cons next steps ih => exact ih (log.step next)

/-- Each channel has one entry, handed out or pending, what the queue asks is what is pending and
not answered, and nothing is pending twice for one target. -/
structure Tracked (log : InspectionLog) : Prop where
  once : (log.entries.map PendingInspection.channel).Perm (List.range log.app.channels)
  queued : (log.app.commands.queue.filterMap Message.question).Perm
    ((log.app.pending.filter PendingInspection.isOpen).map PendingInspection.question)
  distinct : log.app.pending.Pairwise fun first second =>
    (first.target, first.request) ≠ (second.target, second.request)

theorem tracked_start (service : Service) (commandCapacity : Nat) :
    Tracked ⟨.start service commandCapacity, []⟩ := ⟨.refl _, .refl _, .nil⟩

variable {log : InspectionLog} {app : ConsoleApp} {handed : List PendingInspection}

/-- What neither requests nor answers nor polls keeps the log. -/
theorem Tracked.congr (tracked : Tracked ⟨app, handed⟩) {after : ConsoleApp}
    (pending : after.pending = app.pending) (channels : after.channels = app.channels)
    (queue : after.commands.queue.filterMap Message.question =
      app.commands.queue.filterMap Message.question) : Tracked ⟨after, handed⟩ := by
  refine ⟨?_, ?_, ?_⟩
  · rw [entries, pending, channels]
    exact tracked.once
  · rw [queue, pending]
    exact tracked.queued
  · rw [pending]
    exact tracked.distinct

/-! ### The UI thread -/

theorem queue_sent {command : Command} {reply : Option Nat}
    (sent : (app.send command reply).1 = .sent) :
    ∃ resets, (app.send command reply).2.commands.queue =
      app.commands.queue ++ [⟨command, reply, resets⟩] := by
  obtain ⟨connected, room⟩ := Channel.trySend_sent_iff.mp sent
  exact ⟨_, (Channel.trySend_sent connected room).2.1⟩

theorem send_failed {command : Command} {reply : Option Nat}
    (failed : (app.send command reply).1 ≠ .sent) : (app.send command reply).2 = app := by
  rw [ConsoleApp.send, Ne, Channel.trySend_sent_iff, not_and_or, Bool.not_eq_true] at failed
  rw [ConsoleApp.send]
  dsimp only
  rw [(Channel.trySend_failed failed).2]

/-- A command without a response channel keeps the log. -/
theorem Tracked.send (tracked : Tracked ⟨app, handed⟩) (command : Command) :
    Tracked ⟨(app.send command none).2, handed⟩ := by
  by_cases sent : (app.send command none).1 = .sent
  · obtain ⟨resets, queue⟩ := queue_sent sent
    refine tracked.congr rfl rfl ?_
    rw [queue, List.filterMap_append]
    exact List.append_nil _
  · rwa [send_failed sent]

/-- A request that is sent takes a new channel. -/
theorem Tracked.request (tracked : Tracked ⟨app, handed⟩) (target : WidgetId)
    (request : RuntimeInspectionRequest) : Tracked ⟨app.request target request, handed⟩ := by
  rw [ConsoleApp.request]
  split
  · exact tracked
  · rename_i fresh
    dsimp only
    by_cases sent : (app.send (.inspect request) (some app.channels)).1 = .sent
    · rw [if_pos sent]
      obtain ⟨resets, queue⟩ := queue_sent sent
      refine ⟨?_, ?_, ?_⟩
      · have numbered := tracked.once.append_right [app.channels]
        rw [← List.range_succ] at numbered
        rw [entries, ← List.append_assoc, List.map_append]
        exact numbered
      · rw [queue, List.filterMap_append, List.filter_append, List.map_append]
        exact tracked.queued.append_right [(app.channels, Command.inspect request)]
      · refine List.pairwise_append.mpr ⟨tracked.distinct, List.pairwise_singleton _ _, ?_⟩
        intro entry member other new same
        rw [List.mem_singleton.mp new, Prod.mk.injEq] at same
        refine fresh (List.any_eq_true.mpr ⟨entry, member, ?_⟩)
        rw [same.1, same.2, decide_eq_true rfl, decide_eq_true rfl]
        rfl
    · rw [if_neg sent]
      rwa [send_failed sent]

theorem Tracked.processAction (tracked : Tracked ⟨app, handed⟩) (action : ConsoleAction) :
    Tracked ⟨app.processAction action, handed⟩ := by
  cases action with
  | selectView view =>
    rw [ConsoleApp.processAction]
    split
    · exact tracked
    · exact tracked.congr rfl rfl rfl
  | pause => exact tracked.send .pause
  | resume instructionLimit => exact tracked.send (.resume instructionLimit)
  | shutdown => exact tracked.send .shutdown
  | reset =>
    rw [ConsoleApp.processAction, ConsoleApp.reset]
    dsimp only
    have sent := tracked.send .reset
    split
    · exact sent.congr rfl rfl rfl
    · exact sent
  | sendUart => exact tracked
  | requestInspection target request => exact tracked.request target request
  | widgetKey target mode key =>
    rw [ConsoleApp.processAction]
    split
    · cases ConsoleWidget.typed mode key with
      | none => exact tracked
      | some bytes => exact tracked.congr rfl rfl rfl
    · exact tracked
  | insertText target text =>
    rw [ConsoleApp.processAction]
    split
    · exact tracked.congr rfl rfl rfl
    · exact tracked
  | setUart port => exact tracked.congr rfl rfl rfl

/-- Handing a result to the widgets leaves the inspections alone. -/
theorem delivered_keeps (app : ConsoleApp) (results : List (WidgetId × Response)) :
    let after := results.foldl (fun app result => app.deliver result.1 result.2) app
    after.pending = app.pending ∧ after.channels = app.channels ∧
      after.commands = app.commands := by
  induction results generalizing app with
  | nil => exact ⟨rfl, rfl, rfl⟩
  | cons result results ih =>
    obtain ⟨pending, channels, commands⟩ := ih (app.deliver result.1 result.2)
    have one : (app.deliver result.1 result.2).pending = app.pending ∧
        (app.deliver result.1 result.2).channels = app.channels ∧
        (app.deliver result.1 result.2).commands = app.commands := by
      rw [ConsoleApp.deliver.eq_def]
      split
      · split
        · exact ⟨rfl, rfl, rfl⟩
        · exact ⟨rfl, rfl, rfl⟩
      · exact ⟨rfl, rfl, rfl⟩
    exact ⟨pending.trans one.1, channels.trans one.2.1, commands.trans one.2.2⟩

/-- After a poll what it has not taken is pending. -/
theorem pending_poll (app : ConsoleApp) :
    app.poll.pending = (pollFrom app.pending.length 0 app.pending).2 := (delivered_keeps _ _).1

theorem Tracked.poll (tracked : Tracked ⟨app, handed⟩) :
    Tracked ⟨app.poll, handed ++ hands app .poll⟩ := by
  obtain ⟨split, taken, left⟩ := poll_split app.pending
  suffices polled : Tracked ⟨{ app with pending := (pollFrom app.pending.length 0 app.pending).2 },
      handed ++ hands app .poll⟩ by
    obtain ⟨pending, channels, commands⟩ := delivered_keeps
      { app with pending := (pollFrom app.pending.length 0 app.pending).2 }
      (pollFrom app.pending.length 0 app.pending).1
    exact polled.congr pending channels (congrArg (·.queue.filterMap Message.question) commands)
  refine ⟨?_, ?_, ?_⟩
  · have whole := (split.append_left handed).map PendingInspection.channel
    rw [← List.append_assoc] at whole
    exact whole.trans tracked.once
  · have none : (takenFrom app.pending.length 0 app.pending).filter PendingInspection.isOpen =
        [] := by
      rw [List.filter_eq_nil_iff]
      intro entry member isOpen
      exact taken entry member (Option.isNone_iff_eq_none.mp isOpen)
    have kept := split.filter PendingInspection.isOpen
    rw [List.filter_append, none, List.nil_append] at kept
    exact tracked.queued.trans (kept.symm.map _)
  · have pairwise := (split.pairwise_iff fun differ => Ne.symm differ).mpr tracked.distinct
    exact (List.pairwise_append.mp pairwise).2.1

/-! ### The emulator thread -/

/-- No two entries share a channel. -/
theorem Tracked.nodup (tracked : Tracked log) :
    (log.app.pending.map PendingInspection.channel).Nodup := by
  have all := tracked.once.nodup_iff.mpr List.nodup_range
  rw [entries, List.map_append] at all
  exact all.of_append_right

/-- A response on a channel leaves the others open. -/
theorem filter_heard (pending : List PendingInspection) (channel : Nat) (response : Response) :
    (pending.map (PendingInspection.heard (some channel) response)).filter
        PendingInspection.isOpen =
      (pending.filter PendingInspection.isOpen).filter
        fun entry => decide (entry.question.1 ≠ channel) := by
  have others : PendingInspection.isOpen ∘ PendingInspection.heard (some channel) response =
      fun entry => decide (entry.question.1 ≠ channel) && entry.isOpen := by
    funext entry
    rw [Function.comp_apply, PendingInspection.heard]
    by_cases same : channel = entry.channel
    · rw [if_pos (congrArg some same), decide_eq_false fun other => other same.symm]
      rfl
    · have other : entry.question.1 ≠ channel := Ne.symm same
      rw [if_neg fun equal => same (Option.some.inj equal), decide_eq_true other]
      rfl
  rw [List.filter_map, others, List.filter_filter]
  refine (List.map_congr_left fun entry member => ?_).trans (List.map_id _)
  obtain ⟨-, kept⟩ := List.mem_filter.mp member
  have other := of_decide_eq_true (Bool.and_eq_true_iff.mp kept).1
  exact if_neg fun equal => other (Option.some.inj equal).symm

/-- What is queued with a response channel is an inspection, and its entry is open. -/
theorem Tracked.waiting (tracked : Tracked log) {message : Message} {channel : Nat}
    (member : message ∈ log.app.commands.queue) (reply : message.reply = some channel) :
    ∃ entry ∈ log.app.pending, entry.channel = channel ∧ entry.response = none ∧
      message.command = .inspect entry.request := by
  have asked : (channel, message.command) ∈
      log.app.commands.queue.filterMap Message.question := by
    refine List.mem_filterMap.mpr ⟨message, member, ?_⟩
    rw [Message.question, reply]
    rfl
  rw [tracked.queued.mem_iff, List.mem_map] at asked
  obtain ⟨entry, among, same⟩ := asked
  obtain ⟨inside, isOpen⟩ := List.mem_filter.mp among
  rw [PendingInspection.question, Prod.mk.injEq] at same
  exact ⟨entry, inside, same.1, Option.isNone_iff_eq_none.mp isOpen, same.2.symm⟩

/-- A response to the oldest question settles it. -/
theorem Tracked.hear (tracked : Tracked ⟨app, handed⟩) {after : ConsoleApp} {channel : Nat}
    {command : Command} {response : Response}
    (queued : ((channel, command) :: after.commands.queue.filterMap Message.question).Perm
      ((app.pending.filter PendingInspection.isOpen).map PendingInspection.question))
    (pending : after.pending = app.pending.map (PendingInspection.heard (some channel) response))
    (channels : after.channels = app.channels) : Tracked ⟨after, handed⟩ := by
  refine ⟨?_, ?_, ?_⟩
  · have same : PendingInspection.channel ∘ PendingInspection.heard (some channel) response =
        PendingInspection.channel := funext fun entry => channel_heard _ _ entry
    have once := tracked.once
    rw [entries, List.map_append] at once
    rw [entries, pending, channels, List.map_append, List.map_map, same]
    exact once
  · have distinct :
        (channel :: (after.commands.queue.filterMap Message.question).map Prod.fst).Nodup := by
      refine (queued.map Prod.fst).nodup_iff.mpr ?_
      rw [List.map_map]
      exact tracked.nodup.sublist ((List.filter_sublist).map _)
    have others := queued.filter fun question => decide (question.1 ≠ channel)
    have settled : ¬decide ((channel, command).1 ≠ channel) = true := by simp
    rw [List.filter_cons, if_neg settled, List.filter_map] at others
    rw [pending, filter_heard]
    rwa [List.filter_eq_self.mpr] at others
    intro question member
    refine decide_eq_true fun same => (List.nodup_cons.mp distinct).1 ?_
    exact same ▸ List.mem_map_of_mem member
  · rw [pending, List.pairwise_map]
    refine tracked.distinct.imp fun differ => ?_
    simpa only [target_heard, request_heard] using differ

theorem Tracked.take (tracked : Tracked ⟨app, handed⟩) {message : Message} {queue : List Message}
    {commands : Channel Message} (oldest : app.commands.queue = message :: queue)
    (rest : commands.queue = queue) (host : HostOutcomes) :
    Tracked ⟨({ app with commands } : ConsoleApp).take message host, handed⟩ := by
  have queued := tracked.queued
  rw [show (⟨app, handed⟩ : InspectionLog).app = app from rfl, oldest] at queued
  cases reply : message.reply with
  | none =>
    rw [List.filterMap_cons_none (by rw [Message.question, reply]; rfl), ← rest] at queued
    have popped : Tracked ⟨{ app with commands }, handed⟩ :=
      ⟨tracked.once, queued, tracked.distinct⟩
    rw [ConsoleApp.take]
    dsimp only
    split
    · split
      · exact popped.congr rfl rfl rfl
      · exact popped.congr rfl rfl rfl
    · refine popped.congr ?_ rfl rfl
      rw [reply]
      exact List.map_id _
    · exact popped.congr rfl rfl rfl
  | some channel =>
    have among : message ∈ app.commands.queue := oldest ▸ .head _
    obtain ⟨entry, -, -, -, asked⟩ := tracked.waiting among reply
    obtain ⟨command, _, resets⟩ := message
    subst asked reply rest
    have question : Message.question ⟨.inspect entry.request, some channel, resets⟩ =
      some (channel, .inspect entry.request) := rfl
    rw [List.filterMap_cons_some question] at queued
    exact tracked.hear queued rfl rfl

/-- The end of the loop leaves no question open. -/
theorem Tracked.exit (tracked : Tracked ⟨app, handed⟩) : Tracked ⟨app.step .exit, handed⟩ := by
  rw [ConsoleApp.step]
  split
  · exact tracked
  · refine ⟨?_, ?_, ?_⟩
    · have once := tracked.once
      rw [entries, List.map_append] at once
      rw [entries, List.map_append, List.map_map]
      exact once
    · refine .of_eq ?_
      have closed : (app.pending.map fun entry =>
          { entry with response := entry.response.or (some .disconnected) }).filter
            PendingInspection.isOpen = [] := by
        rw [List.filter_eq_nil_iff, List.forall_mem_map]
        intro entry _ isOpen
        cases response : entry.response with
        | none | some => simp [PendingInspection.isOpen, response] at isOpen
      exact (congrArg (List.map PendingInspection.question) closed).symm
    · rw [List.pairwise_map]
      exact tracked.distinct

theorem Tracked.receive (tracked : Tracked ⟨app, handed⟩) (host : HostOutcomes) :
    Tracked ⟨app.step (.receive host), handed⟩ := by
  rw [ConsoleApp.step]
  split
  · exact tracked
  · cases queued : app.commands.queue with
    | nil =>
      simp only [Channel.receive, queued, List.head?_nil]
      exact tracked
    | cons message queue =>
      simp only [Channel.receive, queued, List.head?_cons]
      exact tracked.take queued rfl host

theorem Tracked.process (tracked : Tracked ⟨app, handed⟩) :
    Tracked ⟨app.step .process, handed⟩ := by
  rw [ConsoleApp.step]
  split
  · exact tracked
  · rename_i action actions waiting
    have popped : Tracked ⟨{ app with actions }, handed⟩ := tracked.congr rfl rfl rfl
    exact popped.processAction action

/-- Only a poll hands out. -/
theorem Tracked.quiet (tracked : Tracked ⟨app, handed⟩) : Tracked ⟨app, handed ++ []⟩ := by
  rwa [List.append_nil]

theorem Tracked.step (tracked : Tracked log) (next : ConsoleStep) : Tracked (log.step next) := by
  obtain ⟨app, handed⟩ := log
  cases next with
  | poll => exact tracked.poll
  | route | pulse | turn =>
    apply Tracked.quiet
    exact tracked.congr rfl rfl rfl
  | process => exact tracked.process.quiet
  | receive host => exact (tracked.receive host).quiet
  | exit => exact tracked.exit.quiet

theorem Tracked.steps (tracked : Tracked log) (steps : List ConsoleStep) :
    Tracked (run InspectionLog.step log steps) := by
  have preserved (log : InspectionLog) (next : ConsoleStep) (_ : True) (tracked : Tracked log) :
      Tracked (log.step next) := tracked.step next
  exact run_invariant preserved log steps tracked fun _ _ => trivial

/-! ### Where entries come from -/

/-- A step requests an inspection: the app processes an action that asks for it, and its channel is
the next one. -/
structure Asks (app : ConsoleApp) (next : ConsoleStep) (entry : PendingInspection) : Prop where
  step : next = .process
  action : app.actions.head? = some (.requestInspection entry.target entry.request)
  channel : app.channels = entry.channel

/-- A step answers an inspection that is pending: the emulator thread shows what it asked for, or
it is gone. -/
def Answers (app : ConsoleApp) (next : ConsoleStep) (entry : PendingInspection) : Response → Prop
  | .received result _ _ => entry.unanswered ∈ app.pending ∧ app.service.live = true ∧
    ∃ host, next = .receive host ∧
      result = (app.service.emulator.inspect entry.request host.inspector).1
  | .disconnected => entry.unanswered ∈ app.pending ∧ app.service.live = false ∧ next = .exit

/-- A step makes an entry as it is. -/
def Makes (app : ConsoleApp) (next : ConsoleStep) (entry : PendingInspection) : Prop :=
  entry.response.elim (Asks app next entry) (Answers app next entry)

theorem mem_request {target : WidgetId} {request : RuntimeInspectionRequest}
    {entry : PendingInspection} (member : entry ∈ (app.request target request).pending) :
    entry ∈ app.pending ∨ entry = ⟨target, request, app.channels, none⟩ := by
  rw [ConsoleApp.request] at member
  split at member
  · exact .inl member
  · dsimp only at member
    split at member
    · exact (List.mem_append.mp member).imp_right List.mem_singleton.mp
    · exact .inl member

theorem mem_processAction {action : ConsoleAction} {entry : PendingInspection}
    (member : entry ∈ (app.processAction action).pending) : entry ∈ app.pending ∨
      ∃ target request, action = .requestInspection target request ∧
        entry = ⟨target, request, app.channels, none⟩ := by
  cases action with
  | requestInspection target request =>
    exact (mem_request member).imp_right fun same => ⟨target, request, rfl, same⟩
  | selectView | insertText =>
    rw [ConsoleApp.processAction] at member
    split at member
    · exact .inl member
    · exact .inl member
  | reset =>
    rw [ConsoleApp.processAction, ConsoleApp.reset] at member
    dsimp only at member
    split at member
    · exact .inl member
    · exact .inl member
  | widgetKey target mode key =>
    rw [ConsoleApp.processAction] at member
    cases typed : ConsoleWidget.typed mode key with
    | none =>
      rw [typed] at member
      split at member
      · exact .inl member
      · exact .inl member
    | some bytes =>
      rw [typed] at member
      split at member
      · exact .inl member
      · exact .inl member
  | pause | resume | shutdown | sendUart | setUart => exact .inl member

theorem mem_process {entry : PendingInspection} (member : entry ∈ (app.step .process).pending) :
    entry ∈ app.pending ∨ Makes app .process entry := by
  rw [ConsoleApp.step] at member
  split at member
  · exact .inl member
  · rename_i action actions waiting
    rcases mem_processAction member with old | ⟨target, request, rfl, rfl⟩
    · exact .inl old
    · exact .inr ⟨rfl, congrArg List.head? waiting, rfl⟩

theorem mem_receive (tracked : Tracked log) {host : HostOutcomes} {entry : PendingInspection}
    (member : entry ∈ (log.app.step (.receive host)).pending) :
    entry ∈ log.app.pending ∨ Makes log.app (.receive host) entry := by
  rw [ConsoleApp.step] at member
  split at member
  · exact .inl member
  · rename_i live
    rw [Bool.not_eq_false] at live
    cases queued : log.app.commands.queue with
    | nil =>
      simp only [Channel.receive, queued, List.head?_nil] at member
      exact .inl member
    | cons message queue =>
      simp only [Channel.receive, queued, List.head?_cons] at member
      rw [ConsoleApp.take] at member
      dsimp only at member
      split at member
      · split at member
        · exact .inl member
        · exact .inl member
      · rename_i request asked
        obtain ⟨old, inside, rfl⟩ := List.mem_map.mp member
        split
        · rename_i reply
          have among : message ∈ log.app.commands.queue := queued ▸ .head _
          obtain ⟨other, inside', channel, isOpen, command⟩ := tracked.waiting among reply
          obtain rfl := List.inj_on_of_nodup_map tracked.nodup inside' inside channel
          have same : other.request = request := by
            rw [asked] at command
            injection command with same
            exact same.symm
          refine .inr ⟨?_, live, host, rfl, ?_⟩
          · rwa [PendingInspection.unanswered, ← isOpen]
          · rw [same]
        · exact .inl inside
      · exact .inl member

theorem mem_exit {entry : PendingInspection} (member : entry ∈ (app.step .exit).pending) :
    entry ∈ app.pending ∨ Makes app .exit entry := by
  rw [ConsoleApp.step] at member
  split at member
  · exact .inl member
  · rename_i gone
    obtain ⟨old, inside, rfl⟩ := List.mem_map.mp member
    rw [Bool.not_eq_true] at gone
    cases response : old.response with
    | none =>
      refine .inr ⟨?_, gone, rfl⟩
      rwa [PendingInspection.unanswered, ← response]
    | some response' =>
      left
      rwa [Option.some_or, ← response]

/-- What is there after a step was there before it, or the step has made it. -/
theorem mem_step (tracked : Tracked log) (next : ConsoleStep) (entry : PendingInspection)
    (member : entry ∈ (log.step next).entries) :
    entry ∈ log.entries ∨ Makes log.app next entry := by
  have kept (quiet : hands log.app next = [])
      (made : entry ∈ (log.app.step next).pending → entry ∈ log.app.pending ∨
        Makes log.app next entry) : entry ∈ log.entries ∨ Makes log.app next entry := by
    rw [entries, InspectionLog.step, quiet, List.append_nil] at member
    rcases List.mem_append.mp member with old | new
    · exact .inl (List.mem_append_left _ old)
    · exact (made new).imp_left (List.mem_append_right _)
  cases next with
  | poll =>
    left
    rw [entries, InspectionLog.step, ConsoleApp.step, pending_poll, List.append_assoc] at member
    rcases List.mem_append.mp member with old | new
    · exact List.mem_append_left _ old
    · exact List.mem_append_right _ ((poll_split log.app.pending).1.mem_iff.mp new)
  | route | pulse | turn => exact kept rfl .inl
  | process => exact kept rfl mem_process
  | receive host => exact kept rfl (mem_receive tracked)
  | exit => exact kept rfl mem_exit

/-- Every entry of a run was made by one of its steps. -/
theorem entry_made {service : Service} {commandCapacity : Nat} {steps : List ConsoleStep}
    {entry : PendingInspection} (member : entry ∈ (ofRun service commandCapacity steps).entries) :
    ∃ app next, Takes ConsoleApp.step (.start service commandCapacity) steps app next ∧
      Makes app next entry := by
  have origin := @run_origin _ _ _ step Tracked (fun log entry => entry ∈ log.entries)
    (fun log => Makes log.app) (fun _ next tracked => tracked.step next)
    (fun _ next entry tracked => mem_step tracked next entry) _
    (tracked_start service commandCapacity) steps entry member
  rcases origin with first | ⟨log, next, ⟨before, after, split, rfl⟩, makes⟩
  · exact absurd first List.not_mem_nil
  · exact ⟨_, next, ⟨before, after, split, rfl⟩, by rwa [app_run] at makes⟩

theorem Answers.pending {next : ConsoleStep} {entry : PendingInspection} {response : Response}
    (answers : Answers app next entry response) : entry.unanswered ∈ app.pending := by
  cases response with
  | received | disconnected => exact answers.1

/-- An entry with an answer was asked for, too. -/
theorem entry_asked {service : Service} {commandCapacity : Nat} {steps : List ConsoleStep}
    {entry : PendingInspection} (member : entry ∈ (ofRun service commandCapacity steps).entries) :
    ∃ app next, Takes ConsoleApp.step (.start service commandCapacity) steps app next ∧
      Asks app next entry := by
  obtain ⟨app, next, takes, makes⟩ := entry_made member
  cases response : entry.response with
  | none =>
    rw [Makes, response] at makes
    exact ⟨app, next, takes, makes⟩
  | some answer =>
    rw [Makes, response] at makes
    have waiting := Answers.pending makes
    obtain ⟨before, after, rfl, rfl⟩ := takes
    have earlier : entry.unanswered ∈ (ofRun service commandCapacity before).entries := by
      refine List.mem_append_right _ ?_
      rwa [ofRun, app_run]
    obtain ⟨app, next', takes, asks⟩ := entry_made earlier
    exact ⟨app, next', takes.extend _, asks.step, asks.action, asks.channel⟩

/-! ### The end of the wait -/

theorem commands_take (app : ConsoleApp) (message : Message) (host : HostOutcomes) :
    (app.take message host).commands = app.commands := by
  rw [ConsoleApp.take]
  dsimp only
  split
  · split
    · rfl
    · rfl
  · rfl
  · rfl

/-- As many commands taken as were queued leave none, unless the emulator thread has ended. -/
theorem receives_drain (hosts : List HostOutcomes)
    (enough : app.service.live = false ∨ app.commands.queue.length ≤ hosts.length) :
    (run ConsoleApp.step app (hosts.map .receive)).service.live = false ∨
      (run ConsoleApp.step app (hosts.map .receive)).commands.queue = [] := by
  induction hosts generalizing app with
  | nil => exact enough.imp_right fun short => List.eq_nil_of_length_eq_zero (Nat.le_zero.mp short)
  | cons host hosts ih =>
    rw [List.map_cons, run_cons]
    apply ih
    by_cases gone : app.service.live = false
    · rw [ConsoleApp.step, if_pos gone]
      exact .inl gone
    · right
      have short := enough.resolve_left gone
      rw [ConsoleApp.step, if_neg gone]
      cases queued : app.commands.queue with
      | nil =>
        simp only [Channel.receive, queued, List.head?_nil]
        exact Nat.zero_le _
      | cons message queue =>
        rw [queued, List.length_cons, List.length_cons] at short
        simp only [Channel.receive, queued, List.head?_cons, commands_take, List.tail_cons]
        omega

/-- After that, and the end of the loop if it has ended, a poll leaves nothing pending. -/
theorem Tracked.drained (tracked : Tracked log) (hosts : List HostOutcomes)
    (enough : log.app.commands.queue.length ≤ hosts.length) :
    (run ConsoleApp.step log.app (hosts.map ConsoleStep.receive ++ [.exit, .poll])).pending =
      [] := by
  have received := tracked.steps (hosts.map ConsoleStep.receive)
  have taken := app_run log (hosts.map ConsoleStep.receive)
  generalize run InspectionLog.step log (hosts.map ConsoleStep.receive) = after at received taken
  have empty : (after.app.step .exit).commands.queue = [] := by
    rw [taken, ConsoleApp.step]
    rcases receives_drain hosts (.inr enough) with gone | none
    · rw [if_neg (by rw [gone]; decide)]
      rfl
    · split
      · exact none
      · rfl
  have closed := (received.step .exit).queued
  rw [InspectionLog.step, empty, List.filterMap_nil, List.nil_perm, List.map_eq_nil_iff,
    List.filter_eq_nil_iff] at closed
  rw [run_append, ← taken, run_cons, run_cons, run_nil, ConsoleApp.step, pending_poll,
    List.eq_nil_iff_forall_not_mem]
  intro entry member
  obtain ⟨split, -, left⟩ := poll_split (after.app.step .exit).pending
  have inside := split.mem_iff.mp (List.mem_append_right _ member)
  exact closed entry inside (Option.isNone_iff_eq_none.mpr (left entry member))

end InspectionLog

/-- In every interleaving of the app with the emulator thread each inspection that is sent has one
entry, pending or handed out by one poll with its answer: it was asked for by a step of the app, and
its answer, if there is one, is what the emulator showed for that request while it was pending, or
the news that the emulator thread is gone. Nothing is pending twice for one target, and once the
queued commands are taken, or the thread has ended, a poll leaves nothing pending. -/
theorem inspections_once (service : Service) (commandCapacity : Nat)
    (steps : List ConsoleApp.ConsoleStep) :
    let log := InspectionLog.ofRun service commandCapacity steps
    log.app = run ConsoleApp.step (.start service commandCapacity) steps ∧
      (log.entries.map PendingInspection.channel).Perm (List.range log.app.channels) ∧
      ((pollFrom log.app.pending.length 0 log.app.pending).1.map fun result =>
          (result.1, some result.2)) =
        ((InspectionLog.hands log.app .poll).map fun entry => (entry.target, entry.response)) ∧
      (log.app.pending.Pairwise fun first second =>
        (first.target, first.request) ≠ (second.target, second.request)) ∧
      (∀ entry ∈ log.entries,
        (∃ app next, Takes ConsoleApp.step (.start service commandCapacity) steps app next ∧
          InspectionLog.Asks app next entry) ∧
        ∀ response, entry.response = some response →
          ∃ app next, Takes ConsoleApp.step (.start service commandCapacity) steps app next ∧
            InspectionLog.Answers app next entry response) ∧
      ∀ hosts : List HostOutcomes, log.app.commands.queue.length ≤ hosts.length →
        (run ConsoleApp.step log.app (hosts.map .receive ++ [.exit, .poll])).pending = [] := by
  intro log
  have tracked := (InspectionLog.tracked_start service commandCapacity).steps steps
  refine ⟨InspectionLog.app_run _ steps, tracked.once, pollFrom_taken _ _ _, tracked.distinct,
    fun entry member => ?_, tracked.drained⟩
  refine ⟨InspectionLog.entry_asked member, fun response answered => ?_⟩
  obtain ⟨app, next, takes, makes⟩ := InspectionLog.entry_made member
  rw [InspectionLog.Makes, answered] at makes
  exact ⟨app, next, takes, makes⟩

end Minemu.Tui
