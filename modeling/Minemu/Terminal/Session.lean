import Minemu.Terminal.ActionQueue

/-! Whole sessions of the app: where the focus is, and what the emulator's UARTs are sent. -/

namespace Minemu.Terminal

open Library Platform Minemu.Core Minemu.Unicorn Minemu.Runtime Minemu.Tui

/-- The actions that can move the focus. -/
def Action.moves : Action → Bool
  | .focus _ | .selectView _ | .toggleView => true
  | _ => false

/-- The actions that neither hand input to a widget nor enter a mode. -/
def Action.plain : Action → Bool
  | .widgetKey _ _ | .insertText _ _ => false
  | .setMode mode => mode = .normal
  | _ => true

theorem Action.plain_of_quiet {action : Action} (quiet : action.quiet = true) :
    action.plain = true ∧ action.moves = false := by
  cases action <;> first | exact ⟨rfl, rfl⟩ | cases quiet

namespace App

/-- The focus is on a pane of the view, and in insert mode on the console. -/
structure Placed (app : App) : Prop where
  pane : visibleFocus app.view app.focused = true
  typing : app.input.mode = .insert → app.focused = .console

/-- What can be in the queue. Input for a widget and the entry of a mode are in it alone. -/
inductive Orderly (app : App) : List Action → Prop
  | entry {mode : InputMode} (console : mode = .insert → app.focused = .console)
      (normal : app.input.mode = .normal) : Orderly app [.setMode mode]
  | key {key : KeyEvent} (mode : app.input.mode = .normal ∨ app.input.mode = .insert) :
      Orderly app [.widgetKey app.focused key]
  | text {text : List Char} (insert : app.input.mode = .insert) :
      Orderly app [.insertText app.focused text]
  | plain {actions : List Action} (plain : ∀ action ∈ actions, action.plain = true)
      (still : app.input.mode = .insert → ∀ action ∈ actions, action.moves = false) :
      Orderly app actions

/-- The bytes that a key types. -/
def typedKey : InputMode → KeyCode → List U8
  | .insert, .enter => [10]
  | .insert, .backspace => [8]
  | .insert, .char character => utf8 [character]
  | _, _ => []

/-- The bytes for a port that an action still has to send. -/
def owed (app : App) (port : UartPort) : Action → List U8
  | .sendUart other bytes => if other = port then bytes else []
  | .widgetKey target key =>
    if target = .console ∧ app.widgets.console.uart = port then typedKey app.input.mode key.code
    else []
  | .insertText target text =>
    if target = .console ∧ app.widgets.console.uart = port then utf8 text else []
  | _ => []

/-- The bytes for a port that were sent or are still owed. -/
def account (app : App) (actions : List Action) (port : UartPort) : List U8 :=
  app.runtime.sent port ++ actions.flatMap (app.owed port)

variable {app after : App} {actions more : List Action} {action : Action} {port : UartPort}

/-! ### What stays -/

/-- Neither the focus nor the mode has changed, and nothing was sent. -/
structure Stays (app after : App) : Prop where
  view : after.view = app.view
  focused : after.focused = app.focused
  mode : after.input.mode = app.input.mode
  sent : after.runtime.sent = app.runtime.sent

theorem Stays.trans {middle : App} (first : Stays app middle) (second : Stays middle after) :
    Stays app after :=
  ⟨second.view.trans first.view, second.focused.trans first.focused,
    second.mode.trans first.mode, second.sent.trans first.sent⟩

theorem stays_refl (app : App) : Stays app app := ⟨rfl, rfl, rfl, rfl⟩

theorem stays_showMessage (app : App) (message : DialogMessage) :
    Stays app (app.showMessage message) := ⟨rfl, rfl, rfl, rfl⟩

theorem stays_send (app : App) (command : Command) : Stays app (app.send command).2 :=
  ⟨rfl, rfl, rfl, rfl⟩

theorem stays_widgets (app : App) (widgets : Widgets) : Stays app { app with widgets } :=
  ⟨rfl, rfl, rfl, rfl⟩

theorem stays_target {id : WidgetId} {event : AppEvent}
    (done : app.target id event = .ok (after, more)) : Stays app after := by
  obtain ⟨widgets, _, rfl⟩ := target_ok done
  exact stays_widgets app widgets

theorem stays_broadcast {event : AppEvent} (done : app.broadcast event = .ok (after, more)) :
    Stays app after := by
  obtain ⟨widgets, _, rfl⟩ := broadcast_ok done
  exact stays_widgets app widgets

theorem stays_startEmulation (app : App) (limit : Option ℕ+) :
    Stays app (app.startEmulation limit) := by
  unfold startEmulation
  split
  · exact stays_showMessage app _
  · dsimp only
    split
    · exact (stays_send app _).trans (stays_showMessage _ _)
    · exact (stays_send app _).trans (stays_showMessage _ _)

theorem stays_stop (app : App) : Stays app app.stop.1 := by
  unfold stop
  split
  · split
    · exact stays_refl app
    · exact stays_showMessage app _
  · dsimp only
    split
    · exact (stays_send app _).trans (stays_showMessage _ _)
    · exact (stays_send app _).trans (stays_showMessage _ _)

theorem stays_suppress (app : App) : Stays app app.suppress := ⟨rfl, rfl, rfl, rfl⟩

theorem stays_toggleRun (app : App) : Stays app app.toggleRun.1 := by
  unfold toggleRun
  split
  · exact stays_stop app
  · split
    · exact stays_stop app
    · exact stays_startEmulation app _
    · exact stays_showMessage app _

theorem stays_reset (done : app.reset = .ok (after, more)) : Stays app after := by
  unfold reset at done
  dsimp only at done
  split at done
  · obtain ⟨⟨_, _⟩, updated, same⟩ := bind_ok done
    cases same
    exact ((stays_send app _).trans (stays_broadcast updated)).trans (stays_showMessage _ _)
  · cases done
    exact (stays_send app _).trans (stays_showMessage _ _)

theorem stays_requestInspection (app : App) (target : WidgetId)
    (request : RuntimeInspectionRequest) : Stays app (app.requestInspection target request) := by
  have asked : (app.runtime.request target request).2.sent = app.runtime.sent := by
    unfold RuntimeController.request
    split
    · rfl
    · dsimp only
      split <;> rfl
  have stays : Stays app { app with runtime := (app.runtime.request target request).2 } :=
    ⟨rfl, rfl, rfl, asked⟩
  unfold requestInspection
  dsimp only
  split
  · exact stays
  · exact stays.trans (stays_showMessage _ _)

theorem stays_turn (app : App) (view : View) :
    Stays { app with view, focused := firstFocus view } (app.turn view).1 := by
  unfold turn
  dsimp only
  split
  · exact (stays_suppress _).trans (stays_stop _)
  · exact stays_refl _

theorem stays_pauseForInput (app : App) (mode : InputMode) : Stays app (app.pauseForInput mode) := by
  unfold pauseForInput
  split
  · dsimp only
    split <;> exact ⟨rfl, rfl, rfl, rfl⟩
  · exact stays_refl app

theorem stays_resumeAfter (app : App) : Stays app app.resumeAfter := by
  have resumed : Stays app (if app.resumeAfterInput = true ∧ app.suppressInputResume = false then
      app.startEmulation none else app) := by
    split
    · exact stays_startEmulation app none
    · exact stays_refl app
  exact ⟨resumed.view, resumed.focused, resumed.mode, resumed.sent⟩

/-- Only the mode changes. -/
theorem stays_setMode (app : App) (mode : InputMode) :
    Stays { app with input := app.input.setMode mode } (app.setMode mode) := by
  unfold setMode
  dsimp only
  split
  · rename_i same
    exact ⟨rfl, rfl, same, rfl⟩
  · have paused := stays_pauseForInput app mode
    have entered : Stays { app with input := app.input.setMode mode }
        { app.pauseForInput mode with input := (app.pauseForInput mode).input.setMode mode } :=
      ⟨paused.view, paused.focused, rfl, paused.sent⟩
    split
    · exact entered.trans (stays_resumeAfter _)
    · exact entered

/-! ### One action -/

/-- The focus stays on a pane of the view. -/
theorem pane_selectView {view : View} (placed : app.Placed)
    (done : app.selectView view = .ok (after, more)) :
    visibleFocus after.view after.focused = true ∧ after.input.mode = app.input.mode ∧
      after.runtime.sent = app.runtime.sent := by
  rcases selectView_ok done with ⟨same, _, _⟩ | ⟨suppressed, _, updated, _⟩
  · rw [same]
    exact ⟨placed.pane, rfl, rfl⟩
  · have stays := (stays_turn { app with suppressInputResume := suppressed } view).trans
      (stays_broadcast updated)
    rw [stays.view, stays.focused]
    refine ⟨?_, stays.mode, stays.sent⟩
    cases view <;> rfl

/-- An action that neither hands input to a widget nor enters a mode asks for quiet ones only. -/
theorem quiet_plain (plain : action.plain = true)
    (done : app.processAction action = .ok (after, more)) : ∀ other ∈ more, other.quiet = true := by
  cases action with
  | widgetKey target key | insertText target text => cases plain
  | selectView view | toggleView => exact (modest_selectView done).quiet
  | toggleRun => exact asked_ok done ▸ (modest_toggleRun _).quiet
  | stop => exact asked_ok done ▸ (modest_stop _).quiet
  | reset => exact (modest_reset done).quiet
  | navigate target motion | goto target value | refresh target =>
    obtain ⟨_, updated, _⟩ := target_ok done
    exact (modest_target (by simp) updated).quiet
  | setUart port =>
    obtain ⟨⟨_, _⟩, updated, same⟩ := bind_ok done
    cases same
    obtain ⟨_, updated, _⟩ := broadcast_ok updated
    exact (modest_broadcast (by simp) updated).quiet
  | setPrimary subview | setSecondary subview =>
    obtain ⟨_, updated, _⟩ := broadcast_ok done
    exact (modest_broadcast (by simp) updated).quiet
  | _ => exact asked_ok done ▸ fun _ member => absurd member List.not_mem_nil

/-- Of these only a change of mode, a move of the focus and bytes to send are more than that. -/
theorem stays_plain (plain : action.plain = true) (still : action.moves = false)
    (keeps : ∀ mode, action ≠ .setMode mode) (silent : ∀ port bytes, action ≠ .sendUart port bytes)
    (done : app.processAction action = .ok (after, more)) : Stays app after := by
  cases action with
  | widgetKey target key | insertText target text => cases plain
  | selectView view | toggleView | focus target => cases still
  | setMode mode => exact absurd rfl (keeps mode)
  | sendUart port bytes => exact absurd rfl (silent port bytes)
  | quit => exact state_ok done ▸ ⟨rfl, rfl, rfl, rfl⟩
  | toggleRun => exact state_ok done ▸ (stays_suppress app).trans (stays_toggleRun _)
  | start limit => exact state_ok done ▸ (stays_suppress app).trans (stays_startEmulation _ _)
  | stop => exact state_ok done ▸ (stays_suppress app).trans (stays_stop _)
  | reset => exact (stays_suppress app).trans (stays_reset done)
  | requestInspection target request => exact state_ok done ▸ stays_requestInspection app target request
  | navigate target motion | goto target value | refresh target => exact stays_target done
  | setUart port =>
    obtain ⟨⟨_, _⟩, updated, same⟩ := bind_ok done
    cases same
    exact (stays_broadcast updated).trans (stays_showMessage _ _)
  | setPrimary subview | setSecondary subview => exact stays_broadcast done
  | showMessage message => exact state_ok done ▸ stays_showMessage app message
  | showHelp | resize split percent => exact state_ok done ▸ ⟨rfl, rfl, rfl, rfl⟩

/-! ### The account of a queue -/

theorem owed_quiet (app : App) (quiet : action.quiet = true) : app.owed port action = [] := by
  cases action <;> first | rfl | cases quiet

theorem owed_plain (app after : App) (plain : action.plain = true) :
    after.owed port action = app.owed port action := by
  cases action <;> first | rfl | cases plain

/-- Quiet actions owe nothing, and what plain ones owe does not depend on the state. -/
theorem account_plain (app after : App) (plain : ∀ action ∈ actions, action.plain = true)
    (quiet : ∀ action ∈ more, action.quiet = true) :
    after.account (actions ++ more) port =
      after.runtime.sent port ++ actions.flatMap (app.owed port) := by
  have same : actions.flatMap (after.owed port) = actions.flatMap (app.owed port) :=
    List.flatMap_congr fun action member => owed_plain app after (plain action member)
  have nothing : more.flatMap (after.owed port) = [] :=
    List.flatMap_eq_nil_iff.mpr fun action member => owed_quiet after (quiet action member)
  rw [account, List.flatMap_append, same, nothing, List.append_nil]

theorem account_cons (app : App) (action : Action) (actions : List Action) (port : UartPort) :
    app.account (action :: actions) port =
      app.runtime.sent port ++ app.owed port action ++ actions.flatMap (app.owed port) := by
  rw [account, List.flatMap_cons, List.append_assoc]

/-- What holds while a queue is processed; `total` is all that will have been sent. -/
structure Consistent (total : UartPort → List U8) (app : App) (actions : List Action) : Prop where
  placed : app.Placed
  orderly : app.Orderly actions
  account : ∀ port, app.account actions port = total port

variable {total : UartPort → List U8} {rest : List Action}

/-- The sends of the queue go on as before. -/
theorem account_stays (plain : ∀ other ∈ action :: rest, other.plain = true)
    (quiet : ∀ other ∈ more, other.quiet = true) (silent : app.owed port action = [])
    (sent : after.runtime.sent = app.runtime.sent) :
    after.account (rest ++ more) port = app.account (action :: rest) port := by
  rw [account_plain app after (List.forall_mem_cons.mp plain).2 quiet, account_cons, silent,
    sent, List.append_nil]

theorem orderly_plain (plain : ∀ other ∈ action :: rest, other.plain = true)
    (quiet : ∀ other ∈ more, other.quiet = true)
    (still : after.input.mode = .insert → ∀ other ∈ rest, other.moves = false) :
    after.Orderly (rest ++ more) := by
  refine .plain (fun other member => ?_) (fun insert other member => ?_)
  · rcases List.mem_append.mp member with old | new
    · exact (List.forall_mem_cons.mp plain).2 other old
    · exact (Action.plain_of_quiet (quiet other new)).1
  · rcases List.mem_append.mp member with old | new
    · exact still insert other old
    · exact (Action.plain_of_quiet (quiet other new)).2

theorem consistent_plain (holds : app.Consistent total (action :: rest))
    (plain : ∀ other ∈ action :: rest, other.plain = true)
    (still : app.input.mode = .insert → ∀ other ∈ action :: rest, other.moves = false)
    (done : app.processAction action = .ok (after, more)) :
    after.Consistent total (rest ++ more) := by
  have here : action.plain = true := plain action List.mem_cons_self
  have quiet := quiet_plain here done
  have stays (stays : Stays app after) (silent : ∀ port, app.owed port action = []) :
      after.Consistent total (rest ++ more) := by
    refine ⟨⟨?_, fun insert => ?_⟩, orderly_plain plain quiet fun insert => ?_, fun port => ?_⟩
    · rw [stays.view, stays.focused]
      exact holds.placed.pane
    · rw [stays.focused]
      exact holds.placed.typing (stays.mode ▸ insert)
    · exact (List.forall_mem_cons.mp (still (stays.mode ▸ insert))).2
    · exact (account_stays plain quiet (silent port) stays.sent).trans (holds.account port)
  have moved (other : app.input.mode ≠ .insert)
      (pane : visibleFocus after.view after.focused = true)
      (mode : after.input.mode = app.input.mode) (sent : after.runtime.sent = app.runtime.sent)
      (silent : ∀ port, app.owed port action = []) : after.Consistent total (rest ++ more) := by
    have never (insert : after.input.mode = .insert) : False := other (mode.symm.trans insert)
    refine ⟨⟨pane, fun insert => (never insert).elim⟩,
      orderly_plain plain quiet fun insert => (never insert).elim, fun port => ?_⟩
    exact (account_stays plain quiet (silent port) sent).trans (holds.account port)
  have settled (moves : action.moves = true) : app.input.mode ≠ .insert := by
    intro insert
    have unmoved := still insert action List.mem_cons_self
    exact absurd moves (ne_true_of_eq_false unmoved)
  cases action with
  | focus target =>
    cases done
    refine moved (settled rfl) ?_ ?_ ?_ fun _ => rfl
    · split
      · assumption
      · exact holds.placed.pane
    · split <;> rfl
    · split <;> rfl
  | selectView view | toggleView =>
    obtain ⟨pane, mode, sent⟩ := pane_selectView holds.placed done
    exact moved (settled rfl) pane mode sent fun _ => rfl
  | setMode mode =>
    have normal : mode = .normal := of_decide_eq_true here
    have stays : Stays { app with input := app.input.setMode mode } after :=
      state_ok done ▸ stays_setMode app mode
    have never (insert : after.input.mode = .insert) : False := by
      cases normal.symm.trans (stays.mode.symm.trans insert)
    refine ⟨⟨?_, fun insert => (never insert).elim⟩,
      orderly_plain plain quiet fun insert => (never insert).elim, fun port => ?_⟩
    · rw [stays.view, stays.focused]
      exact holds.placed.pane
    · have sent : after.runtime.sent = app.runtime.sent := stays.sent
      exact (account_stays plain quiet rfl sent).trans (holds.account port)
  | sendUart other bytes =>
    cases done
    refine ⟨⟨holds.placed.pane, holds.placed.typing⟩, orderly_plain plain quiet fun insert =>
      (List.forall_mem_cons.mp (still insert)).2, fun port => ?_⟩
    rw [account_plain app _ (List.forall_mem_cons.mp plain).2 quiet, ← holds.account port,
      account_cons]
    congr 1
    by_cases same : other = port
    · subst same
      exact (record_self _ _ _).trans (congrArg _ (if_pos rfl).symm)
    · refine (record_other _ same _).trans ?_
      rw [owed, if_neg same, List.append_nil]
  | widgetKey target key | insertText target text => cases here
  | _ => exact stays (stays_plain here rfl (by simp) (by simp) done) fun _ => rfl

/-- What the console makes of a key. -/
theorem console_key (console : ConsoleWidget) (key : KeyEvent) (mode : InputMode) :
    ((console.handleKey key mode).2 = [.setMode .insert] ∧ mode = .normal ∧
        typedKey mode key.code = []) ∨
      (console.handleKey key mode).2 = [.sendUart console.uart (typedKey mode key.code)] ∨
      (console.handleKey key mode).2 = [] ∧ typedKey mode key.code = [] := by
  obtain ⟨code, _, _⟩ := key
  cases mode with
  | normal =>
    unfold ConsoleWidget.handleKey
    split
    · exact .inl ⟨rfl, rfl, rfl⟩
    all_goals first | exact .inr (.inr ⟨rfl, rfl⟩) | contradiction
  | insert =>
    cases code with
    | enter | backspace | char character => exact .inr (.inl rfl)
    | _ => exact .inr (.inr ⟨rfl, rfl⟩)
  | _ => exact .inr (.inr ⟨rfl, rfl⟩)

/-- The other widgets enter modes in normal mode only, and none of them insert mode. -/
theorem other_key (widgets : Widgets) {target : WidgetId} (other : target ≠ .console)
    (key : KeyEvent) (mode : InputMode) :
    (widgets.handleKey target key mode).1 = widgets ∧
      ((∃ entered, entered ≠ .insert ∧ mode = .normal ∧
        (widgets.handleKey target key mode).2 = [.setMode entered]) ∨
      ∀ action ∈ (widgets.handleKey target key mode).2,
        action.plain = true ∧ action.moves = false ∧
          ∀ (app : App) port, app.owed port action = []) := by
  have none {actions : List Action} (empty : actions = []) (action : Action)
      (member : action ∈ actions) : action.plain = true ∧ action.moves = false ∧
        ∀ (app : App) port, app.owed port action = [] := by
    rw [empty] at member
    cases member
  cases target with
  | console => exact absurd rfl other
  | primary =>
    refine ⟨rfl, ?_⟩
    simp only [Widgets.handleKey, primaryKey]
    split
    · exact .inr (none rfl)
    · rename_i normal
      have normal := not_not.mp normal
      split
      · refine .inr fun action member => ?_
        cases List.mem_singleton.mp member
        exact ⟨rfl, rfl, fun _ _ => rfl⟩
      · split
        · exact .inl ⟨.searchAscii, by simp, normal, rfl⟩
        · exact .inr (none rfl)
      · split
        · exact .inl ⟨.searchBytes, by simp, normal, rfl⟩
        · exact .inr (none rfl)
      · exact .inl ⟨.goto, by simp, normal, rfl⟩
      · exact .inr (none rfl)
  | secondary =>
    refine ⟨rfl, ?_⟩
    simp only [Widgets.handleKey, SecondaryWidget.handleKey]
    split
    · exact .inr (none rfl)
    · rename_i normal
      have normal := not_not.mp normal
      split
      · refine .inr fun action member => ?_
        cases List.mem_singleton.mp member
        exact ⟨rfl, rfl, fun _ _ => rfl⟩
      · split
        · exact .inl ⟨.goto, by simp, normal, rfl⟩
        · exact .inr (none rfl)
      · exact .inr (none rfl)
  | _ => exact ⟨rfl, .inr (none rfl)⟩

/-- Nothing owed before and nothing owed after. -/
theorem consistent_silent (holds : app.Consistent total [action])
    (placed : after.Placed) (orderly : after.Orderly more)
    (sent : after.runtime.sent = app.runtime.sent) (before : ∀ port, app.owed port action = [])
    (silent : ∀ other ∈ more, ∀ port, after.owed port other = []) :
    after.Consistent total more := by
  refine ⟨placed, orderly, fun port => ?_⟩
  have nothing : more.flatMap (after.owed port) = [] :=
    List.flatMap_eq_nil_iff.mpr fun other member => silent other member port
  rw [account, nothing, sent, ← holds.account port, account, List.flatMap_singleton, before]

/-- The one action that is left sends what was owed. -/
theorem consistent_send {bytes : List U8} (holds : app.Consistent total [action])
    (placed : after.Placed) (sent : after.runtime.sent = app.runtime.sent) {target : UartPort}
    (owes : ∀ port, app.owed port action = if target = port then bytes else []) :
    after.Consistent total [.sendUart target bytes] := by
  refine ⟨placed, .plain (fun other member => ?_) (fun _ other member => ?_), fun port => ?_⟩
  · rw [List.mem_singleton.mp member]
    rfl
  · rw [List.mem_singleton.mp member]
    rfl
  · rw [account, List.flatMap_singleton, sent, ← holds.account port, account,
      List.flatMap_singleton, owes]
    rfl

/-- What a key asks of the widget with the focus. -/
theorem consistent_key {key : KeyEvent} (holds : app.Consistent total [.widgetKey app.focused key])
    (done : app.processAction (.widgetKey app.focused key) = .ok (after, more)) :
    after.Consistent total more := by
  have result : (({ app with
      widgets := (app.widgets.handleKey app.focused key app.input.mode).1 } : App),
        (app.widgets.handleKey app.focused key app.input.mode).2) = (after, more) := Except.ok.inj done
  obtain ⟨rfl, asked⟩ := Prod.mk.inj result
  have placed : Placed { app with
      widgets := (app.widgets.handleKey app.focused key app.input.mode).1 } :=
    ⟨holds.placed.pane, holds.placed.typing⟩
  by_cases console : app.focused = .console
  · have owes (port : UartPort) : app.owed port (.widgetKey app.focused key) =
        if app.widgets.console.uart = port then typedKey app.input.mode key.code else [] := by
      simp only [owed, console, true_and]
    have asked : (app.widgets.console.handleKey key app.input.mode).2 = more := by
      rw [← asked, console]
      rfl
    rcases console_key app.widgets.console key app.input.mode with
      ⟨actions, normal, nothing⟩ | actions | ⟨actions, nothing⟩
    · obtain rfl := asked.symm.trans actions
      refine consistent_silent holds placed (.entry (fun _ => console) normal) rfl
        (fun port => ?_) fun other member _ => ?_
      · rw [owes, nothing, ite_self]
      · rw [List.mem_singleton.mp member]
        rfl
    · obtain rfl := asked.symm.trans actions
      exact consistent_send holds placed rfl owes
    · obtain rfl := asked.symm.trans actions
      refine consistent_silent holds placed (.plain (by simp) (by simp)) rfl
        (fun port => ?_) (by simp)
      rw [owes, nothing, ite_self]
  · have nothing (port : UartPort) : app.owed port (.widgetKey app.focused key) = [] :=
      if_neg fun both => console both.1
    obtain ⟨_, ⟨entered, other, normal, actions⟩ | harmless⟩ :=
      other_key app.widgets console key app.input.mode
    · obtain rfl := asked.symm.trans actions
      refine consistent_silent holds placed (.entry (fun insert => absurd insert other) normal) rfl
        nothing fun other member _ => ?_
      rw [List.mem_singleton.mp member]
      rfl
    · rw [asked] at harmless
      exact consistent_silent holds placed
        (.plain (fun action member => (harmless action member).1)
          fun _ action member => (harmless action member).2.1) rfl nothing
        fun other member port => (harmless other member).2.2 _ port

/-- Text that is inserted goes to the console. -/
theorem consistent_text {text : List Char}
    (holds : app.Consistent total [.insertText app.focused text])
    (insert : app.input.mode = .insert)
    (done : app.processAction (.insertText app.focused text) = .ok (after, more)) :
    after.Consistent total more := by
  have console := holds.placed.typing insert
  obtain ⟨widgets, updated, rfl⟩ := target_ok done
  rw [Widgets.target_insertText, if_pos console] at updated
  cases updated
  have placed : Placed { app with widgets := { app.widgets with
      console := (app.widgets.console.send (utf8 text)).1 } } :=
    ⟨holds.placed.pane, holds.placed.typing⟩
  refine consistent_send holds placed rfl fun port => ?_
  simp only [owed, console, true_and]

/-- A mode that is entered. -/
theorem consistent_entry {mode : InputMode} (holds : app.Consistent total [.setMode mode])
    (console : mode = .insert → app.focused = .console) :
    (app.setMode mode).Consistent total [] := by
  have stays := stays_setMode app mode
  have sent : (app.setMode mode).runtime.sent = app.runtime.sent := stays.sent
  refine consistent_silent holds ⟨?_, fun insert => ?_⟩ (.plain (by simp) (by simp)) sent
    (fun _ => rfl) (by simp)
  · rw [stays.view, stays.focused]
    exact holds.placed.pane
  · rw [stays.focused]
    exact console (stays.mode.symm.trans insert)

/-- One action of the queue. -/
theorem consistent_step (holds : app.Consistent total (action :: rest))
    (done : app.processAction action = .ok (after, more)) :
    after.Consistent total (rest ++ more) := by
  cases holds.orderly with
  | plain plain still => exact consistent_plain holds plain still done
  | key mode => exact consistent_key holds done
  | text insert => exact consistent_text holds insert done
  | entry console normal =>
    cases done
    exact consistent_entry holds console

/-- The whole queue, after which nothing is owed. -/
theorem consistent_processActions (holds : app.Consistent total actions)
    (done : app.processActions actions = .ok after) :
    after.Placed ∧ after.runtime.sent = total := by
  have kept : after.Consistent total [] :=
    workOff_invariant (fun _ _ _ _ _ done holds => consistent_step holds done) holds
      (processActions_ok done)
  refine ⟨kept.placed, funext fun port => ?_⟩
  rw [← kept.account port, account, List.flatMap_nil, List.append_nil]

/-! ### Steps of the app -/

/-- The bytes that an event types in insert mode. -/
def inserted : InputEvent → List U8
  | .key key => if key.press then typedKey .insert key.code else []
  | .paste text => utf8 text
  | .other => []

/-- The bytes for a port that an event types. A key press that closes the help types nothing. -/
def typed (app : App) (port : UartPort) : Event → List U8
  | .mouse _ => []
  | .input event =>
    if app.helpVisible ∧ event.isPress then []
    else if app.input.mode = .insert ∧ app.widgets.console.uart = port then inserted event
    else []

def typedBy (app : App) (port : UartPort) : AppStep → List U8
  | .event event => app.typed port event
  | _ => []

/-- A session from some state on, and the bytes for the ports that were typed in it. -/
def session (outside : Surroundings) : App → List AppStep →
    Except Panic (App × (UartPort → List U8))
  | app, [] => return (app, fun _ => [])
  | app, step :: steps => do
    let after ← app.step outside step
    let (last, typed) ← session outside after steps
    return (last, fun port => app.typedBy port step ++ typed port)

/-- The actions that bring no bytes to a port. -/
def Silent (action : Action) : Prop := ∀ (app : App) port, app.owed port action = []

theorem consistent_start (placed : app.Placed) (orderly : app.Orderly actions)
    (silent : ∀ action ∈ actions, ∀ port, app.owed port action = []) :
    app.Consistent app.runtime.sent actions := by
  refine ⟨placed, orderly, fun port => ?_⟩
  have nothing : actions.flatMap (app.owed port) = [] :=
    List.flatMap_eq_nil_iff.mpr fun action member => silent action member port
  rw [account, nothing, List.append_nil]

theorem orderly_quiet (quiet : ∀ action ∈ actions, action.quiet = true) : app.Orderly actions :=
  .plain (fun action member => (Action.plain_of_quiet (quiet action member)).1)
    fun _ action member => (Action.plain_of_quiet (quiet action member)).2

theorem Placed.stays (placed : app.Placed) (stays : Stays app after) : after.Placed := by
  refine ⟨?_, fun insert => ?_⟩
  · rw [stays.view, stays.focused]
    exact placed.pane
  · rw [stays.focused]
    exact placed.typing (stays.mode.symm.trans insert)

/-- A queue of quiet actions sends nothing. -/
theorem processActions_quiet (placed : app.Placed) (quiet : ∀ action ∈ actions, action.quiet = true)
    (done : app.processActions actions = .ok after) :
    after.Placed ∧ after.runtime.sent = app.runtime.sent :=
  consistent_processActions (consistent_start placed (orderly_quiet quiet)
    fun action member _ => owed_quiet app (quiet action member)) done

variable {outside : Surroundings}

/-- Only the widgets have changed, and what is asked for is quiet. -/
structure Redrawn (app after : App) (actions : List Action) : Prop where
  widgets : ∃ widgets, after = { app with widgets }
  quiet : ∀ action ∈ actions, action.quiet = true

theorem redrawn_nil (app : App) : Redrawn app app [] := ⟨⟨app.widgets, rfl⟩, by simp⟩

theorem redrawn_showMessage (app : App) (message : DialogMessage) :
    Redrawn app (app.showMessage message) [] := ⟨⟨_, rfl⟩, by simp⟩

theorem Redrawn.append {middle : App} (first : Redrawn app middle actions)
    (second : Redrawn middle after more) : Redrawn app after (actions ++ more) := by
  obtain ⟨⟨_, rfl⟩, one⟩ := first
  obtain ⟨⟨widgets, rfl⟩, two⟩ := second
  exact ⟨⟨widgets, rfl⟩,
    fun action member => (List.mem_append.mp member).elim (one action) (two action)⟩

theorem redrawn_target {id : WidgetId} {event : AppEvent} (other : ∀ text, event ≠ .insertText text)
    (done : app.target id event = .ok (after, actions)) : Redrawn app after actions := by
  obtain ⟨widgets, updated, same⟩ := target_ok done
  exact ⟨⟨widgets, same⟩, (modest_target other updated).quiet⟩

theorem redrawn_broadcast {event : AppEvent} (other : ∀ text, event ≠ .insertText text)
    (done : app.broadcast event = .ok (after, actions)) : Redrawn app after actions := by
  obtain ⟨widgets, updated, same⟩ := broadcast_ok done
  exact ⟨⟨widgets, same⟩, (modest_broadcast other updated).quiet⟩

theorem redrawn_takeStatus (done : app.takeStatus = .ok (after, actions)) :
    Redrawn { app with runtime := app.runtime.refreshStatus.2 } after actions := by
  unfold takeStatus at done
  dsimp only at done
  split at done
  · cases done
    exact redrawn_nil _
  · obtain ⟨⟨middle, ofStatus⟩, updated, done⟩ := bind_ok done
    have redrawn := redrawn_broadcast (by simp) updated
    have refreshing (after : App) (shown : Redrawn middle after []) :
        Redrawn middle after refreshes := ⟨shown.widgets, modest_refreshes.quiet⟩
    dsimp only at done
    split at done
    · cases done
      exact redrawn
    · split at done
      · cases done
        exact redrawn.append (refreshing _ (redrawn_showMessage _ _))
      · cases done
        exact redrawn.append (refreshing _ (redrawn_nil _))

theorem redrawn_inspectionFailed {entry : PendingInspection} {detail : String}
    (done : app.inspectionFailed entry detail = .ok (after, actions)) :
    Redrawn app after actions := by
  unfold inspectionFailed at done
  split at done
  · exact redrawn_target (by simp) done
  · cases done
    exact redrawn_showMessage app _

theorem redrawn_deliver {entry : PendingInspection}
    (done : app.deliver outside entry = .ok (after, actions)) : Redrawn app after actions := by
  unfold deliver at done
  split at done
  · exact redrawn_target (by simp) done
  · exact redrawn_inspectionFailed done
  · exact redrawn_inspectionFailed done
  · cases done
    exact redrawn_nil _

theorem redrawn_deliverAll {entries : List PendingInspection}
    (done : deliverAll outside entries app = .ok (after, actions)) : Redrawn app after actions := by
  induction entries generalizing app actions with
  | nil =>
    cases done
    exact redrawn_nil _
  | cons entry entries ih =>
    obtain ⟨⟨middle, first⟩, delivered, done⟩ := bind_ok done
    obtain ⟨⟨last, rest⟩, remaining, same⟩ := bind_ok done
    cases same
    exact (redrawn_deliver delivered).append (ih remaining)

theorem redrawn_pulse {due : Bool} (done : app.pulse due = .ok (after, actions)) :
    Redrawn app after actions := by
  unfold pulse at done
  split at done
  · exact redrawn_broadcast (by simp) done
  · cases done
    exact redrawn_nil _

/-- A tick takes over the status, hands out the answers, redraws and processes quiet actions. -/
theorem tick_ok {due : Bool} (done : app.tick outside due = .ok after) : ∃ middle actions,
    Redrawn { app with runtime := app.runtime.refreshStatus.2.poll.2 } middle actions ∧
      middle.processActions actions = .ok after := by
  obtain ⟨⟨first, ofStatus⟩, status, done⟩ := bind_ok done
  obtain ⟨⟨second, ofAnswers⟩, answers, done⟩ := bind_ok done
  obtain ⟨⟨third, ofPulse⟩, pulsed, done⟩ := bind_ok done
  have polled : Redrawn { app with runtime := app.runtime.refreshStatus.2.poll.2 }
      { first with runtime := first.runtime.poll.2 } ofStatus := by
    obtain ⟨⟨widgets, rfl⟩, quiet⟩ := redrawn_takeStatus status
    exact ⟨⟨widgets, rfl⟩, quiet⟩
  exact ⟨third, ofStatus ++ ofAnswers ++ ofPulse,
    (polled.append (redrawn_deliverAll answers)).append (redrawn_pulse pulsed), done⟩

theorem placed_tick {due : Bool} (placed : app.Placed) (done : app.tick outside due = .ok after) :
    after.Placed ∧ after.runtime.sent = app.runtime.sent := by
  obtain ⟨middle, actions, ⟨⟨widgets, redrawn⟩, quiet⟩, done⟩ := tick_ok done
  have sent : app.runtime.refreshStatus.2.poll.2.sent = app.runtime.sent := by
    unfold RuntimeController.refreshStatus
    dsimp only
    split <;> rfl
  have stays : Stays app middle := by
    rw [redrawn]
    exact ⟨rfl, rfl, rfl, sent⟩
  obtain ⟨placed, sent⟩ := processActions_quiet (placed.stays stays) quiet done
  exact ⟨placed, sent.trans stays.sent⟩

/-! ### Events -/

/-- The actions of a key, in the modes in which it types nothing. -/
def Harmless (actions : List Action) : Prop :=
  ∀ action ∈ actions, action.plain = true ∧ Silent action

theorem harmless_nil : Harmless [] := fun _ member => absurd member List.not_mem_nil

theorem harmless_one (plain : action.plain = true) (silent : Silent action) : Harmless [action] :=
  fun _ member => List.mem_singleton.mp member ▸ ⟨plain, silent⟩

theorem Harmless.append (first : Harmless actions) (second : Harmless more) :
    Harmless (actions ++ more) :=
  fun action member => (List.mem_append.mp member).elim (first action) (second action)

theorem harmless_normal (router : InputRouter) (key : KeyEvent) (focused : WidgetId) :
    Harmless (router.normal key focused).1 ∨
      (router.normal key focused).1 = [.widgetKey focused key] ∨
      ∃ mode, mode ≠ .insert ∧ (router.normal key focused).1 = [.setMode mode] := by
  unfold InputRouter.normal
  split
  · refine .inl fun action member => ?_
    obtain ⟨target, _, rfl⟩ := List.mem_map.mp member
    exact ⟨rfl, fun _ _ => rfl⟩
  split
  · exact .inr (.inr ⟨.command, by simp, rfl⟩)
  · exact .inl (harmless_one rfl fun _ _ => rfl)
  · exact .inr (.inr ⟨.leader, by simp, rfl⟩)
  · exact .inl harmless_nil
  · unfold InputRouter.decode
    split
    split
    · exact .inl harmless_nil
    · exact .inl (harmless_one rfl fun _ _ => rfl)
    · exact .inr (.inl rfl)

theorem harmless_leader (key : KeyEvent) : Harmless (InputRouter.leader key) := by
  have leaves : Harmless [.setMode .normal] := harmless_one rfl fun _ _ => rfl
  unfold InputRouter.leader
  split
  · exact (harmless_one rfl fun _ _ => rfl).append leaves
  · exact (harmless_one rfl fun _ _ => rfl).append leaves
  · exact (harmless_one rfl fun _ _ => rfl).append leaves
  · exact leaves
  · exact (harmless_one rfl fun _ _ => rfl).append leaves

theorem harmless_submit {mode : InputMode} {input : List Char} {focused : WidgetId}
    (done : InputRouter.submit mode input focused = .ok actions) : Harmless actions := by
  have searched {pattern : Except String (List U8)}
      (done : pattern.map (fun pattern =>
        [Action.requestInspection focused (.searchMemory pattern)]) = .ok actions) :
      Harmless actions := by
    cases pattern <;> cases done
    exact harmless_one rfl fun _ _ => rfl
  cases mode with
  | normal | insert | leader =>
    cases done
    exact harmless_nil
  | goto =>
    cases done
    exact harmless_one rfl fun _ _ => rfl
  | searchAscii | searchBytes => exact searched done
  | command =>
    rcases Command.parse_eq_ok.mp done with ⟨_, rfl⟩ | ⟨_, command, _, _, rfl⟩
    · exact harmless_nil
    · cases command <;> exact harmless_one rfl fun _ _ => rfl

theorem harmless_textInput (router : InputRouter) (key : KeyEvent) (focused : WidgetId) :
    Harmless (router.textInput key focused).1 := by
  have leaves : Harmless [.setMode .normal] := harmless_one rfl fun _ _ => rfl
  unfold InputRouter.textInput
  cases key.code with
  | esc => exact leaves
  | enter =>
    refine Harmless.append ?_ leaves
    split
    · rename_i done
      exact harmless_submit done
    · exact harmless_one rfl fun _ _ => rfl
  | _ => exact harmless_nil

/-- The state with what the router has become. -/
def routed (app : App) (event : InputEvent) : App :=
  { app with input := (app.input.route event app.focused).2 }

theorem mode_route (app : App) (event : InputEvent) :
    (app.routed event).input.mode = app.input.mode := by
  cases event with
  | key key =>
    by_cases pressed : key.press = true
    · have stepped : (app.routed (.key key)).input =
          (app.input.routeKey key app.focused).2 := congrArg Prod.snd (if_pos pressed)
      rw [stepped]
      exact InputRouter.mode_routeKey key app.focused
    · have stepped : (app.routed (.key key)).input = app.input := congrArg Prod.snd (if_neg pressed)
      rw [stepped]
  | paste text | other => rfl

theorem stays_routed (app : App) (event : InputEvent) : Stays app (app.routed event) :=
  ⟨rfl, rfl, app.mode_route event, rfl⟩

theorem consistent_harmless (placed : app.Placed) (harmless : Harmless actions)
    (other : app.input.mode ≠ .insert) : app.Consistent app.runtime.sent actions :=
  consistent_start placed (.plain (fun action member => (harmless action member).1)
    fun insert => absurd insert other) fun action member => (harmless action member).2 app

/-- One action that owes what was typed. -/
theorem consistent_one (placed : app.Placed) (orderly : app.Orderly [action])
    {typed : UartPort → List U8} (owes : ∀ port, app.owed port action = typed port) :
    app.Consistent (fun port => app.runtime.sent port ++ typed port) [action] := by
  refine ⟨placed, orderly, fun port => ?_⟩
  rw [account, List.flatMap_singleton, owes]

/-- A key outside of insert mode sends nothing. -/
theorem consistent_command {key : KeyEvent} (placed : app.Placed) (other : app.input.mode ≠ .insert)
    (pressed : key.press = true) :
    (app.routed (.key key)).Consistent app.runtime.sent
      (app.input.route (.key key) app.focused).1 := by
  have stays := app.stays_routed (.key key)
  have placed := placed.stays stays
  have outside : (app.routed (.key key)).input.mode ≠ .insert := stays.mode ▸ other
  have asked : (app.input.route (.key key) app.focused).1 =
      (app.input.routeKey key app.focused).1 := congrArg Prod.fst (if_pos pressed)
  rw [asked, InputRouter.routeKey]
  split
  · rename_i normal
    have normal : (app.routed (.key key)).input.mode = .normal := stays.mode.trans normal
    rcases harmless_normal app.input key app.focused with harmless | forwarded | ⟨mode, apart, enters⟩
    · exact consistent_harmless placed harmless outside
    · rw [forwarded]
      refine consistent_start placed (.key (.inl normal)) fun action member port => ?_
      rw [List.mem_singleton.mp member, owed, normal]
      exact ite_self _
    · rw [enters]
      refine consistent_start placed (.entry (fun insert => absurd insert apart) normal) ?_
      exact fun action member => List.mem_singleton.mp member ▸ fun _ => rfl
  · contradiction
  · exact consistent_harmless placed (harmless_leader key) outside
  all_goals exact consistent_harmless placed (harmless_textInput app.input key app.focused) outside

/-- Input that does not close the help sends what it types. -/
theorem consistent_route (placed : app.Placed) (event : InputEvent)
    (open' : ¬(app.helpVisible ∧ event.isPress)) :
    (app.routed event).Consistent
      (fun port => app.runtime.sent port ++ app.typed port (.input event))
      (app.input.route event app.focused).1 := by
  have stays := app.stays_routed event
  have typed (port : UartPort) : app.typed port (.input event) =
      if app.input.mode = .insert ∧ app.widgets.console.uart = port then inserted event else [] :=
    if_neg open'
  have nothing (none : app.input.mode ≠ .insert ∨ inserted event = []) :
      (fun port => app.runtime.sent port ++ app.typed port (.input event)) = app.runtime.sent := by
    funext port
    rw [typed]
    rcases none with other | empty
    · rw [if_neg fun both => other both.1, List.append_nil]
    · rw [empty, ite_self, List.append_nil]
  have idle (none : (app.input.route event app.focused).1 = []) :
      (app.routed event).Consistent app.runtime.sent (app.input.route event app.focused).1 := by
    rw [none]
    exact consistent_start (placed.stays stays) (.plain (by simp) (by simp)) (by simp)
  cases event with
  | other =>
    rw [nothing (.inr rfl)]
    exact idle rfl
  | paste text =>
    by_cases insert : app.input.mode = .insert
    · have asked : (app.input.route (.paste text) app.focused).1 =
          [.insertText app.focused text] := if_pos insert
      have console := placed.typing insert
      rw [asked]
      refine consistent_one (placed.stays stays) (.text insert) fun port => ?_
      rw [typed]
      simp only [insert, true_and]
      exact if_congr (and_iff_right console) rfl rfl
    · rw [nothing (.inl insert)]
      exact idle (if_neg insert)
  | key key =>
    by_cases pressed : key.press = true
    · by_cases insert : app.input.mode = .insert
      · have asked : (app.input.route (.key key) app.focused).1 =
            if key.code = .esc then [.setMode .normal] else [.widgetKey app.focused key] := by
          rw [InputRouter.route, if_pos pressed, InputRouter.routeKey, insert]
        rw [asked]
        by_cases leaves : key.code = .esc
        · have empty : inserted (.key key) = [] := by
            rw [inserted, leaves]
            exact ite_self _
          rw [nothing (.inr empty), if_pos leaves]
          exact consistent_start (placed.stays stays)
            (.plain (by simp [Action.plain]) (by simp [Action.moves])) (by simp [owed])
        · have console := placed.typing insert
          rw [if_neg leaves]
          refine consistent_one (placed.stays stays) (.key (.inr (stays.mode.trans insert)))
            fun port => ?_
          rw [typed, owed, stays.mode]
          simp only [insert, true_and, inserted, pressed, if_true]
          exact if_congr (and_iff_right console) rfl rfl
      · rw [nothing (.inl insert)]
        exact consistent_command placed insert pressed
    · have empty : inserted (.key key) = [] := if_neg pressed
      rw [nothing (.inr empty)]
      exact idle (congrArg Prod.fst (if_neg pressed))

theorem consistent_idle (placed : app.Placed) (stays : Stays app after) :
    after.Consistent app.runtime.sent [] := by
  rw [← stays.sent]
  exact consistent_start (placed.stays stays) (.plain (fun _ member => absurd member List.not_mem_nil)
    fun _ _ member => absurd member List.not_mem_nil) fun _ member => absurd member List.not_mem_nil

/-- In insert mode the mouse moves no focus. -/
theorem consistent_mouse (placed : app.Placed) (mouse : MouseEvent) :
    (app.handleMouse outside mouse).1.Consistent app.runtime.sent
      (app.handleMouse outside mouse).2 := by
  have idle := consistent_idle placed (stays_refl app)
  unfold handleMouse
  split
  · split
    · dsimp only
      split
      · exact consistent_idle placed ⟨rfl, rfl, rfl, rfl⟩
      · exact idle
    · unfold plainClickAction
      split
      · exact idle
      · rename_i outside
        split
        · exact consistent_harmless placed (harmless_one rfl fun _ _ => rfl) outside
        · refine consistent_harmless placed (fun action member => ?_) outside
          obtain ⟨_, _, same⟩ := Option.map_eq_some_iff.mp (Option.mem_toList.mp member)
          exact same ▸ ⟨rfl, fun _ _ => rfl⟩
  · split
    · exact idle
    · dsimp only
      split
      · exact idle
      · exact consistent_start placed (.plain (by simp [Action.plain]) (by simp [Action.moves]))
          (by simp [owed])
  · exact consistent_idle placed ⟨rfl, rfl, rfl, rfl⟩
  · exact idle

theorem placed_event {event : Event} (placed : app.Placed)
    (done : app.handleEvent outside event = .ok after) :
    after.Placed ∧ after.runtime.sent =
      fun port => app.runtime.sent port ++ app.typed port event := by
  cases event with
  | mouse mouse =>
    obtain ⟨placed, sent⟩ := consistent_processActions (consistent_mouse placed mouse) done
    exact ⟨placed, sent.trans (funext fun port => (List.append_nil _).symm)⟩
  | input event =>
    unfold handleEvent at done
    dsimp only at done
    split at done
    · rename_i closes
      cases done
      refine ⟨⟨placed.pane, placed.typing⟩, funext fun port => ?_⟩
      rw [typed, if_pos closes, List.append_nil]
    · rename_i open'
      exact consistent_processActions (consistent_route placed event open') done

theorem placed_render {area : Area} (placed : app.Placed)
    (done : app.render outside area = .ok after) :
    after.Placed ∧ after.runtime.sent = app.runtime.sent := by
  unfold render at done
  dsimp only at done
  split at done
  · cases done
    exact ⟨⟨placed.pane, placed.typing⟩, rfl⟩
  · obtain ⟨_, _, same⟩ := bind_ok done
    cases same
    exact ⟨⟨placed.pane, placed.typing⟩, rfl⟩

/-- A step keeps the focus in its place, and sends what it types. -/
theorem placed_step {step : AppStep} (placed : app.Placed) (done : app.step outside step = .ok after) :
    after.Placed ∧ after.runtime.sent =
      fun port => app.runtime.sent port ++ app.typedBy port step := by
  have silent (result : after.Placed ∧ after.runtime.sent = app.runtime.sent) :
      after.Placed ∧ after.runtime.sent = fun port => app.runtime.sent port ++ [] :=
    ⟨result.1, result.2.trans (funext fun port => (List.append_nil _).symm)⟩
  cases step with
  | tick due => exact silent (placed_tick placed done)
  | event event => exact placed_event placed done
  | render area => exact silent (placed_render placed done)
  | answered channel response | receive host | turn inbox runner publishDue host | exit =>
    cases done
    exact silent ⟨⟨placed.pane, placed.typing⟩, rfl⟩

theorem placed_session {steps : List AppStep} {last : App} {typed : UartPort → List U8}
    (placed : app.Placed) (ran : session outside app steps = .ok (last, typed)) :
    last.Placed ∧ last.runtime.sent = fun port => app.runtime.sent port ++ typed port := by
  induction steps generalizing app typed with
  | nil =>
    cases ran
    exact ⟨placed, funext fun port => (List.append_nil _).symm⟩
  | cons step steps ih =>
    obtain ⟨middle, stepped, others⟩ := bind_ok ran
    obtain ⟨⟨_, rest⟩, remaining, same⟩ := bind_ok others
    cases same
    obtain ⟨placed, first⟩ := placed_step placed stepped
    obtain ⟨placed, second⟩ := ih placed remaining
    refine ⟨placed, second.trans (funext fun port => ?_)⟩
    rw [first, List.append_assoc]

theorem start_ok {system : System} (started : start system = .ok app) : ∃ first actions,
    Redrawn { runtime := { system, status := system.service.status } } first actions ∧
      first.processActions actions = .ok app := by
  obtain ⟨⟨first, ofStatus⟩, status, started⟩ := bind_ok started
  obtain ⟨⟨second, ofView⟩, view, started⟩ := bind_ok started
  exact ⟨second, ofStatus ++ ofView,
    (redrawn_broadcast (by simp) status).append (redrawn_broadcast (by simp) view), started⟩

theorem placed_start {system : System} (started : start system = .ok app) :
    app.Placed ∧ app.runtime.sent = fun _ => [] := by
  obtain ⟨_, actions, ⟨⟨widgets, rfl⟩, quiet⟩, started⟩ := start_ok started
  exact processActions_quiet ⟨rfl, fun insert => (by cases insert)⟩ quiet started

/-! ### Sessions -/

section Sessions

variable {system : System} {steps : List AppStep} {last : App} {bytes : UartPort → List U8}

/-- At every moment of a session the focus is on a pane of the view, and in insert mode it is the
console's: whatever clicks, answers and ticks come between keys, what is typed cannot go astray. -/
theorem focus_in_place (started : start system = .ok app)
    (ran : session outside app steps = .ok (last, bytes)) :
    visibleFocus last.view last.focused = true ∧
      (last.input.mode = .insert → last.view = .runtime ∧ last.focused = .console) := by
  have placed := (placed_session (placed_start started).1 ran).1
  refine ⟨placed.pane, fun insert => ?_⟩
  have console := placed.typing insert
  have pane := placed.pane
  rw [console] at pane
  refine ⟨?_, console⟩
  cases view : last.view with
  | runtime => rfl
  | inspect =>
    rw [view] at pane
    cases pane

/-- A screen of which every pane is the whole. -/
def bareScreen : Surroundings where
  rows area := (area, area, area, area)
  columns _ area := (area, area)
  right area := (area, area)
  popup area := area
  headerInner area := area
  describe _ := ""

def press (code : KeyCode) : AppStep := .event (.input (.key ⟨code, false, true⟩))

def click : AppStep := .event (.mouse ⟨.downLeft, false, 5, 5⟩)

/-- A click in insert mode. -/
theorem focus_in_place_insert : ∃ service,
    Service.start System.plainConfig System.quietHost = .ok service ∧
      ∃ app last bytes, start (.spawn service 4) = .ok app ∧
        session bareScreen app [press (.char 'i'), click] = .ok (last, bytes) ∧
          last.input.mode = .insert ∧ last.focused = .console := by
  obtain ⟨service, started⟩ : ∃ service,
      Service.start System.plainConfig System.quietHost = .ok service := ⟨_, rfl⟩
  have opened : ∃ app, start (.spawn service 4) = .ok app := ⟨_, rfl⟩
  obtain ⟨app, opened⟩ := opened
  have ran : ∃ last bytes, session bareScreen app [press (.char 'i'), click] =
      .ok (last, bytes) ∧ last.input.mode = .insert := by
    cases opened
    exact ⟨_, _, rfl, rfl⟩
  obtain ⟨last, bytes, ran, insert⟩ := ran
  exact ⟨service, started, app, last, bytes, opened, ran, insert,
    ((focus_in_place opened ran).2 insert).2⟩

/-- Each UART is sent exactly the bytes that were typed or pasted for it in insert mode, in their
order, and nothing else. -/
theorem typed_reaches_uart (started : start system = .ok app)
    (ran : session outside app steps = .ok (last, bytes)) : last.runtime.sent = bytes := by
  obtain ⟨placed, nothing⟩ := placed_start started
  rw [(placed_session placed ran).2, nothing]
  rfl

/-- A letter and a line end, for the UART that is selected at first. -/
theorem typed_reaches_uart_line : ∃ service,
    Service.start System.plainConfig System.quietHost = .ok service ∧
      ∃ app last bytes, start (.spawn service 4) = .ok app ∧
        session bareScreen app [press (.char 'i'), press (.char 'x'), press .enter] =
          .ok (last, bytes) ∧ bytes .uart0 = [0x78, 10] ∧ last.runtime.sent = bytes := by
  obtain ⟨service, started⟩ : ∃ service,
      Service.start System.plainConfig System.quietHost = .ok service := ⟨_, rfl⟩
  have opened : ∃ app, start (.spawn service 4) = .ok app := ⟨_, rfl⟩
  obtain ⟨app, opened⟩ := opened
  have ran : ∃ last bytes,
      session bareScreen app [press (.char 'i'), press (.char 'x'), press .enter] =
        .ok (last, bytes) ∧ bytes .uart0 = [0x78, 10] := by
    cases opened
    exact ⟨_, _, rfl, rfl⟩
  obtain ⟨last, bytes, ran, line⟩ := ran
  exact ⟨service, started, app, last, bytes, opened, ran, line, typed_reaches_uart opened ran⟩

end Sessions

end App

end Minemu.Terminal
