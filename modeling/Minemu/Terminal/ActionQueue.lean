import Minemu.Terminal.App

/-! The action queue of the app: what widgets and actions put into it, and why processing it always
ends. -/

namespace Minemu.Terminal

open Library Platform Minemu.Core Minemu.Unicorn Minemu.Runtime Minemu.Tui

/-- What widgets ask for on events of the app, but for the bytes of an inserted text. -/
def Action.quiet : Action → Bool
  | .requestInspection _ _ | .showMessage _ | .setPrimary _ | .refresh _ => true
  | _ => false

/-- The most that a widget puts into the queue on an event. -/
def eventLoad : AppEvent → Nat
  | .inspection _ => 9
  | .viewChanged _ => 3
  | .refresh | .secondarySelected _ => 2
  | .inspectionFailed _ _ | .navigate _ | .insertText _ | .primarySelected _ | .pulse | .goto _ => 1
  | .status _ | .reset | .uartSelected _ | .dialog _ => 0

/-- The actions are quiet, and they weigh no more than that. -/
structure Modest (most : Nat) (actions : List Action) : Prop where
  quiet : ∀ action ∈ actions, action.quiet = true
  light : load App.weight actions ≤ most

variable {most : Nat} {event : AppEvent} {actions : List Action}

theorem modest_nil (most : Nat) : Modest most [] :=
  ⟨fun _ member => absurd member List.not_mem_nil, Nat.zero_le _⟩

theorem modest_one {action : Action} (quiet : action.quiet = true) (light : App.weight action ≤ most) :
    Modest most [action] :=
  ⟨fun _ member => List.mem_singleton.mp member ▸ quiet, by simpa using light⟩

theorem modest_if {condition : Prop} [Decidable condition] (modest : Modest most actions) :
    Modest most (if condition then actions else []) := by
  split
  · exact modest
  · exact modest_nil most

theorem modest_primary {widget after : PrimaryWidget}
    (done : updatePrimary widget event = .ok (after, actions)) :
    Modest (eventLoad event) actions := by
  have fetched (widget : PrimaryWidget) {most : Nat} (one : 1 ≤ most) :
      Modest most (refreshPrimary widget) := modest_one rfl one
  cases event with
  | inspection inspection =>
    cases inspection with
    | liveMemory range bytes | virtualMemory address bytes =>
      obtain ⟨_, _, same⟩ := bind_ok done
      cases same
      exact modest_nil _
    | execution inspection =>
      obtain ⟨_, _, same⟩ := bind_ok done
      cases same
      exact modest_if (fetched _ (by simp [eventLoad]))
    | searchMemory found =>
      cases found with
      | none =>
        cases done
        exact modest_one rfl (by decide)
      | some address =>
        obtain ⟨_, _, same⟩ := bind_ok done
        cases same
        exact ⟨by simp [Action.quiet], by simp [App.weight, eventLoad]⟩
    | machine response | translation address physical =>
      cases done
      exact modest_nil _
  | inspectionFailed request error =>
    cases done
    exact modest_if (modest_one rfl (by simp [App.weight, eventLoad]))
  | viewChanged view =>
    cases done
    exact modest_if (modest_one rfl (by simp [App.weight, eventLoad]))
  | refresh =>
    cases done
    exact modest_if (fetched _ (by simp [eventLoad]))
  | pulse | primarySelected subview =>
    obtain ⟨_, _, same⟩ := bind_ok done
    cases same
    exact modest_if (fetched _ (by simp [eventLoad]))
  | navigate motion =>
    obtain ⟨_, _, same⟩ := bind_ok done
    cases same
    exact fetched _ le_rfl
  | goto value =>
    obtain ⟨_, _, same⟩ := bind_ok done
    cases same
    unfold gotoActions
    split
    · exact modest_one rfl le_rfl
    · split
      · exact modest_one rfl le_rfl
      · exact fetched _ le_rfl
  | _ =>
    cases done
    exact modest_nil _

theorem modest_secondary (widget : SecondaryWidget) (event : AppEvent) :
    Modest (eventLoad event) (widget.update event).2 := by
  have fetched (widget : SecondaryWidget) : Modest 2 widget.refresh := by
    unfold SecondaryWidget.refresh
    split
    · exact modest_one rfl (by decide)
    · exact modest_one rfl (by decide)
    · exact modest_one rfl (by decide)
    · exact ⟨by simp [Action.quiet], by simp [App.weight]⟩
  unfold SecondaryWidget.update
  split
  case h_4 => exact modest_if (modest_one rfl le_rfl)
  case h_5 => exact modest_if (fetched _)
  case h_6 => exact modest_if (fetched _)
  case h_8 =>
    split
    · unfold SecondaryWidget.gotoRegister
      split
      · exact modest_nil _
      · exact modest_one rfl le_rfl
    · exact modest_nil _
  all_goals exact modest_nil _

theorem modest_events (widget : EventsWidget) (event : AppEvent) :
    Modest (eventLoad event) (widget.update event).2 := by
  unfold EventsWidget.update
  split
  case h_3 => exact modest_if (modest_one rfl le_rfl)
  all_goals exact modest_nil _

/-- The console sends what is inserted, and is quiet on every other event. -/
theorem modest_console (widget : ConsoleWidget) (other : ∀ text, event ≠ .insertText text) :
    Modest (eventLoad event) (widget.update event).2 := by
  unfold ConsoleWidget.update
  split
  case h_2 => exact modest_if (modest_one rfl (Nat.le_of_ble_eq_true rfl))
  case h_4 => exact modest_if (modest_one rfl le_rfl)
  case h_7 text => exact absurd rfl (other text)
  all_goals exact modest_nil _

theorem Modest.append {first second : List Action} {more : Nat} (modest : Modest most first)
    (other : Modest more second) : Modest (most + more) (first ++ second) := by
  refine ⟨fun action member => ?_, ?_⟩
  · exact (List.mem_append.mp member).elim (modest.quiet action) (other.quiet action)
  · rw [load_append]
    exact Nat.add_le_add modest.light other.light

variable {widgets after : Widgets} {id : WidgetId}

theorem modest_target (other : ∀ text, event ≠ .insertText text)
    (done : widgets.target id event = .ok (after, actions)) : Modest (eventLoad event) actions := by
  cases id with
  | console =>
    cases done
    exact modest_console _ other
  | events =>
    cases done
    exact modest_events _ _
  | primary =>
    obtain ⟨⟨_, _⟩, updated, same⟩ := bind_ok done
    cases same
    exact modest_primary updated
  | secondary =>
    cases done
    exact modest_secondary _ _
  | _ =>
    cases done
    exact modest_nil _

theorem modest_broadcast (other : ∀ text, event ≠ .insertText text)
    (done : widgets.broadcast event = .ok (after, actions)) :
    Modest (4 * eventLoad event) actions := by
  obtain ⟨⟨_, _⟩, updated, same⟩ := bind_ok done
  cases same
  have modest := (((modest_console widgets.console other).append
    (modest_events widgets.events event)).append (modest_primary updated)).append
    (modest_secondary widgets.secondary event)
  exact ⟨modest.quiet, modest.light.trans (by omega)⟩

/-- Text that is inserted reaches the console alone. -/
theorem Widgets.target_insertText (widgets : Widgets) (id : WidgetId) (text : List Char) :
    widgets.target id (.insertText text) = .ok (if id = .console then
      ({ widgets with console := (widgets.console.send (utf8 text)).1 },
        [.sendUart widgets.console.uart (utf8 text)])
      else (widgets, [])) := by
  cases id <;> rfl

/-! ### Actions -/

namespace App

variable {app after : App} {view : View} {action : Action} {result : App × List Action}

/-- What a state and a list of actions are that were returned. -/
theorem state_ok
    (done : (Except.ok result : Except Panic (App × List Action)) = .ok (after, actions)) :
    result.1 = after := congrArg Prod.fst (Except.ok.inj done)

theorem asked_ok
    (done : (Except.ok result : Except Panic (App × List Action)) = .ok (after, actions)) :
    result.2 = actions := congrArg Prod.snd (Except.ok.inj done)

theorem target_ok (done : app.target id event = .ok (after, actions)) :
    ∃ widgets, app.widgets.target id event = .ok (widgets, actions) ∧
      after = { app with widgets } := by
  obtain ⟨⟨widgets, _⟩, updated, same⟩ := bind_ok done
  cases same
  exact ⟨widgets, updated, rfl⟩

theorem broadcast_ok (done : app.broadcast event = .ok (after, actions)) :
    ∃ widgets, app.widgets.broadcast event = .ok (widgets, actions) ∧
      after = { app with widgets } := by
  obtain ⟨⟨widgets, _⟩, updated, same⟩ := bind_ok done
  cases same
  exact ⟨widgets, updated, rfl⟩

theorem modest_refreshes : Modest 6 refreshes :=
  ⟨by simp [refreshes, Action.quiet], by simp [refreshes, weight]⟩

theorem modest_stop (app : App) : Modest 6 app.stop.2 := by
  unfold stop
  split
  · split
    · exact modest_refreshes
    · exact modest_nil _
  · dsimp only
    split
    · exact modest_refreshes
    · exact modest_nil _

theorem modest_turn (app : App) (view : View) : Modest 6 (app.turn view).2 := by
  unfold turn
  dsimp only
  split
  · exact modest_stop _
  · exact modest_nil _

theorem selectView_ok (done : app.selectView view = .ok (after, actions)) :
    (after = { app with suppressInputResume := after.suppressInputResume } ∧ app.view = view ∧
        actions = []) ∨
      ∃ suppressed more,
        ({ app with suppressInputResume := suppressed }.turn view).1.broadcast (.viewChanged view) =
          .ok (after, more) ∧
        actions = ({ app with suppressInputResume := suppressed }.turn view).2 ++ more := by
  have suppressed : ∃ suppressed, (if view = .inspect then app.suppress else app) =
      { app with suppressInputResume := suppressed } := by
    split
    · exact ⟨true, rfl⟩
    · exact ⟨app.suppressInputResume, rfl⟩
  obtain ⟨suppressed, same⟩ := suppressed
  rw [selectView, same] at done
  dsimp only at done
  split at done
  · rename_i here
    cases done
    exact .inl ⟨rfl, here, rfl⟩
  · obtain ⟨⟨_, more⟩, updated, same⟩ := bind_ok done
    cases same
    exact .inr ⟨suppressed, more, updated, rfl⟩

theorem modest_selectView (done : app.selectView view = .ok (after, actions)) :
    Modest 18 actions := by
  rcases selectView_ok done with ⟨_, _, rfl⟩ | ⟨suppressed, more, updated, rfl⟩
  · exact modest_nil _
  · obtain ⟨_, updated, _⟩ := broadcast_ok updated
    exact (modest_turn _ _).append (modest_broadcast (by simp) updated)

theorem modest_toggleRun (app : App) : Modest 6 app.toggleRun.2 := by
  unfold toggleRun
  split
  · exact modest_stop _
  · split
    · exact modest_stop _
    · exact modest_nil _
    · exact modest_nil _

theorem modest_reset (done : app.reset = .ok (after, actions)) : Modest 6 actions := by
  unfold reset at done
  dsimp only at done
  split at done
  · obtain ⟨⟨_, more⟩, updated, same⟩ := bind_ok done
    cases same
    obtain ⟨_, updated, _⟩ := broadcast_ok updated
    exact (modest_broadcast (by simp) updated).append modest_refreshes
  · cases done
    exact modest_nil _

theorem light_handleKey (widgets : Widgets) (target : WidgetId) (key : KeyEvent)
    (mode : InputMode) : load weight (widgets.handleKey target key mode).2 ≤ 9 := by
  cases target with
  | console =>
    simp only [Widgets.handleKey, ConsoleWidget.handleKey]
    split <;> simp [ConsoleWidget.send, weight]
  | primary =>
    simp only [Widgets.handleKey, primaryKey]
    split
    · simp
    · split <;> first | simp [weight] | (split <;> simp [weight])
  | secondary =>
    simp only [Widgets.handleKey, SecondaryWidget.handleKey]
    split
    · simp
    · split <;> first | simp [weight] | (split <;> simp [weight])
  | _ => exact Nat.zero_le _

/-- Every action puts less into the queue than it weighs. -/
theorem lightens_processAction : Lightens processAction weight where
  positive := weight_pos
  lighter app action after more done := by
    have quiet {most : Nat} (modest : Modest most more) (less : most < weight action) :
        load weight more < weight action := modest.light.trans_lt less
    cases action with
    | selectView view | toggleView => exact quiet (modest_selectView done) (by simp [weight])
    | toggleRun => exact quiet (asked_ok done ▸ modest_toggleRun _) (by decide)
    | stop => exact quiet (asked_ok done ▸ modest_stop _) (by decide)
    | reset => exact quiet (modest_reset done) (by decide)
    | widgetKey target key =>
      have light := light_handleKey app.widgets target key app.input.mode
      rw [← asked_ok done]
      exact Nat.lt_succ_of_le light
    | insertText target text =>
      obtain ⟨_, updated, _⟩ := target_ok done
      rw [Widgets.target_insertText] at updated
      split at updated
      · cases updated
        simp [weight]
      · cases updated
        simp [weight]
    | navigate target motion | goto target value | refresh target =>
      obtain ⟨_, updated, _⟩ := target_ok done
      exact quiet (modest_target (by simp) updated) (by simp [eventLoad, weight])
    | setUart port =>
      obtain ⟨⟨_, more⟩, updated, same⟩ := bind_ok done
      cases same
      obtain ⟨_, updated, _⟩ := broadcast_ok updated
      exact quiet (modest_broadcast (by simp) updated) (by simp [eventLoad, weight])
    | setPrimary subview | setSecondary subview =>
      obtain ⟨_, updated, _⟩ := broadcast_ok done
      exact quiet (modest_broadcast (by simp) updated) (by simp [eventLoad, weight])
    | _ =>
      rw [← asked_ok done]
      simp [weight]

/-- After which the queue is empty. -/
theorem processActions_ok (done : app.processActions actions = .ok after) :
    workOff processAction (load weight actions) app actions = .ok (after, []) := by
  unfold processActions at done
  cases worked : workOff processAction (load weight actions) app actions with
  | error panic =>
    rw [worked] at done
    cases done
  | ok result =>
    rw [worked] at done
    cases done
    rw [← lightens_processAction.done le_rfl worked]

/-- Processing the queue always ends, in whatever state the app is: after at most nineteen actions
for each that was in it, or in a panic. -/
theorem action_queue_ends (app : App) (actions : List Action) :
    ∃ count, count ≤ 19 * actions.length ∧
      Finishes processAction count app actions (app.processActions actions) := by
  have worked : ∃ count, count ≤ load weight actions ∧
      Finishes processAction count app actions (app.processActions actions) :=
    lightens_processAction.finishes le_rfl
  obtain ⟨count, few, finishes⟩ := worked
  exact ⟨count, few.trans (load_le weight_le actions), finishes⟩

end App

end Minemu.Terminal
