import Minemu.Library.Utf8
import Minemu.Terminal.Command

/-! The input router: what a key means in the current mode. The input bar displays what has been
typed, and that is what counts and commands are taken from. -/

namespace Minemu.Terminal

open Library Platform Minemu.Core Minemu.Runtime Minemu.Tui

/-- The terminal's events, as far as they reach the router. -/
inductive InputEvent where
  | key (key : KeyEvent)
  | paste (text : List Char)
  | other

structure InputRouter where
  mode : InputMode := .normal
  buffer : List Char := []
  motion : MotionDecoder := {}

/-- The bytes of a text. -/
def utf8 (text : List Char) : List U8 := (Utf8.encode text).map UInt8.toBitVec

/-- `search::ascii`. -/
def searchAscii (value : List Char) : Except String (List U8) :=
  if value = [] then .error "ASCII search pattern cannot be empty" else .ok (utf8 value)

namespace InputRouter

def setMode (router : InputRouter) (mode : InputMode) : InputRouter where
  mode
  buffer := []
  motion := router.motion.reset

def promptOf : InputMode → List Char
  | .normal => []
  | .insert => "-- INSERT -- ".toList
  | .command => [':']
  | .leader => "<space>".toList
  | .searchAscii => ['/']
  | .searchBytes => ['\\']
  | .goto => ['>']

def display (router : InputRouter) : List Char := promptOf router.mode ++ router.buffer

/-- The pane that a key focuses together with Control. -/
def focusKey : KeyCode → Option WidgetId
  | .char 'c' => some .console
  | .char 'e' => some .events
  | .char 'd' => some .dialog
  | .char 'p' => some .primary
  | .char 's' => some .secondary
  | _ => none

/-- What the motion decoder makes of a key. -/
def decode (router : InputRouter) (key : KeyEvent) (focused : WidgetId) :
    List Action × InputRouter :=
  let (motion, result) := router.motion.push key.code.motion
  match result with
  | .pending =>
    let buffer := match key.code with
      | .char character => router.buffer ++ [character]
      | _ => router.buffer
    ([], { router with motion, buffer })
  | .motion found => ([.navigate focused found], { router with motion, buffer := [] })
  | .unhandled => ([.widgetKey focused key], { router with motion, buffer := [] })

def normal (router : InputRouter) (key : KeyEvent) (focused : WidgetId) :
    List Action × InputRouter :=
  if key.control then ((focusKey key.code).toList.map .focus, router)
  else match key.code with
    | .char ':' => ([.setMode .command], router)
    | .char '?' => ([.showHelp], router)
    | .char ' ' => ([.setMode .leader], router)
    | .esc => ([], { router with motion := router.motion.reset, buffer := [] })
    | _ => router.decode key focused

def leader (key : KeyEvent) : List Action :=
  match key.code with
  | .char 'r' => [.selectView .runtime, .setMode .normal]
  | .char 'i' => [.selectView .inspect, .setMode .normal]
  | .char 's' => [.toggleRun, .setMode .normal]
  | .esc => [.setMode .normal]
  | _ => [.showMessage (.error "unknown leader command"), .setMode .normal]

/-- What a line means in a mode that takes one. -/
def submit (mode : InputMode) (input : List Char) (focused : WidgetId) :
    Except String (List Action) :=
  match mode with
  | .command => Command.parse input focused
  | .searchAscii =>
    (searchAscii input).map fun pattern => [.requestInspection focused (.searchMemory pattern)]
  | .searchBytes =>
    (Search.bytes input).map fun pattern => [.requestInspection focused (.searchMemory pattern)]
  | .goto => .ok [.goto focused input]
  | .normal | .insert | .leader => .ok [] -- lines are read in none of these

/-- The actions of a line that is entered; a line that is refused becomes a message. -/
def entered (mode : InputMode) (input : List Char) (focused : WidgetId) : List Action :=
  (match submit mode input focused with
    | .ok actions => actions
    | .error error => [.showMessage (.error error)]) ++ [.setMode .normal]

def textInput (router : InputRouter) (key : KeyEvent) (focused : WidgetId) :
    List Action × InputRouter :=
  match key.code with
  | .esc => ([.setMode .normal], router)
  | .backspace => ([], { router with buffer := router.buffer.dropLast })
  | .char character => ([], { router with buffer := router.buffer ++ [character] })
  | .enter => (entered router.mode router.buffer focused, { router with buffer := [] })
  | _ => ([], router)

def routeKey (router : InputRouter) (key : KeyEvent) (focused : WidgetId) :
    List Action × InputRouter :=
  match router.mode with
  | .normal => router.normal key focused
  | .insert =>
    (if key.code = .esc then [.setMode .normal] else [.widgetKey focused key], router)
  | .leader => (leader key, router)
  | .command | .searchAscii | .searchBytes | .goto => router.textInput key focused

def route (router : InputRouter) (event : InputEvent) (focused : WidgetId) :
    List Action × InputRouter :=
  match event with
  | .paste text => (if router.mode = .insert then [.insertText focused text] else [], router)
  | .key key => if key.press then router.routeKey key focused else ([], router)
  | .other => ([], router)

/-- What happens to the router: an event while some widget has the focus, or a change of mode. -/
inductive Step where
  | event (event : InputEvent) (focused : WidgetId)
  | setMode (mode : InputMode)

def step (router : InputRouter) : Step → InputRouter
  | .event event focused => (router.route event focused).2
  | .setMode mode => router.setMode mode

/-! ### What the bar displays is what a motion takes -/

/-- The number that the digits of a text spell, cut to the largest `usize`. -/
def typedCount (text : List Char) : Option Nat :=
  match text.filterMap Command.decimalDigit with
  | [] => none
  | digits => some (min (Nat.ofDigits 10 digits.reverse) (2 ^ 64 - 1))

/-- The key of a counted motion. -/
def countedKey : Tui.KeyCode → Option Tui.Counted
  | .char 'h' | .left => some .left
  | .char 'j' | .down => some .down
  | .char 'k' | .up => some .up
  | .char 'l' | .right => some .right
  | .char 'w' => some .nextItem
  | .char 'e' => some .endItem
  | _ => none

/-- The motion of a key after a text: the second of two g goes to the top, and the digits are the
count of a counted motion. -/
def motionAfter (text : List Char) : Tui.KeyCode → Option Motion
  | .char 'g' => if 'g' ∈ text then some .top else none
  | .char 'G' => some .bottom
  | code => (countedKey code).map fun kind => kind.motion ((typedCount text).getD 1)

/-- The decoder holds what the text says. -/
def Shows (motion : MotionDecoder) (text : List Char) : Prop :=
  motion = { count := typedCount text, pendingG := decide ('g' ∈ text) }

/-- In normal mode the bar displays what the decoder holds. -/
def Truthful (router : InputRouter) : Prop :=
  router.mode = .normal → Shows router.motion router.buffer

variable {router : InputRouter} {motion : MotionDecoder} {text : List Char}

theorem typedCount_getD_zero (text : List Char) : (typedCount text).getD 0 =
    min (Nat.ofDigits 10 (text.filterMap Command.decimalDigit).reverse) (2 ^ 64 - 1) := by
  rw [typedCount]
  split
  · rename_i none
    rw [none, List.reverse_nil, Nat.ofDigits_nil, Nat.zero_min, Option.getD_none]
  · rw [Option.getD_some]

theorem typedCount_isSome (text : List Char) :
    (typedCount text).isSome = !(text.filterMap Command.decimalDigit).isEmpty := by
  rw [typedCount]
  split
  · rename_i none
    rw [none]
    rfl
  · rename_i some
    rw [List.isEmpty_eq_false_iff.mpr some]
    rfl

/-- Other characters leave the count alone. -/
theorem typedCount_other {character : Char} (other : Command.decimalDigit character = none) :
    typedCount (text ++ [character]) = typedCount text := by
  have digits : (text ++ [character]).filterMap Command.decimalDigit =
      text.filterMap Command.decimalDigit := by
    rw [List.filterMap_append, List.filterMap_cons_none other, List.filterMap_nil, List.append_nil]
  rw [typedCount, typedCount, digits]

/-- One digit more. -/
theorem typedCount_digit {character : Char} {digit : Nat}
    (read : Command.decimalDigit character = some digit) :
    typedCount (text ++ [character]) =
      some (saturatingAdd 64 (saturatingMul 64 ((typedCount text).getD 0) 10) digit) := by
  have digits : (text ++ [character]).filterMap Command.decimalDigit =
      text.filterMap Command.decimalDigit ++ [digit] := by
    rw [List.filterMap_append, List.filterMap_cons_some read, List.filterMap_nil]
  have some : (typedCount (text ++ [character])).isSome := by
    rw [typedCount_isSome, digits]
    simp
  obtain ⟨count, typed⟩ := Option.isSome_iff_exists.mp some
  have value := typedCount_getD_zero (text ++ [character])
  rw [typed, Option.getD_some, digits, List.reverse_append, List.reverse_singleton,
    List.singleton_append, Nat.ofDigits_cons] at value
  rw [typed, typedCount_getD_zero, value, saturatingAdd, saturatingMul]
  congr 1
  omega

/-- The letters of the motions. -/
def motionLetters : List Char := ['g', 'G', 'h', 'j', 'k', 'l', 'w', 'e']

theorem motionAfter_other {character : Char} (other : character ∉ motionLetters) :
    motionAfter text (.char character) = none := by
  have apart {letter : Char} (same : Tui.KeyCode.char character = .char letter)
      (member : letter ∈ motionLetters) : False := by
    cases same
    exact other member
  rw [motionAfter.eq_def]
  split
  · rename_i same
    exact (apart same (by decide)).elim
  · rename_i same
    exact (apart same (by decide)).elim
  rw [countedKey.eq_def]
  split
  case h_11 => rfl
  all_goals
    rename_i same
    first | exact (apart same (by decide)).elim | cases same

theorem motionAfter_digit {character : Char} (digit : '0' ≤ character ∧ character ≤ '9') :
    motionAfter text (.char character) = none := by
  have apart : ∀ letter ∈ motionLetters, ¬('0' ≤ letter ∧ letter ≤ '9') := by
    simp [motionLetters]
  exact motionAfter_other fun member => apart character member digit

/-- A key is a character that the text goes on with, or it ends the text: with the motion that the
text gives it, if there is one. -/
theorem push_cases (shows : Shows motion text) (code : Tui.KeyCode) :
    (∃ character, code = .char character ∧ (motion.push code).2 = .pending ∧
      Shows (motion.push code).1 (text ++ [character]) ∧ motionAfter text code = none) ∨
    (motion.push code).1 = {} ∧
      ((∃ found, (motion.push code).2 = .motion found ∧ motionAfter text code = some found) ∨
        (motion.push code).2 = .unhandled ∧ motionAfter text code = none) := by
  have held : motion = { count := typedCount text, pendingG := decide ('g' ∈ text) } := shows
  subst held
  cases code with
  | left | down | up | right => exact .inr ⟨rfl, .inl ⟨_, rfl, rfl⟩⟩
  | other => exact .inr ⟨rfl, .inr ⟨rfl, rfl⟩⟩
  | char character =>
    rw [MotionDecoder.push]
    split
    · rename_i digit
      have wide : '0' ≤ character ∧ character ≤ '9' :=
        ⟨le_trans (by decide) digit.1, digit.2⟩
      have read : Command.decimalDigit character = some (character.toNat - '0'.toNat) :=
        if_pos wide
      have same : 'g' ∈ text ++ [character] ↔ 'g' ∈ text := by
        have other : 'g' ≠ character := by
          rintro rfl
          exact absurd wide (by decide)
        simp [other]
      refine .inl ⟨character, rfl, rfl, ?_, motionAfter_digit wide⟩
      rw [Shows, typedCount_digit read]
      simp only [same]
    split
    · rename_i zero
      obtain ⟨rfl, some⟩ := zero
      have same : 'g' ∈ text ++ ['0'] ↔ 'g' ∈ text := by simp
      refine .inl ⟨'0', rfl, rfl, ?_, motionAfter_digit (by decide)⟩
      have read : Command.decimalDigit '0' = Option.some 0 := by decide
      rw [Shows, typedCount_digit read]
      simp only [same, saturatingAdd, saturatingMul]
      congr 2
      omega
    rename_i digit zero
    split
    · rename_i again
      subst again
      have other : Command.decimalDigit 'g' = none := by decide
      split
      · rename_i before
        have before : 'g' ∈ text := of_decide_eq_true before
        exact .inr ⟨rfl, .inl ⟨_, rfl, if_pos before⟩⟩
      · rename_i first
        have first : 'g' ∉ text := fun before => first (decide_eq_true before)
        refine .inl ⟨'g', rfl, rfl, ?_, if_neg first⟩
        rw [Shows, typedCount_other other]
        simp
    rename_i top
    split
    · rename_i bottom
      subst bottom
      exact .inr ⟨rfl, .inl ⟨_, rfl, rfl⟩⟩
    rename_i bottom
    refine .inr ?_
    dsimp only [MotionDecoder.takeCount]
    split
    case h_7 =>
      refine ⟨rfl, .inr ⟨rfl, motionAfter_other ?_⟩⟩
      simp only [motionLetters, List.mem_cons, List.not_mem_nil, or_false, not_or]
      exact ⟨top, bottom, ‹_›, ‹_›, ‹_›, ‹_›, ‹_›, ‹_›⟩
    all_goals exact ⟨rfl, .inl ⟨_, rfl, rfl⟩⟩

theorem motion_eq_char {code : KeyCode} {character : Char}
    (same : code.motion = .char character) : code = .char character := by
  cases code <;> cases same
  rfl

/-- What a key does that the decoder gets. -/
theorem decode_cases (shows : Shows router.motion router.buffer) (key : KeyEvent)
    (focused : WidgetId) :
    Shows (router.decode key focused).2.motion (router.decode key focused).2.buffer ∧
      ∀ target found, .navigate target found ∈ (router.decode key focused).1 ↔
        target = focused ∧ motionAfter router.buffer key.code.motion = some found := by
  have cleared : Shows {} [] := rfl
  unfold decode
  rcases push_cases shows key.code.motion with
    ⟨character, typed, pending, more, none⟩ | ⟨done, ⟨found, moves, some⟩ | ⟨unhandled, none⟩⟩
  · rw [motion_eq_char typed] at more pending ⊢
    simp only [pending]
    refine ⟨more, fun target found => ?_⟩
    rw [motion_eq_char typed] at none
    rw [none]
    exact ⟨fun member => (by cases member), fun both => (by cases both.2)⟩
  · simp only [moves, done]
    refine ⟨cleared, fun target other => ?_⟩
    rw [some, List.mem_singleton, Action.navigate.injEq, Option.some_inj, eq_comm (a := found)]
  · simp only [unhandled, done]
    refine ⟨cleared, fun target found => ?_⟩
    rw [none]
    exact ⟨fun member => (by cases List.mem_singleton.mp member), fun both => (by cases both.2)⟩

theorem normal_cases (shows : Shows router.motion router.buffer) (key : KeyEvent)
    (focused : WidgetId) :
    Shows (router.normal key focused).2.motion (router.normal key focused).2.buffer ∧
      ∀ target found, .navigate target found ∈ (router.normal key focused).1 ↔
        target = focused ∧ key.control = false ∧
          motionAfter router.buffer key.code.motion = some found := by
  have still {actions : List Action} (only : ∀ target found, .navigate target found ∉ actions)
      (none : key.control = true ∨ motionAfter router.buffer key.code.motion = none)
      (target : WidgetId) (found : Motion) : .navigate target found ∈ actions ↔
        target = focused ∧ key.control = false ∧
          motionAfter router.buffer key.code.motion = some found := by
    refine iff_of_false (only target found) fun ⟨_, plain, moves⟩ => ?_
    rcases none with control | none
    · exact absurd plain (ne_false_of_eq_true control)
    · cases none.symm.trans moves
  unfold normal
  split
  · rename_i control
    refine ⟨shows, still (fun target found member => ?_) (.inl control)⟩
    obtain ⟨_, _, same⟩ := List.mem_map.mp member
    cases same
  rename_i plain
  have plain : key.control = false := Bool.eq_false_of_not_eq_true plain
  split
  case h_4 typed =>
    refine ⟨rfl, still (fun _ _ => List.not_mem_nil) (.inr ?_)⟩
    rw [typed]
    rfl
  case h_5 =>
    obtain ⟨more, moves⟩ := decode_cases shows key focused
    refine ⟨more, fun target found => (moves target found).trans ?_⟩
    rw [plain, eq_self_iff_true, true_and]
  all_goals
    rename_i typed
    refine ⟨shows, still (fun target found member => ?_) (.inr ?_)⟩
    · cases List.mem_singleton.mp member
    · rw [typed]
      exact motionAfter_other (by decide)

theorem mode_normal (key : KeyEvent) (focused : WidgetId) :
    (router.normal key focused).2.mode = router.mode := by
  unfold normal
  split
  · rfl
  split
  case h_5 =>
    unfold decode
    split
    split <;> rfl
  all_goals rfl

theorem mode_textInput (key : KeyEvent) (focused : WidgetId) :
    (router.textInput key focused).2.mode = router.mode := by
  unfold textInput
  cases key.code <;> rfl

/-- Events leave the mode to the app. -/
theorem mode_routeKey (key : KeyEvent) (focused : WidgetId) :
    (router.routeKey key focused).2.mode = router.mode := by
  unfold routeKey
  split
  · exact mode_normal key focused
  · rfl
  · rfl
  all_goals exact mode_textInput key focused

theorem truthful_step (truthful : Truthful router) (step : Step) :
    Truthful (router.step step) := by
  cases step with
  | setMode mode =>
    intro _
    exact rfl
  | event event focused =>
    cases event with
    | paste text => exact truthful
    | other => exact truthful
    | key key =>
      by_cases pressed : key.press = true
      · have stepped : router.step (.event (.key key) focused) =
            (router.routeKey key focused).2 := congrArg Prod.snd (if_pos pressed)
        rw [stepped]
        intro normal
        rw [mode_routeKey] at normal
        have routed : router.routeKey key focused = router.normal key focused := by
          rw [routeKey, normal]
        rw [routed]
        exact (normal_cases (truthful normal) key focused).1
      · have stepped : router.step (.event (.key key) focused) = router :=
          congrArg Prod.snd (if_neg pressed)
        rw [stepped]
        exact truthful

theorem truthful_run (steps : List Step) : Truthful (run step {} steps) := by
  have preserved (router : InputRouter) (step : Step) (_ : True) (truthful : Truthful router) :
      Truthful (router.step step) := truthful_step truthful step
  exact run_invariant preserved {} steps (fun _ => rfl) fun _ _ => trivial

/-- No line moves a cursor. -/
theorem navigate_not_mem_entered {mode : InputMode} {input : List Char} {focused target : WidgetId}
    {found : Motion} : .navigate target found ∉ entered mode input focused := by
  intro member
  rcases List.mem_append.mp member with asked | closing
  · split at asked
    · rename_i actions done
      cases mode with
      | normal | insert | leader | goto =>
        cases done
        simp at asked
      | command =>
        rcases Command.parse_eq_ok.mp done with ⟨_, rfl⟩ | ⟨_, command, _, _, rfl⟩
        · cases asked
        · cases command <;> cases List.mem_singleton.mp asked
      | searchAscii =>
        rw [submit] at done
        cases read : searchAscii input with
        | error error => rw [read] at done; cases done
        | ok pattern =>
          rw [read] at done
          cases done
          cases List.mem_singleton.mp asked
      | searchBytes =>
        rw [submit] at done
        cases read : Search.bytes input with
        | error error => rw [read] at done; cases done
        | ok pattern =>
          rw [read] at done
          cases done
          cases List.mem_singleton.mp asked
    · cases List.mem_singleton.mp asked
  · cases List.mem_singleton.mp closing

theorem navigate_not_mem_textInput {key : KeyEvent} {focused target : WidgetId} {found : Motion} :
    .navigate target found ∉ (router.textInput key focused).1 := by
  unfold textInput
  cases key.code with
  | enter => exact navigate_not_mem_entered
  | esc => exact fun member => (by cases List.mem_singleton.mp member)
  | _ => exact List.not_mem_nil

theorem navigate_not_mem_leader {key : KeyEvent} {target : WidgetId} {found : Motion} :
    .navigate target found ∉ leader key := by
  unfold leader
  split <;> simp

/-- In every run the cursor moves exactly as the bar displays: in normal mode the decoder holds what
is shown, a key asks for a motion in that mode only, for the pane with the focus, and the motion and
its count are those that the text on the bar says. -/
theorem navigates_as_displayed (steps : List Step) (event : InputEvent)
    (focused target : WidgetId) (found : Motion) :
    (run step {} steps).Truthful ∧
      (.navigate target found ∈ ((run step {} steps).route event focused).1 ↔
        target = focused ∧ (run step {} steps).mode = .normal ∧
          ∃ key, event = .key key ∧ key.press = true ∧ key.control = false ∧
            motionAfter (run step {} steps).display key.code.motion = some found) := by
  have truthful := truthful_run steps
  refine ⟨truthful, ?_⟩
  generalize run step {} steps = router at truthful
  have never {event : InputEvent} (only : .navigate target found ∉ (router.route event focused).1)
      (other : router.mode = .normal → ∀ key, event = .key key → key.press = false) :
      .navigate target found ∈ (router.route event focused).1 ↔
        target = focused ∧ router.mode = .normal ∧
          ∃ key, event = .key key ∧ key.press = true ∧ key.control = false ∧
            motionAfter router.display key.code.motion = some found := by
    refine iff_of_false only ?_
    rintro ⟨_, normal, key, same, pressed, _⟩
    exact absurd (other normal key same) (ne_false_of_eq_true pressed)
  cases event with
  | paste text =>
    refine never (fun member => ?_) fun _ key same => (by cases same)
    rw [route] at member
    split at member <;> cases member
    rename_i later
    cases later
  | other => exact never List.not_mem_nil fun _ key same => (by cases same)
  | key key =>
    by_cases pressed : key.press = true
    · have routed : router.route (.key key) focused = router.routeKey key focused := if_pos pressed
      by_cases normal : router.mode = .normal
      · have shown : router.display = router.buffer := by
          rw [display, normal]
          rfl
        rw [routed, shown, routeKey, normal]
        have moves := (normal_cases (truthful normal) key focused).2 target found
        rw [moves]
        constructor
        · intro ⟨same, plain, after⟩
          exact ⟨same, rfl, key, rfl, pressed, plain, after⟩
        · rintro ⟨same, -, other, keyed, -, plain, after⟩
          cases keyed
          exact ⟨same, plain, after⟩
      · refine never (fun member => ?_) fun here => absurd here normal
        rw [routed, routeKey] at member
        split at member
        · contradiction
        · dsimp only at member
          split at member <;> cases List.mem_singleton.mp member
        · exact navigate_not_mem_leader member
        all_goals exact navigate_not_mem_textInput member
    · refine never (fun member => ?_) fun _ _ same => ?_
      · rw [route, if_neg pressed] at member
        cases member
      · cases same
        exact Bool.eq_false_of_not_eq_true pressed

end InputRouter

end Minemu.Terminal
