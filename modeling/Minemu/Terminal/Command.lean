import Minemu.Terminal.Action

/-! The command language of the input bar: the parser, and the grammar that the manual's table of
commands gives. -/

namespace Minemu.Terminal

open Library Platform Minemu.Core Minemu.Runtime Minemu.Tui

namespace Command

def decimalDigit (digit : Char) : Option Nat :=
  if '0' ≤ digit ∧ digit ≤ '9' then some (digit.toNat - '0'.toNat) else none

/-- `str::parse::<u64>`, which takes a leading plus sign. -/
def parseU64 (text : List Char) : Option Nat :=
  let digits := if text.head? = some '+' then text.tail else text
  if digits = [] then none else digits.foldlM (pushDigit 10 (2 ^ 64) decimalDigit) 0

def parseInstructionLimit : Option (List Char) → Except String (Option ℕ+)
  | none => .ok none
  | some value =>
    match parseU64 value with
    | some (count + 1) => .ok (some ⟨count + 1, count.succ_pos⟩)
    | _ => .error "instruction count must be a positive decimal integer"

/-- `parse_hex_address` with its message. -/
def hexAddress (value : List Char) : Except String U32 :=
  match parseHexAddress value with
  | some address => .ok address
  | none => .error "address must be hexadecimal"

def parseSet (key value : Option (List Char)) : Except String (List Action) :=
  match key.map String.ofList, value.map String.ofList with
  | some "uart", some "0" => .ok [.setUart .uart0]
  | some "uart", some "1" => .ok [.setUart .uart1]
  | some "primary", some "pmem" | some "primary", some "physical" | some "primary", some "mem"
  | some "primary", some "memory" => .ok [.setPrimary .physicalMemory]
  | some "primary", some "vmem" | some "primary", some "virtual" =>
    .ok [.setPrimary .virtualMemory]
  | some "primary", some "disasm" | some "primary", some "disassembly" =>
    .ok [.setPrimary .disassembly]
  | some "secondary", some "reg" | some "secondary", some "registers" =>
    .ok [.setSecondary .registers]
  | some "secondary", some "sys" | some "secondary", some "system" => .ok [.setSecondary .system]
  | some "secondary", some "peri" | some "secondary", some "peripherals" =>
    .ok [.setSecondary .peripherals]
  | some "secondary", some "pend" | some "secondary", some "pending" =>
    .ok [.setSecondary .pending]
  | _, _ => .error "usage: :set uart|primary|secondary <value>"

def selectView : Option (List Char) → Except String (List Action)
  | none => .ok [.toggleView]
  | some value =>
    match String.ofList value with
    | "r" | "runtime" => .ok [.selectView .runtime]
    | "i" | "inspect" => .ok [.selectView .inspect]
    | value => .error ("unknown view: " ++ value)

/-- The actions of a command, and the words it leaves. -/
def actions (name : List Char) (words : List (List Char)) (target : WidgetId) :
    Except String (List Action × List (List Char)) :=
  match String.ofList name with
  | "q" | "quit" => .ok ([.quit], words)
  | "?" | "help" => .ok ([.showHelp], words)
  | "start" => do return ([.start (← parseInstructionLimit words.head?)], words.tail)
  | "stop" => .ok ([.stop], words)
  | "s" =>
    match words with
    | [] => .ok ([.toggleRun], [])
    | value :: words => do return ([.start (← parseInstructionLimit (some value))], words)
  | "reset" => .ok ([.reset], words)
  | "v" | "view" => do return (← selectView words.head?, words.tail)
  | "set" => do return (← parseSet words.head? words.tail.head?, words.tail.tail)
  | "g" | "goto" =>
    match words with
    | [] => .error "usage: :goto <location>"
    | value :: words => .ok ([.goto target value], words)
  | "translate" | "xlate" =>
    match words with
    | [] => .error "usage: :translate <virtual-address>"
    | value :: words => do
      return ([.requestInspection .dialog (.translate ⟨← hexAddress value⟩)], words)
  | value => .error ("unknown command: " ++ value)

def parse (command : List Char) (target : WidgetId) : Except String (List Action) :=
  match splitWhitespace command with
  | [] => .ok []
  | name :: words => do
    let (actions, words) ← actions name words target
    if words ≠ [] then throw "too many command arguments" else return actions

end Command

/-! ### The grammar -/

/-- The commands of the manual. -/
inductive BarCommand where
  | quit
  | help
  | start (limit : Option ℕ+)
  | toggleRun
  | stop
  | reset
  | toggleView
  | view (view : View)
  | uart (port : UartPort)
  | primary (subview : PrimarySubview)
  | secondary (subview : SecondarySubview)
  | translate (address : U32)
  | goto (location : List Char)
deriving DecidableEq

namespace BarCommand

/-- What a command asks of the app while a widget has the focus. -/
def action (target : WidgetId) : BarCommand → Action
  | quit => .quit
  | help => .showHelp
  | start limit => .start limit
  | toggleRun => .toggleRun
  | stop => .stop
  | reset => .reset
  | toggleView => .toggleView
  | view selected => .selectView selected
  | uart port => .setUart port
  | primary subview => .setPrimary subview
  | secondary subview => .setSecondary subview
  | translate address => .requestInspection .dialog (.translate ⟨address⟩)
  | goto location => .goto target location

end BarCommand

def viewNames : View → List String
  | .runtime => ["r", "runtime"]
  | .inspect => ["i", "inspect"]

def portName : UartPort → String
  | .uart0 => "0"
  | .uart1 => "1"

def primaryNames : PrimarySubview → List String
  | .physicalMemory => ["pmem", "physical", "mem", "memory"]
  | .virtualMemory => ["vmem", "virtual"]
  | .disassembly => ["disasm", "disassembly"]

def secondaryNames : SecondarySubview → List String
  | .registers => ["reg", "registers"]
  | .system => ["sys", "system"]
  | .peripherals => ["peri", "peripherals"]
  | .pending => ["pend", "pending"]

/-- Decimal digits after an optional plus sign, and their value. -/
def CountWord (word : List Char) (count : Nat) : Prop :=
  ((word ≠ [] ∧ Spells 10 Command.decimalDigit word count) ∨
    ∃ digits, word = '+' :: digits ∧ digits ≠ [] ∧ Spells 10 Command.decimalDigit digits count) ∧
    count < 2 ^ 64

/-- The word is one of the names. -/
def Named (word : List Char) (names : List String) : Prop := String.ofList word ∈ names

/-- The words of a command. -/
inductive Phrase : List (List Char) → BarCommand → Prop
  | quit {name : List Char} (named : Named name ["q", "quit"]) : Phrase [name] .quit
  | help {name : List Char} (named : Named name ["?", "help"]) : Phrase [name] .help
  | start {name : List Char} (named : Named name ["start"]) : Phrase [name] (.start none)
  | startCount {name value : List Char} {limit : ℕ+} (named : Named name ["start", "s"])
      (count : CountWord value limit) : Phrase [name, value] (.start (some limit))
  | toggleRun {name : List Char} (named : Named name ["s"]) : Phrase [name] .toggleRun
  | stop {name : List Char} (named : Named name ["stop"]) : Phrase [name] .stop
  | reset {name : List Char} (named : Named name ["reset"]) : Phrase [name] .reset
  | toggleView {name : List Char} (named : Named name ["v", "view"]) : Phrase [name] .toggleView
  | view {name value : List Char} {view : View} (named : Named name ["v", "view"])
      (choice : Named value (viewNames view)) : Phrase [name, value] (.view view)
  | uart {name key value : List Char} {port : UartPort} (named : Named name ["set"])
      (keyed : Named key ["uart"]) (choice : Named value [portName port]) :
      Phrase [name, key, value] (.uart port)
  | primary {name key value : List Char} {subview : PrimarySubview} (named : Named name ["set"])
      (keyed : Named key ["primary"]) (choice : Named value (primaryNames subview)) :
      Phrase [name, key, value] (.primary subview)
  | secondary {name key value : List Char} {subview : SecondarySubview}
      (named : Named name ["set"]) (keyed : Named key ["secondary"])
      (choice : Named value (secondaryNames subview)) :
      Phrase [name, key, value] (.secondary subview)
  | translate {name value : List Char} {address : U32} (named : Named name ["translate", "xlate"])
      (located : HexAddress value address ∨ SignedAddress value address) :
      Phrase [name, value] (.translate address)
  | goto {name location : List Char} (named : Named name ["g", "goto"]) :
      Phrase [name, location] (.goto location)

/-! ### What the parser takes -/

section Parser

variable {name key value : List Char} {words : List (List Char)} {target : WidgetId}

theorem Named.of_eq {word : List Char} {spelled : String} {names : List String}
    (same : String.ofList word = spelled) (member : spelled ∈ names) : Named word names := by
  rwa [Named, same]

theorem Named.of_some {word : List Char} {spelled : String} {names : List String}
    (same : some (String.ofList word) = some spelled) (member : spelled ∈ names) :
    Named word names := .of_eq (Option.some.inj same) member

theorem Named.self {spelled : String} {names : List String} (member : spelled ∈ names) :
    Named spelled.toList names := .of_eq String.ofList_toList member

theorem Named.single {word : List Char} {spelled : String} (named : Named word [spelled]) :
    String.ofList word = spelled := List.mem_singleton.mp named

theorem Named.pair {word : List Char} {first second : String}
    (named : Named word [first, second]) :
    String.ofList word = first ∨ String.ofList word = second := by
  simpa only [Named, List.mem_cons, List.not_mem_nil, or_false] using named

namespace Command

theorem parseU64_eq_some {count : Nat} : parseU64 value = some count ↔ CountWord value count := by
  have read (digits : List Char) :
      digits.foldlM (pushDigit 10 (2 ^ 64) decimalDigit) 0 = some count ↔
        Spells 10 decimalDigit digits count ∧ count < 2 ^ 64 :=
    foldlM_pushDigit_zero (by decide) (by decide)
  have unsigned {digits : List Char} (spells : Spells 10 decimalDigit digits count) :
      digits.head? ≠ some '+' := by
    intro head
    have digit := spells.digits (List.mem_of_mem_head? head)
    have none : decimalDigit '+' = none := by decide
    rw [none] at digit
    cases digit
  unfold parseU64 CountWord
  by_cases signed : value.head? = some '+'
  · obtain ⟨digits, rfl⟩ := List.head?_eq_some_iff.mp signed
    simp only [signed, if_true, List.tail_cons]
    constructor
    · intro found
      split at found
      · cases found
      · obtain ⟨spells, small⟩ := (read digits).mp found
        exact ⟨.inr ⟨digits, rfl, ‹_›, spells⟩, small⟩
    · rintro ⟨⟨-, spells⟩ | ⟨others, same, nonempty, spells⟩, small⟩
      · exact absurd signed (unsigned spells)
      · cases same
        rw [if_neg nonempty]
        exact (read _).mpr ⟨spells, small⟩
  · simp only [signed, if_false]
    constructor
    · intro found
      split at found
      · cases found
      · obtain ⟨spells, small⟩ := (read value).mp found
        exact ⟨.inl ⟨‹_›, spells⟩, small⟩
    · rintro ⟨⟨nonempty, spells⟩ | ⟨digits, rfl, -⟩, small⟩
      · rw [if_neg nonempty]
        exact (read value).mpr ⟨spells, small⟩
      · exact absurd rfl signed

theorem parseInstructionLimit_eq_ok {limit : Option ℕ+} :
    parseInstructionLimit (some value) = .ok limit ↔
      ∃ count : ℕ+, limit = some count ∧ CountWord value count := by
  unfold parseInstructionLimit
  simp only [← parseU64_eq_some]
  constructor
  · intro done
    split at done
    · rename_i count parsed
      cases done
      exact ⟨⟨count + 1, count.succ_pos⟩, rfl, parsed⟩
    · cases done
  · rintro ⟨⟨count, positive⟩, rfl, parsed⟩
    obtain ⟨count, rfl⟩ := Nat.exists_eq_succ_of_ne_zero positive.ne'
    rw [PNat.mk_coe] at parsed
    simp only [parsed]

theorem hexAddress_eq_ok {address : U32} : hexAddress value = .ok address ↔
    HexAddress value address ∨ SignedAddress value address := by
  rw [← parseHexAddress_eq_some, hexAddress]
  cases parseHexAddress value with
  | none => simp
  | some found => simp

theorem selectView_eq_ok {actions : List Action} : selectView (some value) = .ok actions ↔
    ∃ view, Named value (viewNames view) ∧ actions = [.selectView view] := by
  simp only [selectView]
  constructor
  · intro done
    split at done
    case h_1 same | h_2 same =>
      exact ⟨.runtime, .of_eq same (by decide), (Except.ok.inj done).symm⟩
    case h_3 same | h_4 same =>
      exact ⟨.inspect, .of_eq same (by decide), (Except.ok.inj done).symm⟩
    case h_5 => cases done
  · rintro ⟨view, named, rfl⟩
    cases view <;> rcases named.pair with same | same <;> simp only [same]

theorem parseSet_eq_ok {actions : List Action} (target : WidgetId) (named : Named name ["set"]) :
    parseSet (some key) (some value) = .ok actions ↔
      ∃ command, Phrase [name, key, value] command ∧ actions = [command.action target] := by
  simp only [parseSet, Option.map_some]
  constructor
  · intro done
    split at done
    case h_1 keyed choice =>
      exact ⟨.uart .uart0, .uart named (.of_some keyed (by decide)) (.of_some choice (by decide)),
        (Except.ok.inj done).symm⟩
    case h_2 keyed choice =>
      exact ⟨.uart .uart1, .uart named (.of_some keyed (by decide)) (.of_some choice (by decide)),
        (Except.ok.inj done).symm⟩
    case h_3 keyed choice | h_4 keyed choice | h_5 keyed choice | h_6 keyed choice =>
      exact ⟨.primary .physicalMemory,
        .primary named (.of_some keyed (by decide)) (.of_some choice (by decide)),
        (Except.ok.inj done).symm⟩
    case h_7 keyed choice | h_8 keyed choice =>
      exact ⟨.primary .virtualMemory,
        .primary named (.of_some keyed (by decide)) (.of_some choice (by decide)),
        (Except.ok.inj done).symm⟩
    case h_9 keyed choice | h_10 keyed choice =>
      exact ⟨.primary .disassembly,
        .primary named (.of_some keyed (by decide)) (.of_some choice (by decide)),
        (Except.ok.inj done).symm⟩
    case h_11 keyed choice | h_12 keyed choice =>
      exact ⟨.secondary .registers,
        .secondary named (.of_some keyed (by decide)) (.of_some choice (by decide)),
        (Except.ok.inj done).symm⟩
    case h_13 keyed choice | h_14 keyed choice =>
      exact ⟨.secondary .system,
        .secondary named (.of_some keyed (by decide)) (.of_some choice (by decide)),
        (Except.ok.inj done).symm⟩
    case h_15 keyed choice | h_16 keyed choice =>
      exact ⟨.secondary .peripherals,
        .secondary named (.of_some keyed (by decide)) (.of_some choice (by decide)),
        (Except.ok.inj done).symm⟩
    case h_17 keyed choice | h_18 keyed choice =>
      exact ⟨.secondary .pending,
        .secondary named (.of_some keyed (by decide)) (.of_some choice (by decide)),
        (Except.ok.inj done).symm⟩
    case h_19 => cases done
  · rintro ⟨command, phrase, rfl⟩
    cases phrase with
    | uart sets keyed choice =>
      rename_i port
      cases port <;> simp only [keyed.single, choice.single, portName, BarCommand.action]
    | primary sets keyed choice =>
      rename_i subview
      cases subview with
      | physicalMemory =>
        simp only [Named, primaryNames, List.mem_cons, List.not_mem_nil, or_false] at choice
        rcases choice with same | same | same | same <;>
          simp only [keyed.single, same, BarCommand.action]
      | virtualMemory =>
        rcases choice.pair with same | same <;> simp only [keyed.single, same, BarCommand.action]
      | disassembly =>
        rcases choice.pair with same | same <;> simp only [keyed.single, same, BarCommand.action]
    | secondary sets keyed choice =>
      rename_i subview
      cases subview <;> rcases choice.pair with same | same <;>
        simp only [keyed.single, same, BarCommand.action]

theorem parseSet_none (key : Option (List Char)) :
    parseSet key none = .error "usage: :set uart|primary|secondary <value>" := by
  unfold parseSet
  split <;> first | rfl | simp_all

/-- A command is taken whole when its name and words are those of the manual. -/
theorem actions_eq_ok {taken : List Action} : actions name words target = .ok (taken, []) ↔
    ∃ command, Phrase (name :: words) command ∧ taken = [command.action target] := by
  constructor
  · intro done
    unfold actions at done
    split at done
    case h_1 same | h_2 same =>
      cases done
      exact ⟨.quit, .quit (.of_eq same (by decide)), rfl⟩
    case h_3 same | h_4 same =>
      cases done
      exact ⟨.help, .help (.of_eq same (by decide)), rfl⟩
    case h_5 same =>
      obtain ⟨limit, limited, done⟩ := bind_eq_ok.mp done
      cases words with
      | nil =>
        cases limited
        cases done
        exact ⟨.start none, .start (.of_eq same (by decide)), rfl⟩
      | cons value rest =>
        obtain ⟨count, rfl, counted⟩ := parseInstructionLimit_eq_ok.mp limited
        cases done
        exact ⟨.start (some count), .startCount (.of_eq same (by decide)) counted, rfl⟩
    case h_6 same =>
      cases done
      exact ⟨.stop, .stop (.of_eq same (by decide)), rfl⟩
    case h_7 same =>
      cases words with
      | nil =>
        cases done
        exact ⟨.toggleRun, .toggleRun (.of_eq same (by decide)), rfl⟩
      | cons value rest =>
        obtain ⟨limit, limited, done⟩ := bind_eq_ok.mp done
        obtain ⟨count, rfl, counted⟩ := parseInstructionLimit_eq_ok.mp limited
        cases done
        exact ⟨.start (some count), .startCount (.of_eq same (by decide)) counted, rfl⟩
    case h_8 same =>
      cases done
      exact ⟨.reset, .reset (.of_eq same (by decide)), rfl⟩
    case h_9 same | h_10 same =>
      obtain ⟨selected, chosen, done⟩ := bind_eq_ok.mp done
      cases words with
      | nil =>
        cases chosen
        cases done
        exact ⟨.toggleView, .toggleView (.of_eq same (by decide)), rfl⟩
      | cons value rest =>
        obtain ⟨view, choice, rfl⟩ := selectView_eq_ok.mp chosen
        cases done
        exact ⟨.view view, .view (.of_eq same (by decide)) choice, rfl⟩
    case h_11 same =>
      obtain ⟨selected, chosen, done⟩ := bind_eq_ok.mp done
      cases words with
      | nil => cases chosen.symm.trans (parseSet_none none)
      | cons key rest =>
        cases rest with
        | nil => cases chosen.symm.trans (parseSet_none (some key))
        | cons value rest =>
          cases done
          exact (parseSet_eq_ok target (.of_eq same (by decide))).mp chosen
    case h_12 same | h_13 same =>
      cases words with
      | nil => cases done
      | cons value rest =>
        cases done
        exact ⟨.goto value, .goto (.of_eq same (by decide)), rfl⟩
    case h_14 same | h_15 same =>
      cases words with
      | nil => cases done
      | cons value rest =>
        obtain ⟨address, located, done⟩ := bind_eq_ok.mp done
        cases done
        exact ⟨.translate address, .translate (.of_eq same (by decide))
          (hexAddress_eq_ok.mp located), rfl⟩
    case h_16 => cases done
  · rintro ⟨command, phrase, rfl⟩
    cases phrase with
    | quit named =>
      rcases named.pair with same | same <;> simp only [actions, same, BarCommand.action]
    | help named =>
      rcases named.pair with same | same <;> simp only [actions, same, BarCommand.action]
    | start named =>
      simp only [actions, named.single]
      rfl
    | startCount named counted =>
      have limited := parseInstructionLimit_eq_ok.mpr ⟨_, rfl, counted⟩
      rcases named.pair with same | same
      · simp only [actions, same, List.head?_cons, limited]
        rfl
      · simp only [actions, same, limited]
        rfl
    | toggleRun named => simp only [actions, named.single, BarCommand.action]
    | stop named => simp only [actions, named.single, BarCommand.action]
    | reset named => simp only [actions, named.single, BarCommand.action]
    | toggleView named =>
      rcases named.pair with same | same <;> simp only [actions, same] <;> rfl
    | view named choice =>
      have chosen := selectView_eq_ok.mpr ⟨_, choice, rfl⟩
      rcases named.pair with same | same
      all_goals
        simp only [actions, same, List.head?_cons, chosen]
        rfl
    | uart named keyed choice =>
      have chosen := (parseSet_eq_ok target named).mpr ⟨_, .uart named keyed choice, rfl⟩
      simp only [actions, named.single, List.head?_cons, List.tail_cons, chosen]
      rfl
    | primary named keyed choice =>
      have chosen := (parseSet_eq_ok target named).mpr
        ⟨_, .primary named keyed choice, rfl⟩
      simp only [actions, named.single, List.head?_cons, List.tail_cons, chosen]
      rfl
    | secondary named keyed choice =>
      have chosen := (parseSet_eq_ok target named).mpr
        ⟨_, .secondary named keyed choice, rfl⟩
      simp only [actions, named.single, List.head?_cons, List.tail_cons, chosen]
      rfl
    | translate named located =>
      have found := hexAddress_eq_ok.mpr located
      rcases named.pair with same | same
      all_goals
        simp only [actions, same, found]
        rfl
    | goto named =>
      rcases named.pair with same | same <;> simp only [actions, same, BarCommand.action]

/-- What the parser takes, by the words of the text. -/
theorem parse_eq_ok {text : List Char} {taken : List Action} : parse text target = .ok taken ↔
      (Separated isWhitespace text [] ∧ taken = []) ∨
        ∃ words command, Separated isWhitespace text words ∧ Phrase words command ∧
          taken = [command.action target] := by
  have separated : Separated isWhitespace text (splitWhitespace text) := separated_splitWords text
  unfold parse
  cases split : splitWhitespace text with
  | nil =>
    rw [split] at separated
    constructor
    · intro done
      cases done
      exact .inl ⟨separated, rfl⟩
    · rintro (⟨-, rfl⟩ | ⟨words, command, others, phrase, -⟩)
      · rfl
      · have empty : words = [] := others.split.symm.trans split
        subst empty
        cases phrase
  | cons name words =>
    rw [split] at separated
    constructor
    · intro done
      obtain ⟨⟨found, rest⟩, known, done⟩ := bind_eq_ok.mp done
      simp only at done
      split at done
      · cases done
      · rename_i finished
        cases done
        rw [not_not.mp finished] at known
        obtain ⟨command, phrase, rfl⟩ := actions_eq_ok.mp known
        exact .inr ⟨_, command, separated, phrase, rfl⟩
    · rintro (⟨none, -⟩ | ⟨others, command, spelled, phrase, rfl⟩)
      · cases none.split.symm.trans split
      · have same : others = name :: words := spelled.split.symm.trans split
        subst same
        have known : actions name words target = .ok ([command.action target], []) :=
          actions_eq_ok.mpr ⟨command, phrase, rfl⟩
        exact bind_eq_ok.mpr ⟨_, known, if_neg (not_not.mpr rfl)⟩

end Command

end Parser

/-! ### Typing a command -/

namespace BarCommand

/-- A command in words, by the first of its names. -/
def words : BarCommand → List (List Char)
  | quit => ["q".toList]
  | help => ["help".toList]
  | start none => ["start".toList]
  | start (some limit) => ["start".toList, Nat.toDigits 10 limit]
  | toggleRun => ["s".toList]
  | stop => ["stop".toList]
  | reset => ["reset".toList]
  | toggleView => ["v".toList]
  | view .runtime => ["view".toList, "r".toList]
  | view .inspect => ["view".toList, "i".toList]
  | uart port => ["set".toList, "uart".toList, (portName port).toList]
  | primary .physicalMemory => ["set".toList, "primary".toList, "pmem".toList]
  | primary .virtualMemory => ["set".toList, "primary".toList, "vmem".toList]
  | primary .disassembly => ["set".toList, "primary".toList, "disasm".toList]
  | secondary .registers => ["set".toList, "secondary".toList, "reg".toList]
  | secondary .system => ["set".toList, "secondary".toList, "sys".toList]
  | secondary .peripherals => ["set".toList, "secondary".toList, "peri".toList]
  | secondary .pending => ["set".toList, "secondary".toList, "pend".toList]
  | translate address => ["translate".toList, '0' :: 'x' :: Nat.toDigits 16 address.toNat]
  | goto location => ["goto".toList, location]

def print (command : BarCommand) : List Char := [' '].intercalate command.words

/-- A count has to fit in a `u64`, and a location has to be one word. -/
def Typable : BarCommand → Prop
  | start (some limit) => (limit : Nat) < 2 ^ 64
  | goto location => location ≠ [] ∧ ∀ character ∈ location, isWhitespace character = false
  | _ => True

end BarCommand

theorem hexDigit_digitChar : ∀ value < 16, hexDigit value.digitChar = some value := by decide

theorem decimalDigit_digitChar :
    ∀ value < 10, Command.decimalDigit value.digitChar = some value := by decide

/-- The symbols of a numeral are no whitespace. -/
theorem solid_toDigits {base : Nat} (proper : 1 < base) (small : base ≤ 16) (number : Nat) :
    ∀ character ∈ Nat.toDigits base number, isWhitespace character = false := by
  have known : ∀ value < 16, isWhitespace value.digitChar = false := by decide
  induction number using Nat.strong_induction_on with
  | _ number ih =>
    intro character member
    rw [Nat.toDigits_eq_if proper] at member
    split at member
    · rw [List.mem_singleton] at member
      exact member ▸ known number (by omega)
    · rcases List.mem_append.mp member with earlier | last
      · exact ih (number / base) (Nat.div_lt_self (by omega) proper) character earlier
      · rw [List.mem_singleton] at last
        have digit := Nat.mod_lt number (Nat.zero_lt_of_lt proper)
        exact last ▸ known (number % base) (by omega)

namespace BarCommand

variable {command : BarCommand} {target : WidgetId}

/-- The words of a command are a phrase for it. -/
theorem phrase_words (typable : command.Typable) : Phrase command.words command := by
  cases command with
  | quit => exact .quit (.self (by decide))
  | help => exact .help (.self (by decide))
  | start limit =>
    cases limit with
    | none => exact .start (.self (by decide))
    | some limit =>
      have spelled := spells_toDigits (by decide) decimalDigit_digitChar limit
      exact .startCount (.self (by decide)) ⟨.inl ⟨Nat.toDigits_ne_nil, spelled⟩, typable⟩
  | toggleRun => exact .toggleRun (.self (by decide))
  | stop => exact .stop (.self (by decide))
  | reset => exact .reset (.self (by decide))
  | toggleView => exact .toggleView (.self (by decide))
  | view view => cases view <;> exact .view (.self (by decide)) (.self (by decide))
  | uart port =>
    cases port <;> exact .uart (.self (by decide)) (.self (by decide)) (.self (by decide))
  | primary subview =>
    cases subview <;> exact .primary (.self (by decide)) (.self (by decide)) (.self (by decide))
  | secondary subview =>
    cases subview <;> exact .secondary (.self (by decide)) (.self (by decide)) (.self (by decide))
  | translate address =>
    have spelled := spells_toDigits (by decide) hexDigit_digitChar address.toNat
    refine .translate (.self (by decide)) (.inl ⟨['0', 'x'], by decide, _, rfl, ?_, spelled⟩)
    exact Nat.toDigits_ne_nil
  | goto location => exact .goto (.self (by decide))

/-- Nothing splits a word of a command. -/
theorem solid_words (typable : command.Typable) : ∀ word ∈ command.words,
    word ≠ [] ∧ ∀ character ∈ word, isWhitespace character = false := by
  cases command with
  | start limit =>
    cases limit with
    | none => simp [words, isWhitespace]
    | some limit =>
      have digits : ∀ character ∈ Nat.toDigits 10 limit, isWhitespace character = false :=
        solid_toDigits (by decide) (by decide) limit
      simp only [words, List.forall_mem_cons]
      exact ⟨by simp [isWhitespace], ⟨Nat.toDigits_ne_nil, digits⟩, List.forall_mem_nil _⟩
  | translate address =>
    have digits : ∀ character ∈ Nat.toDigits 16 address.toNat, isWhitespace character = false :=
      solid_toDigits (by decide) (by decide) address.toNat
    simp only [words, List.forall_mem_cons]
    exact ⟨by simp [isWhitespace], ⟨List.cons_ne_nil _ _, by decide, by decide, digits⟩,
      List.forall_mem_nil _⟩
  | goto location =>
    simp only [words, List.forall_mem_cons]
    exact ⟨by simp [isWhitespace], typable, List.forall_mem_nil _⟩
  | view view => cases view <;> simp [words, isWhitespace]
  | uart port => cases port <;> simp [words, portName, isWhitespace]
  | primary subview => cases subview <;> simp [words, isWhitespace]
  | secondary subview => cases subview <;> simp [words, isWhitespace]
  | _ => simp [words, isWhitespace]

/-- The words of the text of a command. -/
theorem separated_print (typable : command.Typable) :
    Separated isWhitespace command.print command.words :=
  separated_intercalate (by decide) (solid_words typable)

/-- Words that are a phrase for a command make it one that can be typed. -/
theorem typable_of_phrase {text : List Char} {words : List (List Char)}
    (separated : Separated isWhitespace text words) (phrase : Phrase words command) :
    command.Typable := by
  cases phrase with
  | startCount named counted => exact counted.2
  | goto named => exact separated.solid _ (List.mem_cons_of_mem _ List.mem_cons_self)
  | _ => trivial

/-- An action is asked for by one command only. -/
theorem action_injective (target : WidgetId) : Function.Injective (action target) := by
  intro first second same
  cases first <;> cases second <;> cases same <;> rfl

/-- The input bar takes exactly the commands of the manual, whatever whitespace is between their
words, and blank input as no command; and every command can be typed, but for counts that do not
fit in a u64 and locations that are not one word. -/
theorem command_language (target : WidgetId) :
    (∀ text taken, Command.parse text target = .ok taken ↔
      (Separated isWhitespace text [] ∧ taken = []) ∨
        ∃ words command, Separated isWhitespace text words ∧ Phrase words command ∧
          command.Typable ∧ taken = [command.action target]) ∧
    ∀ command : BarCommand, Command.parse command.print target = .ok [command.action target] ↔
      command.Typable := by
  refine ⟨fun text taken => ?_, fun command => ⟨fun taken => ?_, fun typable => ?_⟩⟩
  · rw [Command.parse_eq_ok]
    refine or_congr_right (exists₂_congr fun words command => and_congr_right fun separated => ?_)
    refine and_congr_right fun phrase => (and_iff_right ?_).symm
    exact typable_of_phrase separated phrase
  · rcases Command.parse_eq_ok.mp taken with ⟨-, none⟩ | ⟨words, other, separated, phrase, same⟩
    · cases none
    · have same := action_injective target (List.singleton_inj.mp same)
      subst same
      exact typable_of_phrase separated phrase
  · exact Command.parse_eq_ok.mpr
      (.inr ⟨_, command, separated_print typable, phrase_words typable, rfl⟩)

end BarCommand

end Minemu.Terminal
