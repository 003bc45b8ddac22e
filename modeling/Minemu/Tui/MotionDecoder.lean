import Minemu.Library.Runs
import Minemu.Tui.Primary

/-! Motions from keys: digits build a count that saturates, and the key of a counted motion
takes it. -/

namespace Minemu.Tui

open Library

/-- The key codes that the decoder tells apart. -/
inductive KeyCode where
  | char (key : Char)
  | left
  | down
  | up
  | right
  | other

inductive DecodeResult where
  | pending
  | motion (motion : Motion)
  | unhandled

structure MotionDecoder where
  count : Option Nat := none
  pendingG : Bool := false

/-- The motions that take a count. -/
inductive Counted where
  | left
  | down
  | up
  | right
  | nextItem
  | endItem
deriving DecidableEq

def Counted.motion : Counted → Nat → Motion
  | left => .left
  | down => .down
  | up => .up
  | right => .right
  | nextItem => .nextItem
  | endItem => .endItem

namespace MotionDecoder

def reset (_ : MotionDecoder) : MotionDecoder := {}

/-- The count, one without any, and the decoder without it. -/
def takeCount (decoder : MotionDecoder) : Nat × MotionDecoder := (decoder.count.getD 1, {})

def push (decoder : MotionDecoder) : KeyCode → MotionDecoder × DecodeResult
  | .char key =>
    if '1' ≤ key ∧ key ≤ '9' then
      let tens := saturatingMul 64 (decoder.count.getD 0) 10
      ({ decoder with count := some (saturatingAdd 64 tens (key.toNat - '0'.toNat)) }, .pending)
    else if key = '0' ∧ decoder.count.isSome then
      ({ decoder with count := some (saturatingMul 64 (decoder.count.getD 0) 10) }, .pending)
    else if key = 'g' then
      if decoder.pendingG then (decoder.reset, .motion .top)
      else ({ decoder with pendingG := true }, .pending)
    else if key = 'G' then (decoder.reset, .motion .bottom)
    else
      let (count, decoder) := decoder.takeCount
      match key with
      | 'h' => (decoder, .motion (.left count))
      | 'j' => (decoder, .motion (.down count))
      | 'k' => (decoder, .motion (.up count))
      | 'l' => (decoder, .motion (.right count))
      | 'w' => (decoder, .motion (.nextItem count))
      | 'e' => (decoder, .motion (.endItem count))
      | _ => (decoder, .unhandled)
  | .left => let (count, decoder) := decoder.takeCount; (decoder, .motion (.left count))
  | .down => let (count, decoder) := decoder.takeCount; (decoder, .motion (.down count))
  | .up => let (count, decoder) := decoder.takeCount; (decoder, .motion (.up count))
  | .right => let (count, decoder) := decoder.takeCount; (decoder, .motion (.right count))
  | .other => (decoder.reset, .unhandled)

/-- What the input router does to its decoder: a key, or a reset on Escape or a change of mode. -/
inductive Input where
  | key (code : KeyCode)
  | reset

def step (decoder : MotionDecoder) : Input → MotionDecoder
  | .key code => (decoder.push code).1
  | .reset => decoder.reset

/-- Some inputs make the decoder answer with the motion. -/
def Decodes (motion : Motion) : Prop :=
  ∃ inputs code, ((run step {} inputs).push code).2 = .motion motion

/-- A count is positive and fits in a `usize`. -/
def Fits (decoder : MotionDecoder) : Prop :=
  ∀ count, decoder.count = some count → 1 ≤ count ∧ count < 2 ^ 64

variable {decoder : MotionDecoder}

theorem fits_start : Fits {} := by
  intro count typed
  cases typed

theorem fits_digit (fits : decoder.Fits) (digit : Nat) (some : 0 < digit ∨ decoder.count.isSome)
    (pendingG : Bool) :
    Fits ⟨.some (saturatingAdd 64 (saturatingMul 64 (decoder.count.getD 0) 10) digit), pendingG⟩ := by
  intro count typed
  cases typed
  rw [saturatingAdd, saturatingMul]
  cases before : decoder.count with
  | none =>
    rw [before] at some
    have positive : 0 < digit := some.resolve_right Bool.false_ne_true
    rw [Option.getD_none]
    omega
  | some count =>
    have held := fits count before
    rw [Option.getD_some]
    omega

theorem fits_push (fits : decoder.Fits) (code : KeyCode) : (decoder.push code).1.Fits := by
  cases code with
  | left | down | up | right | other => exact fits_start
  | char key =>
    rw [push]
    split
    · rename_i digit
      apply fits_digit fits _ (.inl ?_)
      have low : '1'.toNat ≤ key.toNat := digit.1
      exact Nat.sub_pos_of_lt (Nat.lt_of_lt_of_le (by decide) low)
    split
    · rename_i zero
      have held := fits_digit fits 0 (.inr zero.2) decoder.pendingG
      have same : saturatingAdd 64 (saturatingMul 64 (decoder.count.getD 0) 10) 0 =
          saturatingMul 64 (decoder.count.getD 0) 10 := Nat.min_eq_left (Nat.min_le_right _ _)
      rw [same] at held
      exact held
    split
    · split
      · exact fits_start
      · exact fits
    split
    · exact fits_start
    · dsimp only
      split <;> exact fits_start

theorem fits_run (inputs : List Input) : (run step {} inputs).Fits := by
  have preserved (decoder : MotionDecoder) (input : Input) (_ : True) (fits : decoder.Fits) :
      (step decoder input).Fits := by
    cases input with
    | key code => exact fits_push fits code
    | reset => exact fits_start
  exact run_invariant preserved {} inputs fits_start fun _ _ => trivial

/-- A counted motion takes the count that was typed. -/
theorem push_counted {code : KeyCode} {kind : Counted} {count : Nat}
    (pushed : (decoder.push code).2 = .motion (kind.motion count)) :
    count = decoder.count.getD 1 := by
  have same (other : Counted) {typed : Nat}
      (motion : DecodeResult.motion (other.motion typed) = .motion (kind.motion count)) :
      count = typed := by
    cases other <;> cases kind <;> cases motion <;> rfl
  cases code with
  | left => exact same .left pushed
  | down => exact same .down pushed
  | up => exact same .up pushed
  | right => exact same .right pushed
  | other => cases pushed
  | char key =>
    rw [push] at pushed
    split at pushed
    · cases pushed
    split at pushed
    · cases pushed
    split at pushed
    · split at pushed
      · cases kind <;> cases pushed
      · cases pushed
    split at pushed
    · cases kind <;> cases pushed
    · dsimp only [takeCount] at pushed
      split at pushed
      · exact same .left pushed
      · exact same .down pushed
      · exact same .up pushed
      · exact same .right pushed
      · exact same .nextItem pushed
      · exact same .endItem pushed
      · cases pushed

/-- The key of a digit. -/
def digitKey (digit : Nat) : KeyCode := .char (Char.ofNat ('0'.toNat + digit))

theorem push_digit {digit : Nat} (single : digit < 10) {count : Nat}
    (some : decoder.count = .some count ∨ decoder.count = none ∧ count = 0 ∧ 0 < digit)
    (small : count * 10 + digit < 2 ^ 64) :
    (decoder.push (digitKey digit)).1 = { decoder with count := .some (count * 10 + digit) } := by
  have typed : decoder.count.getD 0 = count := by
    rcases some with before | ⟨before, zero, _⟩
    · rw [before, Option.getD_some]
    · rw [before, Option.getD_none, zero]
  have tens : saturatingMul 64 count 10 = count * 10 := Nat.min_eq_left (by omega)
  have sum : saturatingAdd 64 (count * 10) digit = count * 10 + digit := Nat.min_eq_left (by omega)
  interval_cases digit
  · have before : decoder.count = .some count := by
      rcases some with before | ⟨_, _, impossible⟩
      · exact before
      · cases impossible
    have isSome : decoder.count.isSome = true := by rw [before, Option.isSome_some]
    have pushed : (decoder.push (digitKey 0)).1 = { decoder with
        count := .some (saturatingMul 64 (decoder.count.getD 0) 10) } := by
      rw [digitKey, push, if_neg (by decide), if_pos ⟨rfl, isSome⟩]
    rw [pushed, typed, tens, Nat.add_zero]
  all_goals
    rw [digitKey, push, if_pos (by decide)]
    simp only [typed, tens]
    congr 2

/-- Every positive count that fits in a `usize` can be typed. -/
theorem exists_typed (count : Nat) (positive : 1 ≤ count) (fits : count < 2 ^ 64) :
    ∃ inputs, run step {} inputs = { count := some count } := by
  induction count using Nat.strong_induction_on with
  | _ count ih =>
    have split : count / 10 * 10 + count % 10 = count := Nat.div_add_mod' count 10
    have single : count % 10 < 10 := Nat.mod_lt _ (by decide)
    by_cases short : count < 10
    · refine ⟨[.key (digitKey count)], ?_⟩
      have pushed := push_digit short (.inr ⟨rfl, rfl, positive⟩ : _ ∨ ({} : MotionDecoder).count = none ∧ _)
        (by omega)
      rw [Nat.zero_mul, Nat.zero_add] at pushed
      exact pushed
    · obtain ⟨inputs, typed⟩ := ih (count / 10) (by omega) (by omega) (by omega)
      refine ⟨inputs ++ [.key (digitKey (count % 10))], ?_⟩
      rw [run_append, typed]
      have pushed := push_digit single (.inl rfl :
        ({ count := some (count / 10) } : MotionDecoder).count = some (count / 10) ∨ _)
        (by omega)
      rw [split] at pushed
      exact pushed

/-- The counts of the decoder's counted motions are those from one to the largest `usize`. -/
theorem decodes_counted (kind : Counted) (count : Nat) :
    Decodes (kind.motion count) ↔ 1 ≤ count ∧ count < 2 ^ 64 := by
  constructor
  · intro ⟨inputs, code, pushed⟩
    rw [push_counted pushed]
    cases typed : (run step {} inputs).count with
    | none => decide
    | some count => exact fits_run inputs count typed
  · intro ⟨positive, fits⟩
    obtain ⟨inputs, typed⟩ := exists_typed count positive fits
    have key (code : KeyCode)
        (pushed : (push { count := some count } code).2 = .motion (kind.motion count)) :
        Decodes (kind.motion count) := ⟨inputs, code, by rw [typed, pushed]⟩
    cases kind with
    | left => exact key .left rfl
    | down => exact key .down rfl
    | up => exact key .up rfl
    | right => exact key .right rfl
    | nextItem => exact key (.char 'w') rfl
    | endItem => exact key (.char 'e') rfl

end MotionDecoder

end Minemu.Tui
