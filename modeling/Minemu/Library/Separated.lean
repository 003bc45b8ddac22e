import Mathlib

/-! Words separated by gaps: the words of a text as a grammar, and the split that finds them. -/

namespace Minemu.Library

variable {α : Type u} {separator : α → Bool} {text : List α} {words : List (List α)}

/-- The words of a text, in order: gaps of separators before, between and after them. -/
inductive Separated (separator : α → Bool) : List α → List (List α) → Prop where
  | gap {gap : List α} (blank : ∀ symbol ∈ gap, separator symbol = true) : Separated separator gap []
  | word {gap word rest : List α} {words : List (List α)}
    (blank : ∀ symbol ∈ gap, separator symbol = true) (nonempty : word ≠ [])
    (solid : ∀ symbol ∈ word, separator symbol = false)
    (ended : ∀ symbol ∈ rest.head?, separator symbol = true)
    (later : Separated separator rest words) : Separated separator (gap ++ word ++ rest) (word :: words)

/-- Split at every separator and drop what is empty. -/
def splitWords (separator : α → Bool) (text : List α) : List (List α) :=
  (text.splitOnP separator).filter fun word => !word.isEmpty

theorem splitWords_separator {symbol : α} (blank : separator symbol = true) :
    splitWords separator (symbol :: text) = splitWords separator text := by
  unfold splitWords
  rw [List.splitOnP_cons_eq_if_modifyHead, if_pos blank]
  rfl

theorem splitWords_gap {gap : List α} (blank : ∀ symbol ∈ gap, separator symbol = true) :
    splitWords separator (gap ++ text) = splitWords separator text := by
  induction gap with
  | nil => rfl
  | cons symbol gap ih =>
    rw [List.cons_append, splitWords_separator (blank symbol List.mem_cons_self)]
    exact ih fun other member => blank other (List.mem_cons_of_mem symbol member)

/-- A word is split off whole. -/
theorem splitWords_word {word : List α} (nonempty : word ≠ [])
    (solid : ∀ symbol ∈ word, separator symbol = false)
    (ended : ∀ symbol ∈ text.head?, separator symbol = true) :
    splitWords separator (word ++ text) = word :: splitWords separator text := by
  have kept : (!word.isEmpty) = true := by
    rw [Bool.not_eq_true', List.isEmpty_eq_false_iff]
    exact nonempty
  cases text with
  | nil =>
    unfold splitWords
    rw [List.append_nil, List.splitOnP_eq_singleton solid, List.filter_cons, if_pos kept]
    rfl
  | cons symbol rest =>
    have blank := ended symbol rfl
    rw [splitWords_separator blank]
    unfold splitWords
    rw [List.splitOnP_append_cons_of_forall_mem solid symbol blank, List.filter_cons, if_pos kept]

theorem Separated.split (separated : Separated separator text words) :
    splitWords separator text = words := by
  induction separated with
  | gap blank =>
    have alone : splitWords separator (_ ++ []) = splitWords separator [] := splitWords_gap blank
    rw [List.append_nil] at alone
    exact alone
  | word blank nonempty solid ended later ih =>
    rw [List.append_assoc, splitWords_gap blank, splitWords_word nonempty solid ended, ih]

/-- What is found for a word is one. -/
theorem Separated.solid (separated : Separated separator text words) :
    ∀ word ∈ words, word ≠ [] ∧ ∀ symbol ∈ word, separator symbol = false := by
  induction separated with
  | gap blank => exact List.forall_mem_nil _
  | word blank nonempty solid ended later ih =>
    exact List.forall_mem_cons.mpr ⟨⟨nonempty, solid⟩, ih⟩

/-- A word at the start of a text. -/
theorem Separated.leading {word : List α} (nonempty : word ≠ [])
    (solid : ∀ symbol ∈ word, separator symbol = false)
    (ended : ∀ symbol ∈ text.head?, separator symbol = true)
    (later : Separated separator text words) : Separated separator (word ++ text) (word :: words) := by
  have blank : ∀ symbol ∈ ([] : List α), separator symbol = true := by
    intro symbol none
    cases none
  exact .word blank nonempty solid ended later

theorem Separated.cons_separator {symbol : α} (blank : separator symbol = true)
    (separated : Separated separator text words) : Separated separator (symbol :: text) words := by
  have longer {gap : List α} (all : ∀ other ∈ gap, separator other = true) :
      ∀ other ∈ symbol :: gap, separator other = true := by
    intro other member
    rcases List.mem_cons.mp member with rfl | member
    · exact blank
    · exact all other member
  cases separated with
  | gap all => exact .gap (longer all)
  | word all nonempty solid ended later => exact .word (longer all) nonempty solid ended later

/-- A symbol before a text starts a word of its own or goes to the first word. -/
theorem Separated.cons_solid {symbol : α} (solid : separator symbol = false)
    (separated : Separated separator text words) :
    ∃ words, Separated separator (symbol :: text) words := by
  have single : ∀ other ∈ [symbol], separator other = false := by
    intro other member
    obtain rfl := List.mem_singleton.mp member
    exact solid
  have fresh {gap rest : List α} {first : α} (all : ∀ other ∈ first :: gap, separator other = true)
      (later : Separated separator (first :: gap ++ rest) words) :
      ∃ words, Separated separator (symbol :: (first :: gap ++ rest)) words := by
    refine ⟨_, .leading (List.cons_ne_nil symbol []) single ?_ later⟩
    intro other head
    cases head
    exact all first List.mem_cons_self
  cases separated with
  | gap all =>
    cases text with
    | nil => exact ⟨_, .leading (List.cons_ne_nil symbol []) single (fun _ none => by cases none)
        (.gap all)⟩
    | cons first gap =>
      have whole : first :: gap = first :: gap ++ [] := (List.append_nil _).symm
      rw [whole]
      apply fresh all
      rw [← whole]
      exact .gap all
  | word all nonempty before ended later =>
    rename_i gap word rest others
    cases gap with
    | nil =>
      refine ⟨_, .leading (List.cons_ne_nil symbol word) ?_ ended later⟩
      intro other member
      rcases List.mem_cons.mp member with rfl | member
      · exact solid
      · exact before other member
    | cons first gap =>
      rw [List.append_assoc]
      apply fresh all
      rw [← List.append_assoc]
      exact .word all nonempty before ended later

/-- Every text has its words. -/
theorem separated_splitWords (text : List α) :
    Separated separator text (splitWords separator text) := by
  have found : ∃ words, Separated separator text words := by
    induction text with
    | nil => exact ⟨[], .gap fun symbol none => by cases none⟩
    | cons symbol text ih =>
      obtain ⟨words, separated⟩ := ih
      cases blank : separator symbol with
      | true => exact ⟨words, separated.cons_separator blank⟩
      | false => exact separated.cons_solid blank
  obtain ⟨words, separated⟩ := found
  rw [separated.split]
  exact separated

/-- Words put together with a separator are the words of the whole. -/
theorem separated_intercalate {gap : α} (blank : separator gap = true)
    (solid : ∀ word ∈ words, word ≠ [] ∧ ∀ symbol ∈ word, separator symbol = false) :
    Separated separator ([gap].intercalate words) words := by
  induction words with
  | nil => exact .gap fun symbol none => nomatch none
  | cons word words ih =>
    obtain ⟨nonempty, clean⟩ := solid word List.mem_cons_self
    have later := ih fun other member => solid other (List.mem_cons_of_mem word member)
    cases words with
    | nil =>
      have whole : [gap].intercalate [word] = word ++ [] := by simp
      rw [whole]
      exact .leading nonempty clean (fun symbol none => nomatch none)
        (.gap fun symbol none => nomatch none)
    | cons second words =>
      have whole : [gap].intercalate (word :: second :: words) =
          word ++ gap :: [gap].intercalate (second :: words) := by simp [List.intercalate]
      rw [whole]
      refine .leading nonempty clean ?_ (later.cons_separator blank)
      intro symbol head
      cases head
      exact blank

end Minemu.Library
