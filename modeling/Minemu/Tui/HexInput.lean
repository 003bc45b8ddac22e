import Minemu.Library.Fallible
import Minemu.Library.Numerals
import Minemu.Library.Separated
import Minemu.Tui.Primary

/-! Hexadecimal input: the bytes of a search and the address of a goto, beside the grammars that
the manual gives for them. -/

namespace Minemu.Tui

open Library Platform

/-- `char::is_whitespace`: the characters with the Unicode property White_Space. -/
def isWhitespace (character : Char) : Bool :=
  let code := character.toNat
  (0x9 ≤ code ∧ code ≤ 0xd) ∨ code = 0x20 ∨ code = 0x85 ∨ code = 0xa0 ∨ code = 0x1680 ∨
    (0x2000 ≤ code ∧ code ≤ 0x200a) ∨ code = 0x2028 ∨ code = 0x2029 ∨ code = 0x202f ∨
    code = 0x205f ∨ code = 0x3000

def splitWhitespace (text : List Char) : List (List Char) := splitWords isWhitespace text

/-- The bytes of a string slice. -/
def utf8Length (text : List Char) : Nat := (text.map Char.utf8Size).sum

/-- `from_str_radix` of an unsigned type for radix 16, which takes a leading plus sign. -/
def fromStrRadix16 (width : Nat) (text : List Char) : Option (BitVec width) :=
  let digits := if text.head? = some '+' then text.tail else text
  if digits = [] then none
  else (digits.foldlM (pushDigit 16 (2 ^ width) hexDigit) 0).map (BitVec.ofNat width)

theorem fromHex_eq (text : List Char) : fromHex text = fromStrRadix16 32 text := rfl

namespace Search

def byte (token : List Char) : Except String U8 :=
  let invalid := "invalid hex byte: " ++ String.ofList token
  if utf8Length token ≠ 2 then .error invalid
  else match fromStrRadix16 8 token with
    | none => .error invalid
    | some value => .ok value

def bytes (value : List Char) : Except String (List U8) := do
  let bytes ← (splitWhitespace value).mapM byte
  if bytes = [] then throw "byte search pattern cannot be empty" else return bytes

end Search

/-! ### The grammars -/

/-- Two hexadecimal digits and their value. -/
def Pair (token : List Char) (value : U8) : Prop :=
  token.length = 2 ∧ Spells 16 hexDigit token value.toNat

/-- Pairs of hexadecimal digits, separated by whitespace. -/
def HexBytes (text : List Char) (values : List U8) : Prop :=
  ∃ tokens, Separated isWhitespace text tokens ∧ tokens ≠ [] ∧ List.Forall₂ Pair tokens values

/-- What may stand before the digits of an address. -/
def markers : List (List Char) := [[], ['0', 'x'], ['0', 'X']]

/-- Hexadecimal digits after an optional `0x`, and their value. -/
def HexAddress (text : List Char) (address : U32) : Prop :=
  ∃ marker ∈ markers, ∃ digits, text = marker ++ digits ∧ digits ≠ [] ∧
    Spells 16 hexDigit digits address.toNat

/-- A plus sign and one hexadecimal digit, and its value. -/
def SignedPair (token : List Char) (value : U8) : Prop :=
  ∃ digit, token = ['+', digit] ∧ Spells 16 hexDigit [digit] value.toNat

/-- Tokens that are pairs but for some that have a plus sign for their first digit. -/
def SignedBytes (text : List Char) (values : List U8) : Prop :=
  ∃ tokens, Separated isWhitespace text tokens ∧
    List.Forall₂ (fun token value => Pair token value ∨ SignedPair token value) tokens values ∧
    ∃ token ∈ tokens, ∃ value, SignedPair token value

/-- An address with a plus sign before its digits. -/
def SignedAddress (text : List Char) (address : U32) : Prop :=
  ∃ marker ∈ markers, ∃ digits, text = marker ++ '+' :: digits ∧ digits ≠ [] ∧
    Spells 16 hexDigit digits address.toNat

/-! ### What the parsers take -/

theorem hexDigit_ascii {character : Char} (digit : (hexDigit character).isSome = true) :
    character.toNat < 0x80 := by
  have below (last : Char) (small : last.toNat < 0x80) (within : character ≤ last) :
      character.toNat < 0x80 :=
    Nat.lt_of_le_of_lt (UInt32.le_iff_toNat_le.mp within) small
  unfold hexDigit at digit
  split at digit
  · rename_i range
    exact below '9' (by decide) range.2
  split at digit
  · rename_i range
    exact below 'f' (by decide) range.2
  split at digit
  · rename_i range
    exact below 'F' (by decide) range.2
  · cases digit

theorem utf8Size_ascii {character : Char} (ascii : character.toNat < 0x80) :
    character.utf8Size = 1 := by
  have small : character.val ≤ 0x7f := UInt32.le_iff_toNat_le.mpr (Nat.le_of_lt_succ ascii)
  exact if_pos small

/-- Digits take one byte each. -/
theorem utf8Length_digits {text : List Char}
    (digits : ∀ character ∈ text, (hexDigit character).isSome = true) :
    utf8Length text = text.length := by
  unfold utf8Length
  induction text with
  | nil => rfl
  | cons first rest ih =>
    have single := utf8Size_ascii (hexDigit_ascii (digits first List.mem_cons_self))
    rw [List.map_cons, List.sum_cons, single, List.length_cons, Nat.add_comm]
    exact congrArg Nat.succ (ih fun other member => digits other (List.mem_cons_of_mem _ member))

theorem head_of_spells {text : List Char} {number : Nat}
    (spells : Spells 16 hexDigit text number) : text.head? ≠ some '+' := by
  intro head
  have digit := spells.digits (List.mem_of_mem_head? head)
  have none : hexDigit '+' = none := by decide
  rw [none] at digit
  cases digit

/-- The library parser reads digits below its bound, and the same behind one plus sign. -/
theorem fromStrRadix16_eq_some {width : Nat} {text : List Char} {value : BitVec width} :
    fromStrRadix16 width text = some value ↔
      (text ≠ [] ∧ Spells 16 hexDigit text value.toNat) ∨
        ∃ digits, text = '+' :: digits ∧ digits ≠ [] ∧ Spells 16 hexDigit digits value.toNat := by
  have room : 0 < 2 ^ width := Nat.two_pow_pos width
  have read (digits : List Char) :
      (digits.foldlM (pushDigit 16 (2 ^ width) hexDigit) 0).map (BitVec.ofNat width) = some value ↔
        Spells 16 hexDigit digits value.toNat := by
    rw [Option.map_eq_some_iff]
    constructor
    · intro found
      obtain ⟨number, folded, same⟩ := found
      obtain ⟨spells, small⟩ := (foldlM_pushDigit_zero (by decide) room).mp folded
      rw [← same, BitVec.toNat_ofNat, Nat.mod_eq_of_lt small]
      exact spells
    · intro spells
      refine ⟨value.toNat, (foldlM_pushDigit_zero (by decide) room).mpr ⟨spells, value.isLt⟩, ?_⟩
      rw [BitVec.ofNat_toNat, BitVec.setWidth_eq]
  unfold fromStrRadix16
  by_cases signed : text.head? = some '+'
  · obtain ⟨digits, rfl⟩ := List.head?_eq_some_iff.mp signed
    dsimp only
    rw [if_pos signed, List.tail_cons]
    constructor
    · intro found
      split at found
      · cases found
      · exact .inr ⟨digits, rfl, ‹_›, (read digits).mp found⟩
    · intro described
      rcases described with plain | signed'
      · exact absurd signed (head_of_spells plain.2)
      · obtain ⟨same, split, nonempty, spells⟩ := signed'
        cases split
        rw [if_neg nonempty]
        exact (read digits).mpr spells
  · dsimp only
    rw [if_neg signed]
    constructor
    · intro found
      split at found
      · cases found
      · exact .inl ⟨‹_›, (read text).mp found⟩
    · intro described
      rcases described with plain | signed'
      · rw [if_neg plain.1]
        exact (read text).mpr plain.2
      · obtain ⟨digits, rfl, _⟩ := signed'
        exact absurd rfl signed

theorem byte_eq_ok {token : List Char} {value : U8} :
    Search.byte token = .ok value ↔ Pair token value ∨ SignedPair token value := by
  have parsed : Search.byte token = .ok value ↔
      utf8Length token = 2 ∧ fromStrRadix16 8 token = some value := by
    unfold Search.byte
    dsimp only
    constructor
    · intro done
      split at done
      · cases done
      · split at done
        · cases done
        · cases done
          exact ⟨not_not.mp ‹_›, ‹_›⟩
    · intro both
      rw [if_neg (not_not.mpr both.1), both.2]
  rw [parsed, fromStrRadix16_eq_some]
  constructor
  · intro both
    obtain ⟨length, plain | signed⟩ := both
    · rw [utf8Length_digits fun _ member => plain.2.digits member] at length
      exact .inl ⟨length, plain.2⟩
    · obtain ⟨digits, rfl, nonempty, spells⟩ := signed
      have whole : utf8Length ('+' :: digits) = 1 + utf8Length digits := List.sum_cons
      rw [whole, utf8Length_digits fun _ member => spells.digits member] at length
      obtain ⟨digit, rfl⟩ := List.length_eq_one_iff.mp (Nat.add_left_cancel length)
      exact .inr ⟨digit, rfl, spells⟩
  · intro grammar
    rcases grammar with ⟨two, spells⟩ | ⟨digit, rfl, spells⟩
    · refine ⟨(utf8Length_digits fun _ member => spells.digits member).trans two, .inl ⟨?_, spells⟩⟩
      intro empty
      rw [empty] at two
      cases two
    · have single := utf8Length_digits fun _ member => spells.digits member
      exact ⟨congrArg (1 + ·) single, .inr ⟨[digit], rfl, List.cons_ne_nil digit [], spells⟩⟩

/-- The search takes whitespace-separated tokens that are pairs, signed or not. -/
theorem bytes_eq_ok {text : List Char} {values : List U8} : Search.bytes text = .ok values ↔
    ∃ tokens, Separated isWhitespace text tokens ∧ tokens ≠ [] ∧
      List.Forall₂ (fun token value => Pair token value ∨ SignedPair token value)
        tokens values := by
  unfold Search.bytes
  simp only [bind_eq_ok, mapM_eq_ok, byte_eq_ok]
  constructor
  · intro done
    obtain ⟨found, matched, nonempty⟩ := done
    split at nonempty
    · cases nonempty
    · cases nonempty
      refine ⟨splitWhitespace text, separated_splitWords text, ?_, matched⟩
      intro empty
      rw [empty, List.forall₂_nil_left_iff] at matched
      exact absurd matched ‹_›
  · intro described
    obtain ⟨tokens, separated, nonempty, matched⟩ := described
    have split : splitWhitespace text = tokens := separated.split
    refine ⟨values, split ▸ matched, if_neg fun empty => nonempty ?_⟩
    rw [empty, List.forall₂_nil_right_iff] at matched
    exact matched

/-- The text behind its marker. -/
theorem strip_marker {marker digits : List Char} (known : marker ∈ markers)
    (unmarked : digits.take 2 ≠ ['0', 'x'] ∧ digits.take 2 ≠ ['0', 'X']) :
    (if (marker ++ digits).take 2 = ['0', 'x'] ∨ (marker ++ digits).take 2 = ['0', 'X'] then
      (marker ++ digits).drop 2 else marker ++ digits) = digits := by
  rcases List.mem_cons.mp known with rfl | known
  · exact if_neg (not_or.mpr unmarked)
  · rcases List.mem_cons.mp known with rfl | known
    · exact if_pos (.inl rfl)
    · obtain rfl := List.mem_singleton.mp known
      exact if_pos (.inr rfl)

theorem exists_marker (text : List Char) : ∃ marker ∈ markers, text = marker ++
    (if text.take 2 = ['0', 'x'] ∨ text.take 2 = ['0', 'X'] then text.drop 2 else text) := by
  split
  · rename_i marked
    rcases marked with lower | upper
    · exact ⟨_, by decide, (lower ▸ List.take_append_drop 2 text).symm⟩
    · exact ⟨_, by decide, (upper ▸ List.take_append_drop 2 text).symm⟩
  · exact ⟨[], by decide, rfl⟩

theorem unmarked_of_digits {text : List Char}
    (digits : ∀ character ∈ text, (hexDigit character).isSome = true) :
    text.take 2 ≠ ['0', 'x'] ∧ text.take 2 ≠ ['0', 'X'] := by
  have second (letter : Char) (none : hexDigit letter = none) : text.take 2 ≠ ['0', letter] := by
    intro marked
    have member : letter ∈ text.take 2 := by
      rw [marked]
      exact List.mem_cons_of_mem _ (List.mem_singleton_self letter)
    have digit := digits letter (List.mem_of_mem_take member)
    rw [none] at digit
    cases digit
  exact ⟨second 'x' (by decide), second 'X' (by decide)⟩

/-- A goto takes the address, and the same with one plus sign before its digits. -/
theorem parseHexAddress_eq_some {text : List Char} {address : U32} :
    parseHexAddress text = some address ↔ HexAddress text address ∨ SignedAddress text address := by
  unfold parseHexAddress
  rw [fromHex_eq, fromStrRadix16_eq_some]
  constructor
  · intro read
    obtain ⟨marker, known, split⟩ := exists_marker text
    rcases read with plain | ⟨digits, same, nonempty, spells⟩
    · exact .inl ⟨marker, known, _, split, plain.1, plain.2⟩
    · rw [same] at split
      exact .inr ⟨marker, known, digits, split, nonempty, spells⟩
  · intro grammar
    rcases grammar with plain | signed
    · obtain ⟨marker, known, digits, rfl, nonempty, spells⟩ := plain
      rw [strip_marker known (unmarked_of_digits fun _ member => spells.digits member)]
      exact .inl ⟨nonempty, spells⟩
    · obtain ⟨marker, known, digits, rfl, nonempty, spells⟩ := signed
      have unmarked : ('+' :: digits).take 2 ≠ ['0', 'x'] ∧ ('+' :: digits).take 2 ≠ ['0', 'X'] :=
        ⟨fun marked => (by cases marked), fun marked => (by cases marked)⟩
      rw [strip_marker known unmarked]
      exact .inr ⟨digits, rfl, nonempty, spells⟩

/-! ### The law -/

theorem signedPair_not_pair {token : List Char} {value other : U8} (signed : SignedPair token value)
    (pair : Pair token other) : False := by
  obtain ⟨digit, rfl, _⟩ := signed
  exact head_of_spells pair.2 rfl

/-- Tokens that are taken are pairs unless one of them is signed. -/
theorem pairs_iff {tokens : List (List Char)} {values : List U8}
    (taken : List.Forall₂ (fun token value => Pair token value ∨ SignedPair token value)
      tokens values) :
    List.Forall₂ Pair tokens values ↔ ¬ ∃ token ∈ tokens, ∃ value, SignedPair token value := by
  induction taken with
  | nil =>
    constructor
    · intro _ signed
      obtain ⟨token, member, _⟩ := signed
      cases member
    · intro _
      exact .nil
  | cons first rest ih =>
    rename_i token value tokens values
    constructor
    · intro pairs signed
      obtain ⟨pair, others⟩ := List.forall₂_cons.mp pairs
      obtain ⟨other, member, found⟩ := signed
      rcases List.mem_cons.mp member with rfl | member
      · obtain ⟨read, sign⟩ := found
        exact signedPair_not_pair sign pair
      · exact ih.mp others ⟨other, member, found⟩
    · intro unsigned
      rcases first with pair | sign
      · refine .cons pair (ih.mpr fun signed => unsigned ?_)
        obtain ⟨other, member, found⟩ := signed
        exact ⟨other, List.mem_cons_of_mem token member, found⟩
      · exact absurd ⟨token, List.mem_cons_self, value, sign⟩ unsigned

/-- The search meets its grammar where no token is signed or some other token is refused. -/
theorem bytes_iff (text : List Char) :
    (∀ values, Search.bytes text = .ok values ↔ HexBytes text values) ↔
      ¬ ∃ values, SignedBytes text values := by
  simp only [bytes_eq_ok]
  constructor
  · intro meets beyond
    obtain ⟨values, tokens, separated, taken, signed⟩ := beyond
    obtain ⟨token, member, found⟩ := signed
    obtain ⟨others, separated', _, pairs⟩ :=
      (meets values).mp ⟨tokens, separated, List.ne_nil_of_mem member, taken⟩
    obtain rfl := separated.split.symm.trans separated'.split
    exact (pairs_iff taken).mp pairs ⟨token, member, found⟩
  · intro within values
    constructor
    · intro read
      obtain ⟨tokens, separated, nonempty, taken⟩ := read
      refine ⟨tokens, separated, nonempty, (pairs_iff taken).mpr fun signed => within ?_⟩
      exact ⟨values, tokens, separated, taken, signed⟩
    · intro grammar
      obtain ⟨tokens, separated, nonempty, pairs⟩ := grammar
      exact ⟨tokens, separated, nonempty, pairs.imp fun _ _ pair => .inl pair⟩

theorem signedAddress_not_hex {text : List Char} {address other : U32}
    (signed : SignedAddress text address) (plain : HexAddress text other) : False := by
  obtain ⟨marker, known, digits, rfl, _⟩ := signed
  obtain ⟨marker', known', digits', same, _, spells⟩ := plain
  have unmarked : ('+' :: digits).take 2 ≠ ['0', 'x'] ∧ ('+' :: digits).take 2 ≠ ['0', 'X'] :=
    ⟨fun marked => (by cases marked), fun marked => (by cases marked)⟩
  have stripped := strip_marker known unmarked
  rw [same, strip_marker known' (unmarked_of_digits fun _ member => spells.digits member)] at stripped
  rw [stripped] at spells
  exact head_of_spells spells rfl

/-- A goto meets its grammar where no plus sign stands before the digits of an address. -/
theorem parseHexAddress_iff (text : List Char) :
    (∀ address, parseHexAddress text = some address ↔ HexAddress text address) ↔
      ¬ ∃ address, SignedAddress text address := by
  simp only [parseHexAddress_eq_some]
  constructor
  · intro meets beyond
    obtain ⟨address, signed⟩ := beyond
    exact signedAddress_not_hex signed ((meets address).mp (.inr signed))
  · intro within address
    constructor
    · intro read
      rcases read with plain | signed
      · exact plain
      · exact absurd ⟨address, signed⟩ within
    · intro plain
      exact .inl plain

/-- Either input takes exactly its grammar but for a plus sign: in the place of the first digit of
a pair, where all tokens are pairs else, and before the digits of an address. -/
theorem hex_inputs_iff (text : List Char) :
    ((∀ values, Search.bytes text = .ok values ↔ HexBytes text values) ↔
      ¬ ∃ values, SignedBytes text values) ∧
    ((∀ address, parseHexAddress text = some address ↔ HexAddress text address) ↔
      ¬ ∃ address, SignedAddress text address) :=
  ⟨bytes_iff text, parseHexAddress_iff text⟩

/-- The search takes a plus sign and a digit for a byte, and a goto a plus sign before its
address. -/
theorem plus_signs_taken :
    (Search.bytes ['+', 'a'] = .ok [0x0a] ∧ ¬ HexBytes ['+', 'a'] [0x0a]) ∧
    parseHexAddress ['0', 'x', '+', 'f'] = some 0xf ∧
      ¬ HexAddress ['0', 'x', '+', 'f'] 0xf := by
  have spelled (digit : Char) (value : Nat) (read : hexDigit digit = some value) :
      Spells 16 hexDigit [digit] value := by
    refine ⟨[value], ?_, ?_⟩
    · rw [List.map_singleton, read]
      rfl
    · exact Nat.ofDigits_singleton
  have pair : SignedPair ['+', 'a'] 0x0a := ⟨'a', rfl, spelled 'a' 10 (by decide)⟩
  have address : SignedAddress ['0', 'x', '+', 'f'] 0xf :=
    ⟨['0', 'x'], by decide, ['f'], rfl, List.cons_ne_nil _ _, spelled 'f' 15 (by decide)⟩
  refine ⟨⟨by decide, fun grammar => ?_⟩, by decide, signedAddress_not_hex address⟩
  obtain ⟨tokens, separated, _, pairs⟩ := grammar
  have split : splitWhitespace ['+', 'a'] = [['+', 'a']] := by decide
  obtain rfl := separated.split.symm.trans split
  exact signedPair_not_pair pair (List.forall₂_cons.mp pairs).1

end Minemu.Tui
