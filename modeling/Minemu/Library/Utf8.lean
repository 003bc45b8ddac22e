import Mathlib

/-! Lossy UTF-8 decoding, with a replacement character for every maximal piece of an ill-formed
sequence, and what can be found in a text that was decoded so. -/

namespace Minemu.Library.Utf8

/-- The character that the bytes start with. -/
def decodeChar? (bytes : List UInt8) : Option Char := ByteArray.utf8DecodeChar? bytes.toByteArray 0

def encode (text : List Char) : List UInt8 := text.flatMap String.utf8EncodeChar

def isContinuation (byte : UInt8) : Bool := byte &&& 0xc0 == 0x80

/-- The second bytes of sequences of three and of four. -/
def secondOfThree (first second : UInt8) : Bool :=
  (first == 0xe0 && 0xa0 ≤ second && second ≤ 0xbf) ||
    (0xe1 ≤ first && first ≤ 0xec && 0x80 ≤ second && second ≤ 0xbf) ||
    (first == 0xed && 0x80 ≤ second && second ≤ 0x9f) ||
    (0xee ≤ first && first ≤ 0xef && 0x80 ≤ second && second ≤ 0xbf)

def secondOfFour (first second : UInt8) : Bool :=
  (first == 0xf0 && 0x90 ≤ second && second ≤ 0xbf) ||
    (0xf1 ≤ first && first ≤ 0xf3 && 0x80 ≤ second && second ≤ 0xbf) ||
    (first == 0xf4 && 0x80 ≤ second && second ≤ 0x8f)

/-- The bytes after the first that one replacement character stands for as well. -/
def replaced (first : UInt8) : List UInt8 → Nat
  | [] => 0
  | second :: rest =>
    if secondOfThree first second then 1
    else if secondOfFour first second then 1 + (rest.head?.any isContinuation).toNat
    else 0

/-- What is decoded once some bytes have been skipped. -/
def decodeFrom : Nat → List UInt8 → List Char
  | _, [] => []
  | skip + 1, _ :: bytes => decodeFrom skip bytes
  | 0, first :: bytes =>
    match decodeChar? (first :: bytes) with
    | some char => char :: decodeFrom (char.utf8Size - 1) bytes
    | none => '\uFFFD' :: decodeFrom (replaced first bytes) bytes

/-- `String::from_utf8_lossy`. -/
def fromUtf8Lossy (bytes : List UInt8) : List Char := decodeFrom 0 bytes

variable {bytes rest : List UInt8} {char : Char} {text : List Char}

/-! ### Single characters -/

theorem decodeChar?_encoded (char : Char) (rest : List UInt8) :
    decodeChar? (String.utf8EncodeChar char ++ rest) = some char := by
  rw [decodeChar?, List.toByteArray_append]
  exact ByteArray.utf8DecodeChar?_utf8EncodeChar_append

/-- What decodes as a character is its encoding. -/
theorem decodeChar?_eq_some (decoded : decodeChar? bytes = some char) :
    ∃ rest, bytes = String.utf8EncodeChar char ++ rest := by
  obtain ⟨left, same⟩ := ByteArray.exists_of_utf8DecodeChar?_eq_some decoded
  refine ⟨left.data.toList, ?_⟩
  have lists := congrArg (fun array : ByteArray => array.data.toList) same
  simpa using lists

/-- Only the first byte of an encoding can be the first of one. -/
theorem encoded_eq_cons (char : Char) : ∃ first others,
    String.utf8EncodeChar char = first :: others ∧ first.IsUTF8FirstByte ∧
      others.length = char.utf8Size - 1 ∧ ∀ byte ∈ others, ¬ byte.IsUTF8FirstByte := by
  have length := String.length_utf8EncodeChar char
  have positive := char.utf8Size_pos
  have starts (index : Nat) (bound : index < (String.utf8EncodeChar char).length) :
      (String.utf8EncodeChar char)[index].IsUTF8FirstByte ↔ index = 0 :=
    UInt8.isUTF8FirstByte_getElem_utf8EncodeChar
  cases encoded : String.utf8EncodeChar char with
  | nil =>
    rw [encoded, List.length_nil] at length
    omega
  | cons first others =>
    simp only [encoded, List.length_cons] at length starts
    refine ⟨first, others, rfl, (starts 0 (by omega)).mpr rfl, by omega, fun byte member => ?_⟩
    obtain ⟨index, bound, rfl⟩ := List.getElem_of_mem member
    have later := (starts (index + 1) (by omega)).not.mpr (by omega)
    exact later

theorem isContinuation_iff {byte : UInt8} :
    isContinuation byte = true ↔ 0x80 ≤ byte.toNat ∧ byte.toNat ≤ 0xbf := by
  have all : ∀ byte : BitVec 8, byte &&& 0xc0 = 0x80 ↔ 0x80 ≤ byte.toNat ∧ byte.toNat ≤ 0xbf := by
    decide
  rw [isContinuation, beq_iff_eq, ← UInt8.toBitVec_inj, UInt8.toBitVec_and]
  exact all byte.toBitVec

theorem continuation_not_first {byte : UInt8} (continuation : isContinuation byte = true) :
    ¬ byte.IsUTF8FirstByte := by
  have all : ∀ byte : BitVec 8, byte &&& 0xc0 = 0x80 →
      ¬ (byte &&& 0x80 = 0 ∨ byte &&& 0xe0 = 0xc0 ∨ byte &&& 0xf0 = 0xe0 ∨ byte &&& 0xf8 = 0xf0) := by
    decide
  unfold isContinuation at continuation
  unfold UInt8.IsUTF8FirstByte
  simp only [← UInt8.toBitVec_inj, beq_iff_eq, UInt8.toBitVec_and] at continuation ⊢
  exact all byte.toBitVec continuation

theorem second_isContinuation {first second : UInt8}
    (accepted : secondOfThree first second = true ∨ secondOfFour first second = true) :
    isContinuation second = true := by
  rw [isContinuation_iff]
  rcases accepted with accepted | accepted
  · simp [secondOfThree, UInt8.le_iff_toNat_le] at accepted
    omega
  · simp [secondOfFour, UInt8.le_iff_toNat_le] at accepted
    omega

/-- The bytes that a replacement character stands for after the first continue it. -/
theorem replaced_continuations (first : UInt8) (bytes : List UInt8) :
    replaced first bytes ≤ bytes.length ∧
      ∀ byte ∈ bytes.take (replaced first bytes), isContinuation byte = true := by
  cases bytes with
  | nil => exact ⟨Nat.zero_le _, fun byte member => by cases member⟩
  | cons second rest =>
    simp only [replaced]
    split
    · rename_i three
      refine ⟨Nat.le_add_left 1 _, fun byte member => ?_⟩
      obtain rfl : byte = second := by simpa using member
      exact second_isContinuation (.inl three)
    · split
      · rename_i four
        have continued := second_isContinuation (.inr four)
        cases rest with
        | nil =>
          refine ⟨le_rfl, fun byte member => ?_⟩
          obtain rfl : byte = second := by simpa using member
          exact continued
        | cons third rest =>
          simp only [List.head?_cons, Option.any_some]
          cases accepted : isContinuation third with
          | false =>
            refine ⟨Nat.le_add_left 1 _, fun byte member => ?_⟩
            obtain rfl : byte = second := by simpa using member
            exact continued
          | true =>
            refine ⟨Nat.le_add_left 2 _, fun byte member => ?_⟩
            obtain rfl | rfl : byte = second ∨ byte = third := by simpa using member
            · exact continued
            · exact accepted
      · exact ⟨Nat.zero_le _, fun byte member => by cases member⟩

/-! ### Decoding -/

theorem decodeFrom_drop (skip : Nat) (bytes : List UInt8) :
    decodeFrom skip bytes = decodeFrom 0 (bytes.drop skip) := by
  induction skip generalizing bytes with
  | zero => rfl
  | succ skip ih =>
    cases bytes with
    | nil => rfl
    | cons first bytes => exact ih bytes

/-- An encoded character decodes to itself, whatever follows. -/
theorem fromUtf8Lossy_encoded (char : Char) (rest : List UInt8) :
    fromUtf8Lossy (String.utf8EncodeChar char ++ rest) = char :: fromUtf8Lossy rest := by
  have decoded := decodeChar?_encoded char rest
  obtain ⟨first, others, same, -, length, -⟩ := encoded_eq_cons char
  rw [same, List.cons_append] at decoded ⊢
  rw [fromUtf8Lossy, decodeFrom, decoded]
  simp only
  rw [decodeFrom_drop, ← length, List.drop_left]
  rfl

theorem fromUtf8Lossy_encode (text : List Char) (rest : List UInt8) :
    fromUtf8Lossy (encode text ++ rest) = text ++ fromUtf8Lossy rest := by
  induction text with
  | nil => rfl
  | cons char text ih =>
    rw [encode, List.flatMap_cons, List.append_assoc, fromUtf8Lossy_encoded, ← encode, ih]
    rfl

/-- What the first decoded character stands for: its encoding, or the replaced bytes. -/
theorem fromUtf8Lossy_cons (first : UInt8) (bytes : List UInt8) :
    ∃ char piece rest, first :: bytes = first :: piece ++ rest ∧
      fromUtf8Lossy (first :: bytes) = char :: fromUtf8Lossy rest ∧
      (char ≠ '\uFFFD' → first :: piece = String.utf8EncodeChar char) ∧
      ∀ byte ∈ piece, ¬ byte.IsUTF8FirstByte := by
  cases decoded : decodeChar? (first :: bytes) with
  | some char =>
    obtain ⟨rest, whole⟩ := decodeChar?_eq_some decoded
    obtain ⟨first', piece, encoded, -, -, others⟩ := encoded_eq_cons char
    have decodes := fromUtf8Lossy_encoded char rest
    rw [encoded] at whole decodes
    obtain ⟨rfl, rfl⟩ := List.cons.inj whole
    exact ⟨char, piece, rest, rfl, decodes, fun _ => encoded.symm, others⟩
  | none =>
    obtain ⟨_, continued⟩ := replaced_continuations first bytes
    refine ⟨'\uFFFD', bytes.take (replaced first bytes), bytes.drop (replaced first bytes), ?_, ?_,
      fun same => absurd rfl same, fun byte member => continuation_not_first (continued byte member)⟩
    · rw [List.cons_append, List.take_append_drop]
    · rw [fromUtf8Lossy, decodeFrom, decoded]
      simp only
      rw [decodeFrom_drop]
      rfl

/-! ### What is found in a decoded text -/

/-- A part of the decoded text comes from bytes of its own. -/
theorem exists_of_append {before after : List Char}
    (decoded : fromUtf8Lossy bytes = before ++ after) :
    ∃ consumed rest, bytes = consumed ++ rest ∧ fromUtf8Lossy rest = after := by
  induction before generalizing bytes with
  | nil => exact ⟨[], bytes, rfl, decoded⟩
  | cons char before ih =>
    cases bytes with
    | nil => cases decoded
    | cons first bytes =>
      obtain ⟨char', piece, rest, whole, decodes, -, -⟩ := fromUtf8Lossy_cons first bytes
      rw [decodes] at decoded
      obtain ⟨consumed, rest', same, left⟩ := ih (List.cons.inj decoded).2
      refine ⟨first :: piece ++ consumed, rest', ?_, left⟩
      rw [whole, same, List.append_assoc]

/-- A text without replacement characters comes from its encoding. -/
theorem eq_encode_append {after : List Char} (plain : '\uFFFD' ∉ text)
    (decoded : fromUtf8Lossy bytes = text ++ after) : ∃ rest, bytes = encode text ++ rest := by
  induction text generalizing bytes with
  | nil => exact ⟨bytes, rfl⟩
  | cons char text ih =>
    obtain ⟨other, others⟩ := not_or.mp (List.mem_cons.not.mp plain)
    cases bytes with
    | nil => cases decoded
    | cons first bytes =>
      obtain ⟨char', piece, rest, whole, decodes, encoded, -⟩ := fromUtf8Lossy_cons first bytes
      rw [decodes] at decoded
      obtain ⟨rfl, later⟩ := List.cons.inj decoded
      obtain ⟨rest', same⟩ := ih others later
      refine ⟨rest', ?_⟩
      rw [whole, same, encoded (Ne.symm other), encode, encode, List.flatMap_cons, List.append_assoc]

/-- No piece of what comes before reaches into an encoded text. -/
theorem infix_of_encode {before after : List UInt8} :
    text <:+: fromUtf8Lossy (before ++ (encode text ++ after)) := by
  induction length : before.length using Nat.strong_induction_on generalizing before with
  | _ count ih =>
    cases before with
    | nil =>
      rw [List.nil_append, fromUtf8Lossy_encode]
      exact (List.prefix_append text _).isInfix
    | cons first before =>
      cases text with
      | nil => exact List.nil_infix
      | cons char text =>
        obtain ⟨char', piece, rest, whole, decodes, -, others⟩ :=
          fromUtf8Lossy_cons first (before ++ (encode (char :: text) ++ after))
        rw [List.cons_append, decodes]
        refine List.infix_cons ?_
        rcases List.append_eq_append_iff.mp (List.cons.inj whole).2 with
          ⟨reached, same, tail⟩ | ⟨left, same, tail⟩
        · obtain ⟨start, tail', encoded, starts, -, -⟩ := encoded_eq_cons char
          cases reached with
          | nil =>
            rw [List.nil_append] at tail
            rw [← tail]
            have found : char :: text <:+: fromUtf8Lossy ([] ++ (encode (char :: text) ++ after)) :=
              ih 0 (length ▸ Nat.succ_pos _) rfl
            exact found
          | cons byte reached =>
            rw [encode, List.flatMap_cons, encoded] at tail
            obtain ⟨rfl, -⟩ := List.cons.inj tail
            exact absurd starts (others _ (same ▸ by simp))
        · rw [tail]
          refine ih left.length ?_ rfl
          rw [← length, same, List.length_cons, List.length_append]
          omega

/-- A text without replacement characters is found in the decoded text exactly where the bytes
hold its encoding. -/
theorem infix_fromUtf8Lossy (plain : '\uFFFD' ∉ text) :
    text <:+: fromUtf8Lossy bytes ↔ encode text <:+: bytes := by
  constructor
  · rintro ⟨before, after, whole⟩
    rw [List.append_assoc] at whole
    obtain ⟨consumed, rest, rfl, left⟩ := exists_of_append whole.symm
    obtain ⟨rest', rfl⟩ := eq_encode_append plain left
    exact ⟨consumed, rest', List.append_assoc _ _ _⟩
  · rintro ⟨before, after, rfl⟩
    rw [List.append_assoc]
    exact infix_of_encode

end Minemu.Library.Utf8
