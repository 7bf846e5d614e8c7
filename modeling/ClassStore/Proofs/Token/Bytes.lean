import ClassStore.Proofs.Token.Position
import ClassStore.Search.Token.Cursor

/-!
# Bytes and characters

A character of ASCII is one byte, and every byte of another character is above those of
ASCII.  So a kind of ASCII characters can be told by the bytes alone: `IsKind` says that
a test of bytes and a test of characters agree, and `takeWhile_bytes` that a run of the
kind is then the same run, found either way.  `slice?_append` says which slices of a text
there are.
-/

namespace ClassStore.Search

open Scanner

/-! ## Bytes of characters -/

/-- The UTF-8 bytes of the characters. -/
def bytes (characters : List Char) : List UInt8 :=
  characters.flatMap String.utf8EncodeChar

theorem length_bytes (characters : List Char) :
    (bytes characters).length = byteCount characters := by
  induction characters with
  | nil => rfl
  | cons character characters inductionHypothesis =>
      rw [bytes, List.flatMap_cons, List.length_append, String.length_utf8EncodeChar, byteCount,
        ← inductionHypothesis, bytes]

theorem toList_toByteArray (text : String) :
    text.toByteArray.data.toList = bytes text.toList := by
  rw [← String.utf8Encode_toList, List.utf8Encode, List.toList_data_toByteArray]
  rfl

/-- The first byte of a character. -/
def leadByte (character : Char) : UInt8 :=
  (String.utf8EncodeChar character).headD 0

theorem exists_utf8EncodeChar (character : Char) :
    ∃ others, String.utf8EncodeChar character = leadByte character :: others := by
  rw [leadByte]
  cases encoded : String.utf8EncodeChar character with
  | nil =>
      have width := character.utf8Size_pos
      rw [← String.length_utf8EncodeChar, encoded] at width
      exact absurd width (Nat.lt_irrefl 0)
  | cons first others => exact ⟨others, rfl⟩

theorem utf8EncodeChar_of_ascii
    {character : Char}
    (isAscii : character.utf8Size = 1) :
    String.utf8EncodeChar character = [character.toUInt8] :=
  String.utf8EncodeChar_eq_singleton isAscii

theorem leadByte_of_ascii
    {character : Char}
    (isAscii : character.utf8Size = 1) :
    leadByte character = character.toUInt8 := by
  rw [leadByte, utf8EncodeChar_of_ascii isAscii]
  rfl

theorem utf8Size_eq_one_iff_toNat {character : Char} :
    character.utf8Size = 1 ↔ character.toNat < 128 := by
  rw [Char.utf8Size_eq_one_iff, UInt32.le_iff_toNat_le]
  exact Nat.lt_succ_iff.symm

/-- Characters of ASCII are as many bytes. -/
theorem byteCount_of_ascii
    {characters : List Char}
    (areAscii : ∀ character ∈ characters, character.utf8Size = 1) :
    byteCount characters = characters.length := by
  induction characters with
  | nil => rfl
  | cons character characters inductionHypothesis =>
      rcases List.forall_mem_cons.mp areAscii with ⟨first, others⟩
      rw [byteCount, first, inductionHypothesis others, List.length_cons, Nat.add_comm]

/-- The first byte of a character outside ASCII is not one of ASCII. -/
theorem le_leadByte
    {character : Char}
    (foreign : character.utf8Size ≠ 1) :
    128 ≤ (leadByte character).toNat := by
  have wide : 128 ≤ character.val.toNat := by
    have notAscii := mt utf8Size_eq_one_iff_toNat.mpr foreign
    exact Nat.le_of_not_lt notAscii
  rw [leadByte, String.utf8EncodeChar]
  split
  · omega
  split
  · simp only [List.headD_cons, UInt8.toNat_ofNat']
    omega
  split
  · simp only [List.headD_cons, UInt8.toNat_ofNat']
    omega
  · simp only [List.headD_cons, UInt8.toNat_ofNat']
    omega

/-! ## Kinds -/

/-- The test of bytes tells the characters of ASCII that pass the test of characters. -/
structure IsKind (ofByte : UInt8 → Bool) (ofCharacter : Char → Bool) : Prop where
  ascii : ∀ character, character.utf8Size = 1 →
    ofByte character.toUInt8 = ofCharacter character
  foreign : ∀ character, ofCharacter character = true → character.utf8Size = 1
  high : ∀ byte, ofByte byte = true → byte.toNat < 128

/-- Two tests agree if they do for the numbers of ASCII and nothing else passes them. -/
theorem IsKind.of_codes
    {ofByte : UInt8 → Bool}
    {ofCharacter : Char → Bool}
    (same : ∀ code < 128, ofByte (UInt8.ofNat code) = ofCharacter (Char.ofNat code))
    (low : ∀ code < 256, ofByte (UInt8.ofNat code) = true → code < 128)
    (foreign : ∀ character, ofCharacter character = true → character.toNat < 128) :
    IsKind ofByte ofCharacter where
  ascii character isAscii := by
    have agrees := same character.toNat (utf8Size_eq_one_iff_toNat.mp isAscii)
    rw [Char.ofNat_toNat] at agrees
    exact agrees
  foreign character passes := utf8Size_eq_one_iff_toNat.mpr (foreign character passes)
  high byte passes := by
    apply low byte.toNat byte.toNat_lt
    rwa [UInt8.ofNat_toNat]

section Kinds

theorem isKind_eq
    (character : Char)
    (isAscii : character.utf8Size = 1) :
    IsKind (· == character.toUInt8) (· == character) where
  ascii other otherAscii := by
    rw [Bool.eq_iff_iff, beq_iff_eq, beq_iff_eq]
    refine ⟨fun same => ?_, fun same => congrArg Char.toUInt8 same⟩
    have numbers := congrArg UInt8.toNat same
    have below := utf8Size_eq_one_iff_toNat.mp isAscii
    have otherBelow := utf8Size_eq_one_iff_toNat.mp otherAscii
    apply Char.ext
    apply UInt32.toNat_inj.mp
    have toNat : ∀ c : Char, c.toUInt8.toNat = c.toNat % 256 := fun _ => rfl
    rw [toNat, toNat, Nat.mod_eq_of_lt (by omega), Nat.mod_eq_of_lt (by omega)] at numbers
    exact numbers
  foreign other same := by rwa [beq_iff_eq.mp same]
  high byte same := by
    have below := utf8Size_eq_one_iff_toNat.mp isAscii
    rw [beq_iff_eq.mp same]
    have toNat : character.toUInt8.toNat = character.toNat % 256 := rfl
    omega

theorem toNat_of_isDigit
    {character : Char}
    (digit : character.isDigit = true) :
    character.toNat < 128 := by
  have highest : character.val ≤ 57 := of_decide_eq_true (Bool.and_eq_true_iff.mp digit).2
  exact Nat.lt_of_le_of_lt (UInt32.le_iff_toNat_le.mp highest) (by decide)

theorem toNat_of_isAlpha
    {character : Char}
    (letter : character.isAlpha = true) :
    character.toNat < 128 := by
  have highest : character.val ≤ 122 := by
    rcases Bool.or_eq_true_iff.mp letter with upper | lower
    · exact UInt32.le_trans (of_decide_eq_true upper).2 (by decide)
    · exact of_decide_eq_true (Bool.and_eq_true_iff.mp lower).2
  exact Nat.lt_of_le_of_lt (UInt32.le_iff_toNat_le.mp highest) (by decide)

theorem isKind_digit : IsKind isDigitByte Char.isDigit :=
  .of_codes (by decide +kernel) (by decide +kernel) fun _ => toNat_of_isDigit

theorem isKind_letter : IsKind isLetterByte Char.isAlpha :=
  .of_codes (by decide +kernel) (by decide +kernel) fun _ => toNat_of_isAlpha

theorem isKind_word : IsKind isWordByte isWordCharacter := by
  refine .of_codes (by decide +kernel) (by decide +kernel) fun character ofWord => ?_
  simp only [isWordCharacter, Char.isAlphanum, Bool.or_eq_true, decide_eq_true_eq] at ofWord
  rcases ofWord with ((letter | digit) | rfl) | rfl
  · exact toNat_of_isAlpha letter
  · exact toNat_of_isDigit digit
  · decide
  · decide

theorem isKind_blank : IsKind isBlankByte Text.isBlank := by
  refine .of_codes (by decide +kernel) (by decide +kernel) fun character blank => ?_
  simp only [Text.isBlank, Bool.or_eq_true, decide_eq_true_eq] at blank
  rcases blank with (((rfl | rfl) | rfl) | rfl) | rfl <;> decide

theorem isKind_quote :
    IsKind isQuoteByte (fun character => character = '\'' || character = '"') := by
  refine .of_codes (by decide +kernel) (by decide +kernel) fun character quoted => ?_
  simp only [Bool.or_eq_true, decide_eq_true_eq] at quoted
  rcases quoted with rfl | rfl <;> decide

theorem isKind_mark : IsKind isMarkByte isMark := by
  refine .of_codes (by decide +kernel) (by decide +kernel) fun character marked => ?_
  simp only [isMark, Bool.or_eq_true, decide_eq_true_eq] at marked
  rcases marked with (((rfl | rfl) | rfl) | rfl) | rfl <;> decide

end Kinds

namespace IsKind

variable
    {ofByte : UInt8 → Bool}
    {ofCharacter : Char → Bool}
    (isKind : IsKind ofByte ofCharacter)

include isKind

/-- The first byte of a character is of the kind exactly if the character is. -/
theorem leadByte (character : Char) :
    ofByte (leadByte character) = ofCharacter character := by
  by_cases isAscii : character.utf8Size = 1
  · rw [leadByte_of_ascii isAscii, isKind.ascii character isAscii]
  · have notOfCharacter : ofCharacter character = false :=
      Bool.eq_false_iff.mpr fun passes => isAscii (isKind.foreign character passes)
    have notOfByte : ofByte (Search.leadByte character) = false :=
      Bool.eq_false_iff.mpr fun passes =>
        absurd (isKind.high _ passes) (Nat.not_lt.mpr (le_leadByte isAscii))
    rw [notOfCharacter, notOfByte]

/-- A run of bytes of the kind is as long as the run of characters. -/
theorem length_takeWhile_bytes (characters : List Char) :
    ((bytes characters).takeWhile ofByte).length =
      (characters.takeWhile ofCharacter).length := by
  induction characters with
  | nil => rfl
  | cons character characters inductionHypothesis =>
      rw [bytes, List.flatMap_cons]
      cases passes : ofCharacter character with
      | true =>
          have isAscii := isKind.foreign character passes
          have passesByte : ofByte character.toUInt8 = true := by
            rw [isKind.ascii character isAscii, passes]
          rw [utf8EncodeChar_of_ascii isAscii, List.singleton_append,
            List.takeWhile_cons_of_pos passesByte, List.takeWhile_cons_of_pos passes,
            List.length_cons, List.length_cons, ← inductionHypothesis, bytes]
      | false =>
          rcases exists_utf8EncodeChar character with ⟨others, encoded⟩
          have fails : ¬ ofByte (Search.leadByte character) = true := by
            rw [isKind.leadByte, passes]
            exact Bool.false_ne_true
          rw [encoded, List.cons_append, List.takeWhile_cons_of_neg fails,
            List.takeWhile_cons_of_neg (by simp [passes])]
          rfl

/-- Only characters of the kind consist of bytes of the kind. -/
theorem forall_mem_bytes_iff {characters : List Char} :
    (∀ byte ∈ bytes characters, ofByte byte = true) ↔
      ∀ character ∈ characters, ofCharacter character = true := by
  constructor
  · intro ofBytes character isMember
    rcases exists_utf8EncodeChar character with ⟨others, encoded⟩
    rw [← isKind.leadByte]
    exact ofBytes _ (List.mem_flatMap.mpr ⟨character, isMember, by simp [encoded]⟩)
  · intro ofCharacters byte isMember
    rcases List.mem_flatMap.mp isMember with ⟨character, isCharacter, isByte⟩
    have passes := ofCharacters character isCharacter
    have isAscii := isKind.foreign character passes
    rw [utf8EncodeChar_of_ascii isAscii, List.mem_singleton] at isByte
    rw [isByte, isKind.ascii character isAscii, passes]

end IsKind

/-! ## Slices -/

theorem isValid_utf8ByteSize (front back : String) :
    String.Pos.Raw.IsValid (front ++ back) ⟨front.utf8ByteSize⟩ :=
  String.Pos.Raw.isValid_iff_exists_append.mpr ⟨front, back, rfl, rfl⟩

/-- A slice between characters can be taken. -/
theorem slice?_append (front middle back : String) :
    slice? (front ++ middle ++ back) front.utf8ByteSize
      (front.utf8ByteSize + middle.utf8ByteSize) = some middle := by
  have first := isValid_utf8ByteSize front (middle ++ back)
  have last := isValid_utf8ByteSize (front ++ middle) back
  rw [← String.append_assoc] at first
  rw [String.utf8ByteSize_append] at last
  have cut :
      (front.toByteArray ++ (middle.toByteArray ++ back.toByteArray)).extract
        (front.toByteArray.size + 0) (front.toByteArray.size + middle.toByteArray.size) =
      middle.toByteArray := by
    rw [ByteArray.extract_append_size_add, ByteArray.extract_append_eq_left rfl]
  rw [slice?, dif_pos ⟨first, last, Nat.le_add_right _ _⟩, Option.some_inj,
    ← String.toByteArray_inj, String.toByteArray_extract]
  change (front ++ middle ++ back).toByteArray.extract front.utf8ByteSize
    (front.utf8ByteSize + middle.utf8ByteSize) = middle.toByteArray
  rw [String.append_assoc, String.toByteArray_append, String.toByteArray_append]
  exact cut

/-- A slice that begins inside a character cannot be taken. -/
example : slice? "é" 1 2 = none := by
  decide +kernel

end ClassStore.Search
