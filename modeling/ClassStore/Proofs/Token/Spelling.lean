import ClassStore.Proofs.Token.Position
import ClassStore.Search.Term
import ClassStore.Search.Token.Walker

/-!
# Spellings of tokens

A text spells some tokens if the scanner, standing in front of the text,
delivers the tokens and comes to stand behind it, whatever follows that does not
continue a word.  Words, numbers, quoted values and marks spell their tokens,
and spellings are put together by marks and blanks.  The main statement is
`spells_terms`: the written form of terms spells their tokens.
-/

namespace ClassStore.Search

open TokenStream

/-! ## Classes of characters -/

theorem isDigit_eq_false_of_isAlpha
    {character : Char}
    (letter : character.isAlpha = true) :
    character.isDigit = false := by
  rw [Bool.eq_false_iff]
  intro digit
  have highest : character.val ≤ 57 := of_decide_eq_true (Bool.and_eq_true_iff.mp digit).2
  have lowest : 65 ≤ character.val := by
    rcases Bool.or_eq_true_iff.mp letter with upper | lower
    · exact (of_decide_eq_true upper).1
    · have above : 97 ≤ character.val := of_decide_eq_true (Bool.and_eq_true_iff.mp lower).1
      exact UInt32.le_trans (by decide) above
  exact absurd (UInt32.le_trans lowest highest) (by decide)

theorem isWordCharacter_of_isAlpha
    {character : Char}
    (letter : character.isAlpha = true) :
    isWordCharacter character = true := by
  simp [isWordCharacter, Char.isAlphanum, letter]

theorem isWordCharacter_of_isDigit
    {character : Char}
    (digit : character.isDigit = true) :
    isWordCharacter character = true := by
  simp [isWordCharacter, Char.isAlphanum, digit]

theorem ne_of_isWordCharacter
    {character other : Char}
    (ofWord : isWordCharacter character = true)
    (notOfWord : isWordCharacter other = false) :
    character ≠ other := by
  rintro rfl
  simp [notOfWord] at ofWord

theorem isBlank_eq_false_of_isWordCharacter
    {character : Char}
    (ofWord : isWordCharacter character = true) :
    Text.isBlank character = false := by
  rw [Bool.eq_false_iff]
  intro blank
  simp only [Text.isBlank, Bool.or_eq_true, decide_eq_true_eq] at blank
  rcases blank with (((rfl | rfl) | rfl) | rfl) | rfl <;> simp [isWordCharacter] at ofWord

/-- What follows does not continue a word or a number. -/
def Bounded (rest : List Char) : Prop :=
  ∀ follower ∈ rest.head?, isWordCharacter follower = false

theorem Bounded.nil : Bounded [] := by
  simp [Bounded]

theorem Bounded.cons
    {character : Char}
    (boundary : isWordCharacter character = false)
    (rest : List Char) :
    Bounded (character :: rest) := by
  simpa [Bounded] using boundary

/-- What follows a text is bounded if the text is and what follows the text is. -/
theorem Bounded.append
    {characters rest : List Char}
    (bounded : Bounded characters)
    (following : Bounded rest) :
    Bounded (characters ++ rest) := by
  cases characters with
  | nil => exact following
  | cons character characters => simpa [Bounded] using bounded

/-- The longest run of word characters ends where a word does. -/
theorem takeWhile_append_of_bounded
    {belongs : Char → Bool}
    (belongs_isWordCharacter : ∀ character, belongs character = true →
      isWordCharacter character = true)
    {characters rest : List Char}
    (all : ∀ character ∈ characters, belongs character = true)
    (bounded : Bounded rest) :
    (characters ++ rest).takeWhile belongs = characters := by
  rw [List.takeWhile_append_of_pos all]
  cases rest with
  | nil => simp
  | cons follower rest =>
      have outside : isWordCharacter follower = false := bounded follower rfl
      have stops : belongs follower = false := by
        rw [Bool.eq_false_iff]
        intro inside
        simp [belongs_isWordCharacter follower inside] at outside
      simp [stops]

namespace Scanner

/-! ## Single steps of the scanner -/

theorem next_blank (rest : List Char) (offset : Nat) :
    next ⟨' ' :: rest, offset⟩ = next ⟨rest, offset + 1⟩ :=
  next_congr (skipBlanks_append (List.forall_mem_singleton.mpr rfl) rest offset)

theorem next_lexeme
    {first : Char}
    {rest : List Char}
    {token : Token}
    {length : Nat}
    (visible : Text.isBlank first = false)
    (unquoted : first ≠ '\'' ∧ first ≠ '"')
    (read : lexeme? (first :: rest) = some (token, length))
    (offset : Nat) :
    next ⟨first :: rest, offset⟩ =
      (.ok (some token), advance ⟨first :: rest, offset⟩ length) := by
  rw [next_eq_iff_step, skipBlanks_of_visible rfl visible]
  exact .lexeme rfl (not_or.mpr unquoted) read

theorem next_literal
    {quote : Char}
    {following contents : List Char}
    {length : Nat}
    (isQuote : quote = '\'' ∨ quote = '"')
    (read : literal? quote following = some (contents, length))
    (offset : Nat) :
    next ⟨quote :: following, offset⟩ =
      (.ok (some ⟨.value, String.ofList contents⟩),
        advance ⟨quote :: following, offset⟩ (length + 1)) := by
  have visible : Text.isBlank quote = false := by
    rcases isQuote with rfl | rfl <;> decide
  rw [next_eq_iff_step, skipBlanks_of_visible rfl visible]
  exact .literal rfl isQuote read

/-! ## Spellings -/

/-- In front of the characters the scanner delivers the tokens and stands behind them. -/
def Spells (characters : List Char) (tokens : List Token) : Prop :=
  ∀ rest offset, Bounded rest →
    ∃ after, Run next ⟨characters ++ rest, offset⟩ tokens ⟨rest, after⟩

theorem Spells.nil : Spells [] [] :=
  fun _ offset _ => ⟨offset, .stop _⟩

/-- Two spellings follow each other if the second does not continue a word. -/
theorem Spells.append
    {front back : List Char}
    {frontTokens backTokens : List Token}
    (frontSpells : Spells front frontTokens)
    (backSpells : Spells back backTokens)
    (boundary : Bounded back) :
    Spells (front ++ back) (frontTokens ++ backTokens) := by
  intro rest offset bounded
  obtain ⟨between, frontRun⟩ :=
    frontSpells (back ++ rest) offset (boundary.append bounded)
  obtain ⟨after, backRun⟩ := backSpells rest between bounded
  rw [← List.append_assoc] at frontRun
  exact ⟨after, frontRun.append backRun⟩

/-- A blank may stand in front of a spelling. -/
theorem Spells.blank_cons
    {characters : List Char}
    {token : Token}
    {tokens : List Token}
    (spells : Spells characters (token :: tokens)) :
    Spells (' ' :: characters) (token :: tokens) := by
  intro rest offset bounded
  obtain ⟨after, run⟩ := spells rest (offset + 1) bounded
  exact ⟨after, run.of_next_eq (next_blank _ _) (List.cons_ne_nil _ _)⟩

theorem Spells.mark_cons
    (mark : Char)
    {characters : List Char}
    {tokens : List Token}
    (isMark : Scanner.isMark mark = true)
    (spells : Spells characters tokens) :
    Spells (mark :: characters) (Token.mark (String.singleton mark) :: tokens) := by
  intro rest offset bounded
  obtain ⟨after, run⟩ := spells rest (offset + mark.utf8Size) bounded
  have delivered : next ⟨mark :: (characters ++ rest), offset⟩ =
      (.ok (some (Token.mark (String.singleton mark))),
        advance ⟨mark :: (characters ++ rest), offset⟩ 1) := by
    have marks := isMark
    simp only [Scanner.isMark, Bool.or_eq_true, decide_eq_true_eq] at marks
    apply next_lexeme
    · rcases marks with (((rfl | rfl) | rfl) | rfl) | rfl <;> decide
    · rcases marks with (((rfl | rfl) | rfl) | rfl) | rfl <;> decide
    · rcases marks with (((rfl | rfl) | rfl) | rfl) | rfl <;>
        simp [lexeme?, beginsNumber, Scanner.isMark]
  exact ⟨after, .step delivered (by simpa [advance, byteCount] using run)⟩

/-- An arrow in front of a spelling is a token of its own. -/
theorem Spells.arrow_cons
    {characters : List Char}
    {tokens : List Token}
    (spells : Spells characters tokens) :
    Spells ('=' :: '>' :: characters) (Token.arrow :: tokens) := by
  intro rest offset bounded
  obtain ⟨after, run⟩ := spells rest (offset + 2) bounded
  have width : '='.utf8Size = 1 ∧ '>'.utf8Size = 1 := by decide
  have delivered : next ⟨'=' :: '>' :: (characters ++ rest), offset⟩ =
      (.ok (some Token.arrow), advance ⟨'=' :: '>' :: (characters ++ rest), offset⟩ 2) := by
    apply next_lexeme
    · decide
    · decide
    · simp [lexeme?, beginsNumber]
  exact ⟨after, .step delivered (by simpa [advance, byteCount, width] using run)⟩

/-- A single lexeme that does not depend on what follows spells its token. -/
theorem spells_of_lexeme
    {first : Char}
    {characters : List Char}
    {token : Token}
    (visible : Text.isBlank first = false)
    (unquoted : first ≠ '\'' ∧ first ≠ '"')
    (read : ∀ rest, Bounded rest →
      lexeme? (first :: (characters ++ rest)) = some (token, characters.length + 1)) :
    Spells (first :: characters) [token] := by
  intro rest offset bounded
  have delivered := next_lexeme visible unquoted (read rest bounded) offset
  simp only [advance, List.drop_succ_cons, List.drop_left] at delivered
  exact ⟨_, .step delivered (.stop _)⟩

end Scanner

end ClassStore.Search
