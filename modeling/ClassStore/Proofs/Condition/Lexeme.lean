import ClassStore.Search.Token
import ClassStore.Text.Blank

/-!
# Lexemes of SQL

The text of a condition consists of words, signs of comparison, literals and
marks.  `Reads` says that a text stands for some lexemes wherever what follows
does not continue its last one.  Texts of this kind are put together by blanks
and marks.
-/

namespace ClassStore.Query

open ClassStore.Search

/-- A part of a condition that is read as one. -/
inductive Lexeme where
  | word (characters : List Char)
  | sign (characters : List Char)
  | literal (characters : List Char)
  | mark (character : Char)
deriving DecidableEq, Repr

namespace Lexeme

/-- The word with the given letters. -/
def ofWord (word : String) : Lexeme :=
  .word word.toList

/-- The characters that signs of comparison consist of. -/
def isSignCharacter (character : Char) : Bool :=
  ['=', '!', '<', '>', '~', '*'].contains character

/-- The apostrophe on both sides of a literal. -/
def apostrophe : Char :=
  '\''

/-- The beginning of a lexeme that may go on. -/
inductive Beginning where
  | nothing
  | word (characters : List Char)
  | sign (characters : List Char)
  | literal (characters : List Char)
deriving DecidableEq

/-- The lexeme that a beginning is if it does not go on. -/
def Beginning.lexemes : Beginning → List Lexeme
  | .nothing => []
  | .word characters => [.word characters]
  | .sign characters => [.sign characters]
  | .literal characters => [.literal characters]

/-- The lexemes that end with a character, and the beginning that is left behind it. -/
def Beginning.next (beginning : Beginning) (character : Char) : List Lexeme × Beginning :=
  match beginning with
  | .literal characters =>
      if character = apostrophe then
        ([.literal characters], .nothing)
      else
        ([], .literal (characters ++ [character]))
  | beginning =>
      if isWordCharacter character then
        match beginning with
        | .word characters => ([], .word (characters ++ [character]))
        | beginning => (beginning.lexemes, .word [character])
      else if isSignCharacter character then
        match beginning with
        | .sign characters => ([], .sign (characters ++ [character]))
        | beginning => (beginning.lexemes, .sign [character])
      else if character = apostrophe then
        (beginning.lexemes, .literal [])
      else if Text.isBlank character then
        (beginning.lexemes, .nothing)
      else
        (beginning.lexemes ++ [.mark character], .nothing)

/-- The lexemes of a text that goes on from a beginning. -/
def scan (beginning : Beginning) : List Char → List Lexeme
  | [] => beginning.lexemes
  | character :: characters =>
      (beginning.next character).1 ++ scan (beginning.next character).2 characters

/-- The lexemes of a text. -/
def ofText (text : String) : List Lexeme :=
  scan .nothing text.toList

/-- The name consists of letters, digits, underscores and points only. -/
def isPlainName (name : String) : Bool :=
  !name.isEmpty && name.toList.all isWordCharacter

/-- The text consists of characters of signs only. -/
def isSign (text : String) : Bool :=
  !text.isEmpty && text.toList.all fun character =>
    isSignCharacter character && !isWordCharacter character

/-! ## Texts and their lexemes -/

/-- What follows neither continues a word nor a sign. -/
def Detached (rest : List Char) : Prop :=
  ∀ follower ∈ rest.head?,
    isWordCharacter follower = false ∧ isSignCharacter follower = false

theorem Detached.nil : Detached [] := by
  simp [Detached]

/-- The marks that stand between the other lexemes of a condition. -/
def isSeparatingMark (character : Char) : Bool :=
  ['(', ')', ',', '?'].contains character

theorem Detached.mark
    {character : Char}
    (separating : isSeparatingMark character = true)
    (rest : List Char) :
    Detached (character :: rest) := by
  simp only [isSeparatingMark, List.contains_eq_mem, List.mem_cons, List.not_mem_nil, or_false,
    decide_eq_true_eq] at separating
  rcases separating with rfl | rfl | rfl | rfl <;> simp [Detached] <;> decide

theorem Detached.blank (rest : List Char) : Detached (' ' :: rest) := by
  simp only [Detached, List.head?_cons, Option.mem_def, Option.some.injEq, forall_eq']
  decide

/-- A beginning outside of literals ends in front of what does not continue it. -/
theorem scan_of_detached
    {beginning : Beginning}
    (outside : ∀ characters, beginning ≠ .literal characters)
    {rest : List Char}
    (detached : Detached rest) :
    scan beginning rest = beginning.lexemes ++ scan .nothing rest := by
  cases rest with
  | nil => simp [scan, Beginning.lexemes]
  | cons follower rest =>
      rcases detached follower rfl with ⟨noWord, noSign⟩
      have ends : beginning.next follower =
          (beginning.lexemes ++ (Beginning.nothing.next follower).1,
            (Beginning.nothing.next follower).2) := by
        cases beginning with
        | literal characters => exact absurd rfl (outside characters)
        | nothing => rfl
        | word characters =>
            simp only [Beginning.next, noWord, noSign, Bool.false_eq_true, if_false]
            split
            · simp [Beginning.lexemes]
            · split <;> simp [Beginning.lexemes]
        | sign characters =>
            simp only [Beginning.next, noWord, noSign, Bool.false_eq_true, if_false]
            split
            · simp [Beginning.lexemes]
            · split <;> simp [Beginning.lexemes]
      rw [scan, scan, ends, List.append_assoc]

/-- In front of anything that does not continue it, the text stands for the lexemes. -/
def Reads (characters : List Char) (lexemes : List Lexeme) : Prop :=
  ∀ rest, Detached rest →
    scan .nothing (characters ++ rest) = lexemes ++ scan .nothing rest

theorem Reads.nil : Reads [] [] :=
  fun _ _ => rfl

/-- A text that stands for lexemes stands for them alone. -/
theorem Reads.ofText_eq
    {text : String}
    {lexemes : List Lexeme}
    (reads : Reads text.toList lexemes) :
    ofText text = lexemes := by
  have alone := reads [] Detached.nil
  simpa [ofText, scan, Beginning.lexemes] using alone

/-- Texts with a blank between them stand for the lexemes of both. -/
theorem Reads.blank
    {front back : List Char}
    {frontLexemes backLexemes : List Lexeme}
    (frontReads : Reads front frontLexemes)
    (backReads : Reads back backLexemes) :
    Reads (front ++ ' ' :: back) (frontLexemes ++ backLexemes) := by
  intro rest detached
  have skipped : Beginning.nothing.next ' ' = ([], .nothing) := rfl
  rw [List.append_assoc, List.cons_append, frontReads _ (Detached.blank _), scan, skipped,
    List.nil_append, backReads rest detached, List.append_assoc]

theorem Reads.mark
    {front back : List Char}
    {frontLexemes backLexemes : List Lexeme}
    (frontReads : Reads front frontLexemes)
    (character : Char)
    (separating : isSeparatingMark character = true)
    (backReads : Reads back backLexemes) :
    Reads (front ++ character :: back) (frontLexemes ++ .mark character :: backLexemes) := by
  intro rest detached
  have marked : Beginning.nothing.next character = ([.mark character], .nothing) := by
    simp only [isSeparatingMark, List.contains_eq_mem, List.mem_cons, List.not_mem_nil, or_false,
      decide_eq_true_eq] at separating
    rcases separating with rfl | rfl | rfl | rfl <;> decide
  rw [List.append_assoc, List.cons_append, frontReads _ (Detached.mark separating _), scan,
    marked, backReads rest detached, List.append_assoc]
  rfl

theorem scan_word
    (begun : List Char)
    {characters : List Char}
    (all : ∀ character ∈ characters, isWordCharacter character = true)
    (rest : List Char) :
    scan (.word begun) (characters ++ rest) = scan (.word (begun ++ characters)) rest := by
  induction characters generalizing begun with
  | nil => simp
  | cons character characters inductionHypothesis =>
      have ofWord : isWordCharacter character = true := all character List.mem_cons_self
      have others : ∀ other ∈ characters, isWordCharacter other = true := fun other member =>
        all other (List.mem_cons_of_mem _ member)
      have goesOn : (Beginning.word begun).next character =
          ([], .word (begun ++ [character])) := by
        simp [Beginning.next, ofWord]
      rw [List.cons_append, scan, goesOn, List.nil_append, inductionHypothesis _ others,
        List.append_assoc, List.singleton_append]

theorem reads_word
    {name : String}
    (plain : isPlainName name = true) :
    Reads name.toList [ofWord name] := by
  simp only [isPlainName, Bool.and_eq_true, Bool.not_eq_true', String.isEmpty_eq_false_iff,
    List.all_eq_true] at plain
  rcases plain with ⟨nonempty, all⟩
  intro rest detached
  cases characters : name.toList with
  | nil => exact absurd (String.toList_eq_nil_iff.mp characters) nonempty
  | cons first following =>
      rw [characters] at all
      have ofWord : isWordCharacter first = true := all first List.mem_cons_self
      have others : ∀ other ∈ following, isWordCharacter other = true := fun other member =>
        all other (List.mem_cons_of_mem _ member)
      have begins : Beginning.nothing.next first = ([], .word [first]) := by
        simp [Beginning.next, ofWord, Beginning.lexemes]
      rw [List.cons_append, scan, begins, List.nil_append, scan_word [first] others,
        scan_of_detached (by simp) detached]
      simp [Beginning.lexemes, Lexeme.ofWord, characters]

theorem scan_sign
    (begun : List Char)
    {characters : List Char}
    (all : ∀ character ∈ characters,
      isSignCharacter character = true ∧ isWordCharacter character = false)
    (rest : List Char) :
    scan (.sign begun) (characters ++ rest) = scan (.sign (begun ++ characters)) rest := by
  induction characters generalizing begun with
  | nil => simp
  | cons character characters inductionHypothesis =>
      rcases all character List.mem_cons_self with ⟨ofSign, noWord⟩
      have goesOn : (Beginning.sign begun).next character =
          ([], .sign (begun ++ [character])) := by
        simp [Beginning.next, ofSign, noWord]
      rw [List.cons_append, scan, goesOn, List.nil_append,
        inductionHypothesis _ fun other member => all other (List.mem_cons_of_mem _ member),
        List.append_assoc, List.singleton_append]

theorem reads_sign
    {characters : List Char}
    (nonempty : characters ≠ [])
    (all : ∀ character ∈ characters,
      isSignCharacter character = true ∧ isWordCharacter character = false) :
    Reads characters [.sign characters] := by
  intro rest detached
  cases characters with
  | nil => exact absurd rfl nonempty
  | cons first following =>
      rcases all first List.mem_cons_self with ⟨ofSign, noWord⟩
      have begins : Beginning.nothing.next first = ([], .sign [first]) := by
        simp [Beginning.next, ofSign, noWord, Beginning.lexemes]
      rw [List.cons_append, scan, begins, List.nil_append,
        scan_sign [first] fun other member => all other (List.mem_cons_of_mem _ member),
        scan_of_detached (by simp) detached]
      simp [Beginning.lexemes]

/-- A literal goes on up to its second apostrophe. -/
theorem scan_literal
    (begun : List Char)
    {characters : List Char}
    (unquoted : ∀ character ∈ characters, character ≠ apostrophe)
    (rest : List Char) :
    scan (.literal begun) (characters ++ apostrophe :: rest) =
      .literal (begun ++ characters) :: scan .nothing rest := by
  induction characters generalizing begun with
  | nil => simp [scan, Beginning.next]
  | cons character characters inductionHypothesis =>
      have inside : character ≠ apostrophe := unquoted character List.mem_cons_self
      have goesOn : (Beginning.literal begun).next character =
          ([], .literal (begun ++ [character])) := by
        simp [Beginning.next, inside]
      rw [List.cons_append, scan, goesOn, List.nil_append,
        inductionHypothesis _ fun other member => unquoted other (List.mem_cons_of_mem _ member),
        List.append_assoc, List.singleton_append]

theorem reads_literal
    {characters : List Char}
    (unquoted : ∀ character ∈ characters, character ≠ apostrophe) :
    Reads (apostrophe :: (characters ++ [apostrophe])) [.literal characters] := by
  intro rest detached
  have begins : Beginning.nothing.next apostrophe = ([], .literal []) := rfl
  rw [List.cons_append, scan, begins, List.nil_append, List.append_assoc, List.singleton_append,
    scan_literal [] unquoted]
  rfl

end Lexeme

end ClassStore.Query
