import Mathlib.Data.List.Infix
import Mathlib.Data.List.TakeWhile
import ClassStore.Proofs.Token.Position

/-!
# What a failure quotes

A character that begins no token is reported with an excerpt of the text from there on.
The excerpt is as long as it may be: it ends in front of white space, at the end of the
text, or when it has 24 characters.  `excerpt_of_unexpected` says so for every report.

Between tokens only ASCII blanks are passed over, but the excerpt ends at all white space
of Unicode.  So at white space that is no blank the scanner stops and has nothing to
quote, as `spacedSearch_excerpt_empty` shows.
-/

namespace ClassStore.Search.Scanner

open TokenStream

/-- The longest beginning of the characters without white space, up to 24 of them. -/
structure IsExcerpt (quoted characters : List Char) : Prop where
  isBeginning : quoted <+: characters
  length_le : quoted.length ≤ 24
  visible : ∀ character ∈ quoted, Text.isWhiteSpace character = false
  longest : ∀ other : List Char, other <+: characters → other.length ≤ 24 →
    (∀ character ∈ other, Text.isWhiteSpace character = false) → other <+: quoted

theorem isExcerpt_excerpt (characters : List Char) :
    IsExcerpt (excerpt characters).toList characters := by
  rw [excerpt, String.toList_ofList]
  have begins := List.takeWhile_prefix
    (l := characters) fun character => !Text.isWhiteSpace character
  constructor
  · exact (List.take_prefix _ _).trans begins
  · exact List.length_take_le _ _
  · intro character isQuoted
    simpa using List.mem_takeWhile_imp ((List.take_prefix _ _).subset isQuoted)
  · rintro other ⟨others, rfl⟩ short visible
    rw [List.prefix_take_iff, List.takeWhile_append_of_pos (by simpa using visible)]
    exact ⟨List.prefix_append _ _, short⟩

/-- Nothing is quoted exactly where white space comes first. -/
theorem excerpt_cons_ne_empty_iff {first : Char} {following : List Char} :
    excerpt (first :: following) ≠ "" ↔ Text.isWhiteSpace first = false := by
  rw [excerpt, ne_eq, ← String.toList_eq_nil_iff, String.toList_ofList]
  cases isSpace : Text.isWhiteSpace first <;> simp [isSpace]

/--
A report of unexpected input shows the text at its offset.

Whatever has been asked for before, the offset is that of a position in the text with a
character behind it that is no blank, and what is quoted is an excerpt of the text from
there on.  It is empty only if that character is white space.
-/
theorem excerpt_of_unexpected
    {text fragment : String}
    {requests offset : Nat}
    (reported : (next ((start text).after requests)).1 =
      .error (.unexpectedInput fragment offset)) :
    ∃ first following,
      Divides text offset (first :: following) ∧
      Text.isBlank first = false ∧
      IsExcerpt fragment.toList (first :: following) ∧
      (fragment ≠ "" ↔ Text.isWhiteSpace first = false) := by
  have within : Within text ((start text).after requests) := (within_start text).after requests
  rcases (step_of_answer reported).of_unexpected with ⟨_, rfl, first, following, shape, rfl⟩
  have divides := within.skipBlanks.divides
  rw [shape] at divides
  exact ⟨first, following, divides, isBlank_eq_false_of_rest_skipBlanks shape,
    isExcerpt_excerpt _, excerpt_cons_ne_empty_iff⟩

/-- A lone equals sign is quoted up to the blank behind it. -/
theorem excerpt_of_equals :
    (next ((start "a == 1").after 1)).1 = .error (.unexpectedInput "==" 2) ∧
      ∃ first following,
        Divides "a == 1" 2 (first :: following) ∧
        Text.isBlank first = false ∧
        IsExcerpt "==".toList (first :: following) ∧
        ("==" ≠ "" ↔ Text.isWhiteSpace first = false) := by
  have reported : (next ((start "a == 1").after 1)).1 = .error (.unexpectedInput "==" 2) := by
    decide +kernel
  exact ⟨reported, excerpt_of_unexpected reported⟩

/-- A search with a space that does not break lines between the arrow and the value. -/
def spacedSearch : String :=
  "name =>\u00a0'x'"

/-- The space is unexpected, and nothing is quoted of the text behind the arrow. -/
theorem spacedSearch_excerpt_empty :
    (next ((start spacedSearch).after 2)).1 = .error (.unexpectedInput "" 7) ∧
      spacedSearch.utf8ByteSize = 12 := by
  decide +kernel

end ClassStore.Search.Scanner
