/-!
# Blank characters

Two classes of blank are told apart.  Between the tokens of a search only the
five ASCII blanks may stand.  An excerpt quoted in an error ends at any
character that Unicode calls white space.  `isWhiteSpace_of_isBlank` says that
the first class lies inside the second.
-/

namespace ClassStore.Text

/-- The blanks that separate tokens: space, tab, line feed, form feed and return. -/
def isBlank (character : Char) : Bool :=
  character = ' ' || character = '\t' || character = '\n' ||
    character = '\x0c' || character = '\r'

/-- The characters with the Unicode property `White_Space`. -/
def isWhiteSpace (character : Char) : Bool :=
  let code := character.toNat
  (0x09 ≤ code && code ≤ 0x0D) || code = 0x20 || code = 0x85 || code = 0xA0 ||
    code = 0x1680 || (0x2000 ≤ code && code ≤ 0x200A) || code = 0x2028 ||
    code = 0x2029 || code = 0x202F || code = 0x205F || code = 0x3000

theorem isWhiteSpace_of_isBlank
    {character : Char}
    (blank : isBlank character = true) :
    isWhiteSpace character = true := by
  simp only [isBlank, Bool.or_eq_true, decide_eq_true_eq] at blank
  rcases blank with (((rfl | rfl) | rfl) | rfl) | rfl <;> decide

end ClassStore.Text
