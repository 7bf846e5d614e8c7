import ClassStore.Proofs.Text.Numeral
import ClassStore.Sql.Literal

/-!
# Constants of SQL

A string literal is read from its first quote to the first one that is not doubled, so
it denotes its text and ends where it was ended (`readLiteral_doubleQuotes`).  A text
that is such a literal, a numeral or a word for a truth value is one constant: nothing
in it can be read as anything else.
-/

namespace ClassStore.Sql

/-! ## String literals -/

/-- Reads a string literal behind its first quote: what it denotes, and what follows it. -/
def readLiteral : List Char → Option (List Char × List Char)
  | [] => none
  | '\'' :: '\'' :: rest => (readLiteral rest).map (Prod.map (List.cons '\'') id)
  | '\'' :: rest => some ([], rest)
  | character :: rest => (readLiteral rest).map (Prod.map (List.cons character) id)

/-- A quote that is not doubled ends a literal. -/
theorem readLiteral_quote (back : List Char) :
    readLiteral ('\'' :: back) =
      if back.head? = some '\'' then
        (readLiteral back.tail).map (Prod.map (List.cons '\'') id)
      else
        some ([], back) := by
  cases back with
  | nil => rfl
  | cons first back =>
      by_cases doubled : first = '\''
      · simp [readLiteral, doubled]
      · simp [readLiteral, doubled]

/-- The characters of a text are read one by one, whatever follows them. -/
theorem readLiteral_doubleQuotes_append (characters back : List Char) :
    readLiteral (doubleQuotes characters ++ back) =
      (readLiteral back).map (Prod.map (characters ++ ·) id) := by
  induction characters with
  | nil => exact Option.map_id'.symm
  | cons character characters inductionHypothesis =>
      have read : readLiteral (doubleQuotes (character :: characters) ++ back) =
          (readLiteral (doubleQuotes characters ++ back)).map
            (Prod.map (List.cons character) id) := by
        rw [doubleQuotes]
        split
        · next isQuote => simp [readLiteral, isQuote]
        · next noQuote => simp [readLiteral, noQuote]
      rw [read, inductionHypothesis, Option.map_map, Prod.map_comp_map]
      rfl

/-- A literal denotes its text and ends where it was ended, unless another quote follows. -/
theorem readLiteral_doubleQuotes
    {back : List Char}
    (ended : back.head? ≠ some '\'')
    (characters : List Char) :
    readLiteral (doubleQuotes characters ++ '\'' :: back) = some (characters, back) := by
  rw [readLiteral_doubleQuotes_append, readLiteral_quote, if_neg ended]
  simp

/-! ## Constants -/

/-- The text is one constant, and stays one wherever no quote follows it. -/
inductive IsConstant (text : String) : Prop where
  | numeral {sign digits : List Char}
      (split : text.toList = sign ++ digits)
      (isSign : sign ∈ [[], ['-'], ['+']])
      (present : digits ≠ [])
      (areDigits : ∀ digit ∈ digits, digit.isDigit = true)
  | word (isWord : text ∈ ["true", "false", "1", "0"])
  | literal {content body : List Char}
      (quoted : text.toList = '\'' :: body)
      (ends : ∀ back : List Char, back.head? ≠ some '\'' →
        readLiteral (body ++ back) = some (content, back))

theorem isConstant_literal (text : String) : IsConstant (literal text) := by
  have quoted : (literal text).toList = '\'' :: (doubleQuotes text.toList ++ ['\'']) := by
    rw [literal, String.toList_ofList, List.cons_append]
  apply IsConstant.literal quoted
  intro back ended
  rw [List.append_assoc]
  exact readLiteral_doubleQuotes ended text.toList

theorem isConstant_of_int64?
    {text : String}
    {value : Int64}
    (reads : Text.int64? text = some value) :
    IsConstant text := by
  rcases Option.bind_eq_some_iff.mp reads with ⟨_, isNumber, _⟩
  rcases Text.exists_digits_of_signed? isNumber with
    ⟨sign, digits, split, isSign, present, areDigits⟩
  exact .numeral split isSign present areDigits

end ClassStore.Sql
