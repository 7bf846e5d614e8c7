/-!
# String literals of SQL

A string literal stands between single quotes, and a quote inside it is
written twice.
-/

namespace ClassStore.Sql

def doubleQuotes : List Char → List Char
  | [] => []
  | character :: rest =>
      if character = '\'' then
        '\'' :: '\'' :: doubleQuotes rest
      else
        character :: doubleQuotes rest

/-- The string literal that denotes the text. -/
def literal (text : String) : String :=
  String.ofList ('\'' :: doubleQuotes text.toList ++ ['\''])

/-- A quote is written twice and every other character once. -/
theorem count_doubleQuotes
    (wanted : Char)
    (characters : List Char) :
    (doubleQuotes characters).count wanted =
      (if wanted = '\'' then 2 else 1) * characters.count wanted := by
  induction characters with
  | nil => rfl
  | cons character rest inductionHypothesis =>
      by_cases quote : character = '\'' <;> by_cases same : wanted = character <;>
        grind [doubleQuotes]

end ClassStore.Sql
