import ClassStore.Search.Operator
import ClassStore.Search.Scalar

/-!
# Searches as terms

A search built as a value: attribute paths with operands, grouped by AND and
OR.  `Term.listText` writes a list of terms in the textual form of a search,
with string values quoted so that the text is read back as the same search.
-/

namespace ClassStore.Search

/-- What an attribute is compared with. -/
inductive Operand where
  | scalar (value : Scalar)
  | undefined
  | compare (comparison : Comparison) (value : Scalar)
  | between (low high : Scalar)
  | list (values : List Scalar)
  | any (values : List Scalar)
  | negation (operand : Operand)

/-- A search of one attribute, or a group of terms. -/
inductive Term where
  | search (path : String) (operand : Operand)
  | group (combinator : Combinator) (members : List Term)

def undefinedWord : String :=
  "NULL"

/-- Puts a backslash in front of every single quote and backslash. -/
def escape : List Char → List Char
  | [] => []
  | character :: rest =>
      if character = '\'' ∨ character = '\\' then
        '\\' :: character :: escape rest
      else
        character :: escape rest

def quote (text : String) : String :=
  String.ofList ('\'' :: escape text.toList ++ ['\''])

/-- A scalar as a search writes it: numbers bare, everything else quoted. -/
def Scalar.written : Scalar → String
  | .integer value => (Scalar.integer value).text
  | .boolean value => (Scalar.boolean value).text
  | .string value => quote value
  | .date value => quote value.text

/-- The values of a list as a search writes them. -/
def Scalar.listWritten (values : List Scalar) : String :=
  String.intercalate ", " (values.map Scalar.written)

/-- An operand as a search writes it. -/
def Operand.text : Operand → String
  | .scalar value => value.written
  | .undefined => undefinedWord
  | .compare comparison value => comparison.word ++ " " ++ value.written
  | .between low high => "BETWEEN [" ++ Scalar.listWritten [low, high] ++ "]"
  | .list values => "[" ++ Scalar.listWritten values ++ "]"
  | .any values => "ANY(" ++ Scalar.listWritten values ++ ")"
  | .negation operand => "NOT " ++ operand.text

mutual

/-- A term as a search writes it. -/
def Term.text : Term → String
  | .search path operand => path ++ " => " ++ operand.text
  | .group combinator members =>
      combinator.word ++ "(" ++ String.intercalate ", " (Term.texts members) ++ ")"

/-- Each of the terms as a search writes it. -/
def Term.texts : List Term → List String
  | [] => []
  | term :: terms => term.text :: Term.texts terms

end

/-- A list of terms as a search writes it. -/
def Term.listText (terms : List Term) : String :=
  String.intercalate ", " (Term.texts terms)

end ClassStore.Search
