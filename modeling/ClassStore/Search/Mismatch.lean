import ClassStore.Search.Operator
import ClassStore.Search.Scalar

/-!
# Values that do not fit

The reasons for which a value cannot be compared with an attribute, or not by
the operator that is asked for.
-/

namespace ClassStore.Search

/-- Why an operator, an attribute and values do not fit together. -/
inductive Mismatch where
  | unreadable (text expected : String)
  | unlikeBounds (low high : ScalarKind)
  | mixedValues (first odd : ScalarKind)
  | noValues
  | nullOperand (operator : Operator)
  | wrongOperand (operator : Operator)
  | tooFewValues (operator : Operator)
  | dateOperand (operator : Operator)
  | brokenSegments (operator : Operator) (segments : Date.SegmentSet)
deriving DecidableEq, Repr

def Mismatch.message : Mismatch → String
  | .unreadable text expected => "`" ++ text ++ "` is not " ++ expected
  | .unlikeBounds low high => "BETWEEN operands differ: " ++ low.text ++ " and " ++ high.text
  | .mixedValues first odd => "ANY mixes " ++ first.text ++ " and " ++ odd.text
  | .noValues => "ANY needs at least one value"
  | .nullOperand operator => operator.word ++ " can't compare with NULL"
  | .wrongOperand operator => operator.word ++ " doesn't take this kind of value"
  | .tooFewValues operator => operator.word ++ " needs more than one value"
  | .dateOperand operator => operator.word ++ " can't compare dates"
  | .brokenSegments operator segments =>
      operator.word ++ " needs contiguous date segments, got " ++ segments.text

/-- The text of an error about a path that the values do not fit. -/
def Mismatch.report (path : String) (mismatch : Mismatch) : String :=
  "type mismatch for `" ++ path ++ "`: " ++ mismatch.message

/-- The text of an error about a path that is not searchable. -/
def unknownAttributeReport (path key : String) : String :=
  "no searchable attribute `" ++ path ++ "` in class `" ++ key ++ "`"

/-- The first value that is not of the same variant as the given one. -/
def findOdd? (first : Scalar) (values : List Scalar) : Option Scalar :=
  values.find? fun value => value.variant != first.variant

theorem findOdd?_eq_none_iff
    {first : Scalar}
    {values : List Scalar} :
    findOdd? first values = none ↔ ∀ value ∈ values, value.variant = first.variant := by
  simp [findOdd?]

end ClassStore.Search
