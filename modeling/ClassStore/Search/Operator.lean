/-!
# Operators of a search

A search compares an attribute with values by one of eight comparisons, or by
one of the two operators that take several values.  Searches are combined by
AND and OR.  All of them are written as capital words.
-/

namespace ClassStore.Search

/-- How the members of a group are combined. -/
inductive Combinator where
  | all
  | any
deriving DecidableEq, Repr

namespace Combinator

/-- The word that a group begins with. -/
def word : Combinator → String
  | .all => "AND"
  | .any => "OR"

def ofWord? (text : String) : Option Combinator :=
  [all, any].find? fun combinator => combinator.word == text

end Combinator

/-- The operators that compare an attribute with one value. -/
inductive Comparison where
  | eq
  | ne
  | like
  | gt
  | lt
  | ge
  | le
  | regex
deriving DecidableEq, Repr

namespace Comparison

/-- The word that stands for the comparison. -/
def word : Comparison → String
  | .eq => "EQ"
  | .ne => "NE"
  | .like => "LIKE"
  | .gt => "GT"
  | .lt => "LT"
  | .ge => "GE"
  | .le => "LE"
  | .regex => "MATCH"

def every : List Comparison :=
  [.eq, .ne, .like, .gt, .lt, .ge, .le, .regex]

def ofWord? (text : String) : Option Comparison :=
  every.find? fun comparison => comparison.word == text

/-- The comparison that holds of exactly the other values, where there is one. -/
def inverse? : Comparison → Option Comparison
  | .eq => some .ne
  | .ne => some .eq
  | .gt => some .le
  | .lt => some .ge
  | .ge => some .lt
  | .le => some .gt
  | .like => none
  | .regex => none

/-- The comparison asks for the order of values. -/
def isOrdering : Comparison → Bool
  | .gt | .lt | .ge | .le => true
  | .eq | .ne | .like | .regex => false

end Comparison

/-- The operators of a search. -/
inductive Operator where
  | compare (comparison : Comparison)
  | between
  | any
deriving DecidableEq, Repr

namespace Operator

/-- The word that stands for the operator. -/
def word : Operator → String
  | .compare comparison => comparison.word
  | .between => "BETWEEN"
  | .any => "ANY"

def every : List Operator :=
  Comparison.every.map compare ++ [.between, .any]

def ofWord? (text : String) : Option Operator :=
  every.find? fun operator => operator.word == text

/-- The operator that holds of exactly the other values, where there is one. -/
def inverse? : Operator → Option Operator
  | .compare comparison => comparison.inverse?.map compare
  | .between => none
  | .any => none

/-- The operator asks for the order of values. -/
def isOrdering : Operator → Bool
  | .compare comparison => comparison.isOrdering
  | .between => false
  | .any => false

/-- Reading the word of an operator gives the operator back. -/
@[simp]
theorem ofWord?_word
    (operator : Operator) :
    ofWord? operator.word = some operator := by
  cases operator with
  | compare comparison => cases comparison <;> decide
  | between => decide
  | any => decide

end Operator

end ClassStore.Search
