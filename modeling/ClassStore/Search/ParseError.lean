import ClassStore.Search.Token
import ClassStore.Search.Mismatch

/-!
# Faults of a search

The reasons for which tokens are not a search on a class.  A fault of grammar
quotes the tokens around the place where it was found.
-/

namespace ClassStore.Search

/-- The deepest nesting of groups that a search may have. -/
def maxDepth : Nat :=
  128

/-- What the grammar asks for and the tokens do not give. -/
inductive SyntaxFault where
  | separatorExpected
  | searchExpected
  | statementExpected
  | markExpected (mark : String)
  | nestedTooDeep
  | emptyGroup (combinator : Combinator)
  | valueExpected
  | unknownComparison
  | comparisonValueExpected (operator : Operator)
  | operandExpected
  | itemExpected (closing : String)
  | itemSeparatorExpected (closing : String)
  | pairExpected (found : Nat)
  | itemsExpected
deriving DecidableEq, Repr

def SyntaxFault.message : SyntaxFault → String
  | .separatorExpected => "expected `,` between searches"
  | .searchExpected => "expected a search"
  | .statementExpected => "expected an attribute name, AND or OR"
  | .markExpected mark => "expected `" ++ mark ++ "`"
  | .nestedTooDeep => "groups nested deeper than " ++ toString maxDepth
  | .emptyGroup combinator => "empty " ++ combinator.word ++ " group"
  | .valueExpected => "expected a value"
  | .unknownComparison => "unknown comparison"
  | .comparisonValueExpected operator => operator.word ++ " needs a value"
  | .operandExpected => "expected a value, comparison, BETWEEN or ANY"
  | .itemExpected closing => "expected a value or `" ++ closing ++ "`"
  | .itemSeparatorExpected closing => "expected `,` or `" ++ closing ++ "`"
  | .pairExpected found => "BETWEEN needs exactly two values, found " ++ toString found
  | .itemsExpected => "ANY needs at least one value"

/-- Why tokens are not a search on a class. -/
inductive ParseError where
  | lexical (failure : LexError)
  | malformed (fault : SyntaxFault) (near : String)
  | unknownAttribute (path key : String)
  | unknownClass (key : String)
  | typeMismatch (path : String) (mismatch : Mismatch)
deriving DecidableEq, Repr

def ParseError.message : ParseError → String
  | .lexical failure => failure.message
  | .malformed fault near => "syntax error: " ++ fault.message ++ ", near `" ++ near ++ "`"
  | .unknownAttribute path key => unknownAttributeReport path key
  | .unknownClass key => "unknown class `" ++ key ++ "`"
  | .typeMismatch path mismatch => mismatch.report path

end ClassStore.Search
