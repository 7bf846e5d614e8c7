import ClassStore.Search.Operator
import ClassStore.Search.Scalar

/-!
# Conditions of SQL

A compiled search is a condition built from columns, placeholders and
comparisons.  `Fragment.sql` writes it for a backend.  The backends differ only
in how they format the segments of a date and in their operator for regular
expressions.
-/

namespace ClassStore.Query

open ClassStore.Search

/-- The comparisons that a condition is written with. -/
inductive SqlComparison where
  | eq
  | ne
  | lt
  | le
  | gt
  | ge
  | like
  | notLike
  | regex
  | notRegex
deriving DecidableEq, Repr

namespace SqlComparison

/-- The comparison of a search, or the one that holds where it does not. -/
def ofComparison : Comparison → Bool → SqlComparison
  | .eq, false => .eq
  | .eq, true => .ne
  | .ne, false => .ne
  | .ne, true => .eq
  | .gt, false => .gt
  | .gt, true => .le
  | .lt, false => .lt
  | .lt, true => .ge
  | .ge, false => .ge
  | .ge, true => .lt
  | .le, false => .le
  | .le, true => .gt
  | .like, false => .like
  | .like, true => .notLike
  | .regex, false => .regex
  | .regex, true => .notRegex

/-- The comparison of an operator that takes one value. -/
def ofOperator? : Operator → Bool → Option SqlComparison
  | .compare comparison, negated => some (ofComparison comparison negated)
  | .between, _ => none
  | .any, _ => none

/-- The comparison as a backend writes it. -/
def sql : Backend → SqlComparison → String
  | _, .eq => "="
  | _, .ne => "!="
  | _, .lt => "<"
  | _, .le => "<="
  | _, .gt => ">"
  | _, .ge => ">="
  | _, .like => "LIKE"
  | _, .notLike => "NOT LIKE"
  | .postgres, .regex => "~*"
  | .postgres, .notRegex => "!~*"
  | .sqlite, .regex => "REGEXP"
  | .sqlite, .notRegex => "NOT REGEXP"

end SqlComparison

/-- A condition, or a part of one. -/
inductive Fragment where
  | column (name : String) (folded : Bool)
  | placeholder (folded : Bool)
  | datePart (column : String) (segments : Date.SegmentSet)
  | compare (left : Fragment) (comparison : SqlComparison) (right : Fragment)
  | between (subject low high : Fragment) (negated : Bool)
  | among (subject : Fragment) (items : List Fragment) (negated : Bool)
  | isNull (subject : Fragment) (negated : Bool)
  | group (combinator : Combinator) (members : List Fragment) (parenthesized : Bool)

namespace Fragment

/-- Applies the function that makes letter case irrelevant. -/
def foldedSql (folded : Bool) (expression : String) : String :=
  if folded then "LOWER(" ++ expression ++ ")" else expression

/-- A date column formatted as the given segments. -/
def datePartSql (column : String) (segments : Date.SegmentSet) : Backend → String
  | .postgres => "TO_CHAR(" ++ column ++ ", '" ++ segments.pattern .postgres ++ "')"
  | .sqlite => "STRFTIME('" ++ segments.pattern .sqlite ++ "', " ++ column ++ ")"

/-- The word in front of a negated operator. -/
def negation (negated : Bool) : String :=
  if negated then "NOT " else ""

/-- What stands between the members of a group. -/
def separator (combinator : Combinator) : String :=
  " " ++ combinator.word ++ " "

mutual

/-- The condition as a backend writes it. -/
def sql (backend : Backend) : Fragment → String
  | .column name folded => foldedSql folded name
  | .placeholder folded => foldedSql folded "?"
  | .datePart name segments => datePartSql name segments backend
  | .compare left comparison right =>
      left.sql backend ++ " " ++ comparison.sql backend ++ " " ++ right.sql backend
  | .between subject low high negated =>
      subject.sql backend ++ " " ++ negation negated ++ "BETWEEN " ++
        low.sql backend ++ " AND " ++ high.sql backend
  | .among subject items negated =>
      subject.sql backend ++ " " ++ negation negated ++ "IN (" ++
        String.intercalate ", " (sqls backend items) ++ ")"
  | .isNull subject negated =>
      subject.sql backend ++ " IS " ++ negation negated ++ "NULL"
  | .group combinator members parenthesized =>
      let text := String.intercalate (separator combinator) (sqls backend members)
      if parenthesized then "(" ++ text ++ ")" else text

/-- Each of the conditions as a backend writes it. -/
def sqls (backend : Backend) : List Fragment → List String
  | [] => []
  | fragment :: fragments => fragment.sql backend :: sqls backend fragments

end

end Fragment

end ClassStore.Query
