import ClassStore.Date.Notation

/-!
# Scalars of a search

The values that attributes are compared with.  The kind of a scalar decides
which scalars may stand together; dates agree only if the same segments are
defined.
-/

namespace ClassStore.Search

open ClassStore.Date

/-- A value that an attribute is compared with. -/
inductive Scalar where
  | string (value : String)
  | integer (value : Int64)
  | boolean (value : Bool)
  | date (value : PartialDate)
deriving DecidableEq

/-- What a scalar is, for dates with their defined segments. -/
inductive ScalarKind where
  | string
  | integer
  | boolean
  | date (segments : SegmentSet)
deriving DecidableEq, Repr

/-- What a scalar is, without regard to the segments of a date. -/
inductive ScalarVariant where
  | string
  | integer
  | boolean
  | date
deriving DecidableEq, Repr

def ScalarKind.text : ScalarKind → String
  | .string => "string"
  | .integer => "integer"
  | .boolean => "boolean"
  | .date segments =>
      if segments = SegmentSet.full then "date" else "date (" ++ segments.text ++ ")"

/-- The kind without the segments of a date. -/
def ScalarKind.variant : ScalarKind → ScalarVariant
  | .string => .string
  | .integer => .integer
  | .boolean => .boolean
  | .date _ => .date

namespace Scalar

def kind : Scalar → ScalarKind
  | .string _ => .string
  | .integer _ => .integer
  | .boolean _ => .boolean
  | .date value => .date value.segments

/-- The kind of a scalar without the segments of a date. -/
def variant (scalar : Scalar) : ScalarVariant :=
  scalar.kind.variant

/-- The date that the scalar is, if it is one. -/
def date? : Scalar → Option PartialDate
  | .date value => some value
  | _ => none

/-- The plain text of a scalar, as a token carries it. -/
def text : Scalar → String
  | .string value => value
  | .integer value => toString value.toInt
  | .boolean value => if value then "1" else "0"
  | .date value => value.text

end Scalar

end ClassStore.Search
