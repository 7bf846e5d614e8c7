import ClassStore.Catalog.SemanticType
import ClassStore.Search.Mismatch
import ClassStore.Text.Truth

/-!
# Values of an attribute

Tokens carry only text.  The type of the attribute decides which value a text
stands for.
-/

namespace ClassStore.Search

open ClassStore.Catalog

/-- What a value of the type is called where a text is not one. -/
def expectedValue (type : SemanticType) : String :=
  if type.isIntegral then
    "an integer"
  else if type = .boolean then
    "a boolean"
  else
    "a date"

/-- The value that a text stands for, if it stands for one of the type. -/
def readValue? (type : SemanticType) (text : String) : Option Scalar :=
  if type.isIntegral then
    (Text.int64? text).map Scalar.integer
  else if type = .boolean then
    (Text.truth? text).map Scalar.boolean
  else if type = .datetime then
    (Date.PartialDate.read? text).map Scalar.date
  else
    some (.string text)

/-- The value that a text stands for, or why it stands for none of the type. -/
def coerce (type : SemanticType) (text : String) : Except Mismatch Scalar :=
  match readValue? type text with
  | some value => .ok value
  | none => .error (.unreadable text (expectedValue type))

end ClassStore.Search
