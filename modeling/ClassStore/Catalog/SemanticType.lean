import ClassStore.Text.Case

/-!
# Semantic types

The type of an attribute says what its values mean.  Type names are recognised
without regard to letter case.  A name that is not known is kept as it is
written, so that it can be reported when a column has to be made for it.
-/

namespace ClassStore.Catalog

/-- What the values of an attribute mean. -/
inductive SemanticType where
  | string
  | whole
  | posint
  | integer
  | boolean
  | uuid
  | state
  | version
  | duration
  | datetime
  | operator
  | mediaType
  | attributePath
  | gtin
  | binary
  | unknown (name : String)
deriving DecidableEq, Repr

namespace SemanticType

/-- The name by which a descriptor gives the type. -/
def name : SemanticType → String
  | .string => "string"
  | .whole => "whole"
  | .posint => "posint"
  | .integer => "integer"
  | .boolean => "boolean"
  | .uuid => "uuid"
  | .state => "state"
  | .version => "version"
  | .duration => "duration"
  | .datetime => "datetime"
  | .operator => "operator"
  | .mediaType => "media_type"
  | .attributePath => "attribute_path"
  | .gtin => "gtin"
  | .binary => "binary"
  | .unknown name => name

/-- The types that have a meaning here. -/
def known : List SemanticType :=
  [.string, .whole, .posint, .integer, .boolean, .uuid, .state, .version,
   .duration, .datetime, .operator, .mediaType, .attributePath, .gtin, .binary]

/-- The type that the name stands for. -/
def ofName (text : String) : SemanticType :=
  (known.find? fun type => Text.sameIgnoringCase type.name text).getD (.unknown text)

def isUnknown : SemanticType → Bool
  | .unknown _ => true
  | _ => false

/-- Values are compared and indexed without regard to letter case. -/
def isCaseFolded : SemanticType → Bool
  | .string | .version => true
  | _ => false

/-- The values are integers, and their defaults have to be. -/
def isIntegral : SemanticType → Bool
  | .whole | .posint | .integer | .state => true
  | _ => false

end SemanticType

end ClassStore.Catalog
