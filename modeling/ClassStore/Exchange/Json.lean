/-!
# Values of JSON

Descriptors and settings are exchanged as JSON.  A number is an integer if it is
written as one and fits into 64 bits, with or without a sign; any other number
is kept as it is written.  The members of an object keep their order.  Nothing is
decoded from an object in which a field that is asked for stands twice.
-/

namespace ClassStore.Exchange

/-- A value of JSON. -/
inductive Json where
  | null
  | boolean (value : Bool)
  | integer (value : Int)
  | decimal (numeral : String)
  | string (value : String)
  | array (items : List Json)
  | object (members : List (String × Json))
deriving Inhabited

namespace Json

/-- The member of an object with the given name. -/
def get? (json : Json) (name : String) : Option Json :=
  match json with
  | .object members => members.lookup name
  | _ => none

/-- The text that the value is. -/
def string? : Json → Option String
  | .string value => some value
  | _ => none

/-- The truth value that the value is. -/
def boolean? : Json → Option Bool
  | .boolean value => some value
  | _ => none

/-- The integer that the value is. -/
def integer? : Json → Option Int
  | .integer value => some value
  | _ => none

/-- The items of the array that the value is. -/
def array? : Json → Option (List Json)
  | .array items => some items
  | _ => none

/-- The number of values that 64 bits have. -/
def range64 : Nat :=
  18446744073709551616

/-- The natural number that the value is, if it fits into 64 bits. -/
def count? : Json → Option UInt64
  | .integer value =>
      if 0 ≤ value ∧ value < range64 then some (UInt64.ofNat value.toNat) else none
  | _ => none

/-- Decodes every item of an array. -/
def list? {Output : Type} (decode : Json → Option Output) (json : Json) :
    Option (List Output) :=
  json.array?.bind fun items => items.mapM decode

/-- Decodes a value for whose absence null may stand. -/
def optional? {Output : Type} (decode : Json → Option Output) : Json → Option (Option Output)
  | .null => some none
  | json => (decode json).map some

/--
Decodes one of some words.

A word may also be written as an object whose only member has the word as its
name and null as its value.
-/
def word? {Output : Type} (words : List (String × Output)) : Json → Option Output
  | .string value => words.lookup value
  | .object [(name, .null)] => words.lookup name
  | _ => none

/-- The list of optional items, filled up to the given length. -/
def fill : Nat → List Json → List (Option Json)
  | 0, _ => []
  | length + 1, [] => none :: fill length []
  | length + 1, item :: items => some item :: fill length items

/-- At most one of the members has the name. -/
def isAtMostOnce (name : String) (members : List (String × Json)) : Bool :=
  members.countP (fun member => member.1 == name) ≤ 1

/--
The fields of a record with the given names, each if it is there.

A record is written as an object, whose other members are ignored, or as the
array of its fields, from which fields may be missing at the end.  A field that
stands twice in the object is an error.
-/
def record? (names : List String) : Json → Option (List (Option Json))
  | .object members =>
      if names.all fun name => isAtMostOnce name members then
        some (names.map fun name => members.lookup name)
      else
        none
  | .array items =>
      if items.length ≤ names.length then some (fill names.length items) else none
  | _ => none

/-- Decodes a field of a record, which has a default if it is absent. -/
def field? {Output : Type} (decode : Json → Option Output) (absent : Output) :
    Option Json → Option Output
  | none => some absent
  | some json => decode json

/-- Encodes a value, or its absence as null. -/
def ofOption {Input : Type} (encode : Input → Json) : Option Input → Json
  | none => .null
  | some value => encode value

/-- Encodes every value of a list. -/
def ofList {Input : Type} (encode : Input → Json) (values : List Input) : Json :=
  .array (values.map encode)

end Json

end ClassStore.Exchange
