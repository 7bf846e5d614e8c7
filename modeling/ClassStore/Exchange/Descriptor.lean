import ClassStore.Catalog.ObjectClass
import ClassStore.Exchange.Json

/-!
# Descriptors of classes

Classes and attributes as JSON.  Every field may be left out and then has its
default.  Encoding writes every field.
-/

namespace ClassStore.Exchange

open ClassStore.Catalog

/-- The words for what happens when a referred object is deleted. -/
def onDeleteWords : List (String × OnDelete) :=
  [("cascade", .cascade), ("restrict", .restrict), ("set_null", .setNull)]

/-- The words for the relationships between classes. -/
def relationshipWords : List (String × Relationship) :=
  Relationship.every.map fun relationship => (relationship.name, relationship)

/-- The words for where the numbers of objects come from. -/
def keySourceWords : List (String × KeySource) :=
  [("RootSequence", .rootSequence), ("InheritedId", .inherited)]

/-- What happens when a referred object is deleted, as its word. -/
def encodeOnDelete : OnDelete → Json
  | .cascade => .string "cascade"
  | .restrict => .string "restrict"
  | .setNull => .string "set_null"

/-- A relationship as its word. -/
def encodeRelationship (relationship : Relationship) : Json :=
  .string relationship.name

/-- Where the numbers of objects come from, as its word. -/
def encodeKeySource : KeySource → Json
  | .rootSequence => .string "RootSequence"
  | .inherited => .string "InheritedId"

/-- The type that has the name, known or not. -/
def decodeType? (json : Json) : Option SemanticType :=
  json.string?.map SemanticType.ofName

/-- A type as its name. -/
def encodeType (type : SemanticType) : Json :=
  .string type.name

/-- The flags of an attribute; one that is left out is not set. -/
def decodeFlags? (json : Json) : Option Flags := do
  match ← json.record? ["required", "unique", "distinct", "indexed", "persistent", "once"] with
  | [required, unique, distinct, indexed, persistent, once] =>
      let flag := Json.field? Json.boolean? false
      some {
        required := ← flag required
        unique := ← flag unique
        distinct := ← flag distinct
        indexed := ← flag indexed
        persistent := ← flag persistent
        once := ← flag once }
  | _ => none

/-- The flags of an attribute, those that are set and those that are not. -/
def encodeFlags (flags : Flags) : Json :=
  .object [
    ("required", .boolean flags.required),
    ("unique", .boolean flags.unique),
    ("distinct", .boolean flags.distinct),
    ("indexed", .boolean flags.indexed),
    ("persistent", .boolean flags.persistent),
    ("once", .boolean flags.once)]

/-- A reference to a class, which restricts deletion unless it says otherwise. -/
def decodeReference? (json : Json) : Option Reference := do
  match ← json.record? ["class", "on_delete"] with
  | [target, onDelete] =>
      some {
        target := ← Json.field? Json.string? "" target
        onDelete := ← Json.field? (Json.word? onDeleteWords) .restrict onDelete }
  | _ => none

/-- A reference as the class that it refers to and its word for deletion. -/
def encodeReference (reference : Reference) : Json :=
  .object [
    ("class", .string reference.target),
    ("on_delete", encodeOnDelete reference.onDelete)]

/-- The names of the table of a collection; one that is left out is empty. -/
def decodeJunction? (json : Json) : Option Junction := do
  match ← json.record? ["table", "view", "owner_column", "member_column", "order_column"] with
  | [table, view, ownerColumn, memberColumn, orderColumn] =>
      let name := Json.field? Json.string? ""
      some {
        table := ← name table
        view := ← name view
        ownerColumn := ← name ownerColumn
        memberColumn := ← name memberColumn
        orderColumn := ← name orderColumn }
  | _ => none

/-- The names of the table of a collection. -/
def encodeJunction (junction : Junction) : Json :=
  .object [
    ("table", .string junction.table),
    ("view", .string junction.view),
    ("owner_column", .string junction.ownerColumn),
    ("member_column", .string junction.memberColumn),
    ("order_column", .string junction.orderColumn)]

/-- The names of the fields of an attribute, in their order. -/
def attributeFields : List String :=
  ["name", "type", "column", "view_column", "flags", "default", "references", "relationship",
   "delegates_to", "acts_as", "collection"]

/-- An attribute; a type that is left out is that of texts. -/
def decodeAttribute? (json : Json) : Option Attribute := do
  match ← json.record? attributeFields with
  | [name, type, column, viewColumn, flags, initial, reference, relationship, delegatesTo,
      actsAs, junction] =>
      let text := Json.field? Json.string? ""
      let optionalText := Json.field? (Json.optional? Json.string?) none
      some {
        name := ← text name
        type := ← Json.field? decodeType? .string type
        column := ← optionalText column
        viewColumn := ← text viewColumn
        flags := ← Json.field? decodeFlags? Flags.none flags
        initial := ← optionalText initial
        reference := ← Json.field? (Json.optional? decodeReference?) none reference
        relationship :=
          ← Json.field? (Json.optional? (Json.word? relationshipWords)) none relationship
        delegatesTo := ← optionalText delegatesTo
        actsAs := ← optionalText actsAs
        junction := ← Json.field? (Json.optional? decodeJunction?) none junction }
  | _ => none

/-- An attribute with all its fields, those without a value as null. -/
def encodeAttribute (attr : Attribute) : Json :=
  .object [
    ("name", .string attr.name),
    ("type", encodeType attr.type),
    ("column", Json.ofOption Json.string attr.column),
    ("view_column", .string attr.viewColumn),
    ("flags", encodeFlags attr.flags),
    ("default", Json.ofOption Json.string attr.initial),
    ("references", Json.ofOption encodeReference attr.reference),
    ("relationship", Json.ofOption encodeRelationship attr.relationship),
    ("delegates_to", Json.ofOption Json.string attr.delegatesTo),
    ("acts_as", Json.ofOption Json.string attr.actsAs),
    ("collection", Json.ofOption encodeJunction attr.junction)]

/-- The names of the fields of a class, in their order. -/
def classFields : List String :=
  ["key", "table", "view", "parent", "extends", "mediates", "attributes", "pk"]

/-- A class; without a word for it, its objects have numbers from the sequence of their root. -/
def decodeClass? (json : Json) : Option ObjectClass := do
  match ← json.record? classFields with
  | [key, table, view, parent, extended, mediated, attributes, keySource] =>
      let text := Json.field? Json.string? ""
      let optionalText := Json.field? (Json.optional? Json.string?) none
      some {
        key := ← text key
        table := ← text table
        view := ← text view
        parent := ← optionalText parent
        extended := ← optionalText extended
        mediated := ← optionalText mediated
        attributes := ← Json.field? (Json.list? decodeAttribute?) [] attributes
        keySource := ← Json.field? (Json.word? keySourceWords) .rootSequence keySource }
  | _ => none

/-- A class with all its fields and all its attributes in their order. -/
def encodeClass (objectClass : ObjectClass) : Json :=
  .object [
    ("key", .string objectClass.key),
    ("table", .string objectClass.table),
    ("view", .string objectClass.view),
    ("parent", Json.ofOption Json.string objectClass.parent),
    ("extends", Json.ofOption Json.string objectClass.extended),
    ("mediates", Json.ofOption Json.string objectClass.mediated),
    ("attributes", Json.ofList encodeAttribute objectClass.attributes),
    ("pk", encodeKeySource objectClass.keySource)]

end ClassStore.Exchange
