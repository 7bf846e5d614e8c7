import ClassStore.Backend
import ClassStore.Catalog.Attribute
import ClassStore.Schema.Gtin
import ClassStore.Schema.SchemaError
import ClassStore.Search.Operator
import ClassStore.Sql.Literal
import ClassStore.Text.DecimalDigit
import ClassStore.Text.Fields
import ClassStore.Text.Numeral
import ClassStore.Text.Truth

/-!
# Domains of the semantic types

The domain of a type is the set of values that it admits.  Defaults are tested
against it before they are written into a schema.  The database tests the same
domain with the predicate that `domainCheck` writes.

Two of the domains are given by a pattern, which a library of regular expressions
matches.  `isVersion` and `isMediaType` are what its documentation says that the two
patterns match: both are anchored to the whole text, `$` is only its end and never a line
break before it, `\d` is a decimal digit of any script, and letters are matched in the
case in which they are written.
-/

namespace ClassStore.Schema

open ClassStore.Catalog

/-- The pattern of version numbers, for the database. -/
def versionPattern : String :=
  "^v?\\d+(\\.\\d+)*$"

/-- The pattern of media types, for the database. -/
def mediaTypePattern : String :=
  "^[a-z]+/[a-z0-9.+-]+$"

/-- The text behind `v?`: a v in front is always matched, since it is no digit. -/
def withoutVersionMark : List Char → List Char
  | 'v' :: rest => rest
  | characters => characters

/-- The text matches `versionPattern`: it is runs of decimal digits separated by points,
perhaps after a v. -/
def isVersion (text : String) : Bool :=
  (Text.fieldsFrom '.' [] (withoutVersionMark text.toList)).all fun field =>
    !field.isEmpty && field.all Text.isDecimalDigit

/-- A character of the class `[a-z]`. -/
def isSmallLetter (character : Char) : Bool :=
  'a' ≤ character && character ≤ 'z'

/-- A character of the class `[a-z0-9.+-]`, in which the last hyphen stands for itself. -/
def isSubtypeCharacter (character : Char) : Bool :=
  isSmallLetter character || character.isDigit || character = '.' || character = '+' ||
    character = '-'

/-- The text matches `mediaTypePattern`: it is two parts with a slash between them, which no
character of either part is. -/
def isMediaType (text : String) : Bool :=
  match Text.fieldsFrom '/' [] text.toList with
  | [kind, subtype] =>
      !kind.isEmpty && kind.all isSmallLetter && !subtype.isEmpty &&
        subtype.all isSubtypeCharacter
  | _ => false

/-- The integer is in the range of the type. -/
def inRange (type : SemanticType) (value : Int) : Bool :=
  match type with
  | .whole => 0 ≤ value
  | .posint => 0 < value
  | .state => -1 ≤ value && value ≤ 2
  | _ => true

/-- The text is in the domain of a type that is not integral. -/
def inTextDomain (type : SemanticType) (text : String) : Bool :=
  match type with
  | .boolean => (Text.truth? text).isSome
  | .operator => (Search.Operator.ofWord? text).isSome
  | .mediaType => isMediaType text
  | .version => isVersion text
  | .gtin => isGtin text
  | _ => true

/-- What is wrong with a text as a default of the type. -/
def defaultFault? (type : SemanticType) (text : String) : Option DefaultFault :=
  if type.isIntegral then
    match Text.int64? text with
    | none => some .notInteger
    | some value => if inRange type value.toInt then none else some (.outOfRange type)
  else if inTextDomain type text then
    none
  else
    some (.notValid type)

/-- Tests a default of a class's attribute. -/
def validateDefault (key : String) (attr : Attribute) (value : String) :
    Except SchemaError Unit :=
  match defaultFault? attr.type value with
  | none => .ok ()
  | some fault => .error (.invalidDefault key attr.name value fault)

/-- The operator that matches a regular expression. -/
def regexOperator : Backend → String
  | .postgres => "~"
  | .sqlite => "REGEXP"

/-- One weighted digit of a trade item number, as SQLite computes it. -/
def gtinDigitSql (value : String) (position : Nat) : String :=
  "SUBSTR('00000000000000' || " ++ value ++ ", LENGTH(" ++ value ++ ") + " ++
    toString position ++ ", 1) * " ++ (if position % 2 = 1 then "3" else "1")

/-- The predicate that holds of trade item numbers. -/
def gtinCheck (backend : Backend) (value : String) : String :=
  match backend with
  | .postgres => "isa_gtin(" ++ value ++ ")"
  | .sqlite =>
      let digits := (List.range gtinLength).map fun index => gtinDigitSql value (index + 1)
      "LENGTH(" ++ value ++ ") BETWEEN 8 AND 14 AND " ++ value ++
        " NOT GLOB '*[^0-9]*' AND (" ++ String.intercalate " + " digits ++ ") % 10 = 0"

/-- The words of the operators as SQL literals. -/
def operatorLiterals : String :=
  String.intercalate ", " (Search.Operator.every.map fun operator => Sql.literal operator.word)

/-- The predicate that holds of the type's values, unless all values are admitted. -/
def domainCheck (backend : Backend) (type : SemanticType) (value : String) : Option String :=
  match type with
  | .whole => some (value ++ " >= 0")
  | .posint => some (value ++ " > 0")
  | .state => some (value ++ " BETWEEN -1 AND 2")
  | .boolean => some (value ++ " IN (0, 1)")
  | .operator => some (value ++ " IN (" ++ operatorLiterals ++ ")")
  | .mediaType =>
      some (value ++ " " ++ regexOperator backend ++ " " ++ Sql.literal mediaTypePattern)
  | .version =>
      some (value ++ " " ++ regexOperator backend ++ " " ++ Sql.literal versionPattern)
  | .gtin => some (gtinCheck backend value)
  | _ => none

/-- The column type that a backend gives to values of the type. -/
def columnType? (backend : Backend) (type : SemanticType) : Option String :=
  match backend, type with
  | _, .unknown _ => none
  | .postgres, .string => some "TEXT"
  | .postgres, .attributePath => some "TEXT"
  | .postgres, .whole => some "WHOLE"
  | .postgres, .posint => some "POSINT"
  | .postgres, .integer => some "INTEGER"
  | .postgres, .boolean => some "BOOLEAN"
  | .postgres, .uuid => some "UUID"
  | .postgres, .state => some "STATE"
  | .postgres, .version => some "VERSION"
  | .postgres, .duration => some "INTERVAL"
  | .postgres, .datetime => some "TIMESTAMP"
  | .postgres, .operator => some "OPERATOR"
  | .postgres, .mediaType => some "MEDIA_TYPE"
  | .postgres, .gtin => some "GTIN"
  | .postgres, .binary => some "BYTEA"
  | .sqlite, .whole => some "INTEGER"
  | .sqlite, .posint => some "INTEGER"
  | .sqlite, .integer => some "INTEGER"
  | .sqlite, .state => some "INTEGER"
  | .sqlite, .boolean => some "SMALLINT"
  | .sqlite, .binary => some "BLOB"
  | .sqlite, _ => some "TEXT"

end ClassStore.Schema
