import ClassStore.Schema.Domain
import ClassStore.Schema.Setting

/-!
# Defaults of columns

The value that a new object gets where none is supplied.  The same expression
stands in the table of a class and in the statements that insert through its
view.
-/

namespace ClassStore.Schema

open ClassStore.Catalog

/-- A default value. -/
inductive DefaultValue where
  | generated (expression : String)
  | integer (numeral : String)
  | truth (value : Bool)
  | text (value : String)
deriving DecidableEq, Repr

/-- The expression that makes a new unique number; SQLite wants it in parentheses. -/
def uuidExpression : Backend → String
  | .postgres => "gen_random_uuid()"
  | .sqlite =>
      "(lower(hex(randomblob(4)) || '-' || hex(randomblob(2)) || '-4' || " ++
        "substr(hex(randomblob(2)), 2) || '-' || " ++
        "substr('89ab', 1 + (abs(random()) % 4), 1) || " ++
        "substr(hex(randomblob(2)), 2) || '-' || hex(randomblob(6))))"

/-- A truth value as a backend writes it. -/
def truthLiteral : Backend → Bool → String
  | .postgres, true => "true"
  | .postgres, false => "false"
  | .sqlite, true => "1"
  | .sqlite, false => "0"

/-- The default as a backend writes it. -/
def DefaultValue.sql (backend : Backend) : DefaultValue → String
  | .generated expression => expression
  | .integer numeral => numeral
  | .truth value => truthLiteral backend value
  | .text value => Sql.literal value

/-- The default that a declared text stands for. -/
def DefaultValue.ofText (type : SemanticType) (text : String) : DefaultValue :=
  if type = .boolean then
    .truth (Text.truth? text == some true)
  else if type.isIntegral then
    .integer text
  else
    .text text

/-- The default of an attribute; unique numbers are generated if none is declared. -/
def Config.default? (config : Config) (attr : Attribute) : Option DefaultValue :=
  match attr.initial with
  | some text => some (DefaultValue.ofText attr.type text)
  | none =>
      if attr.type = .uuid then
        some (.generated (config.uuidGenerator.getD (uuidExpression config.backend)))
      else
        none

end ClassStore.Schema
