import ClassStore.Schema.Default

/-!
# Tables and indexes

The table of a class has the number of the object and a column for each stored
attribute.  An index may be limited to the rows of live objects, which are those
whose state is above minus one.
-/

namespace ClassStore.Schema

open ClassStore.Catalog

/-- How the number of an object gets into its row. -/
inductive IdColumn where
  | drawn (sequence : String)
  | given
  | counted
  | givenKey
deriving DecidableEq, Repr

def IdColumn.sql : IdColumn → String
  | .drawn sequence => "id INTEGER NOT NULL DEFAULT NEXTVAL('" ++ sequence ++ "')"
  | .given => "id INTEGER NOT NULL"
  | .counted => "id INTEGER PRIMARY KEY AUTOINCREMENT"
  | .givenKey => "id INTEGER NOT NULL PRIMARY KEY"

/-- The number column of the class table. -/
def ClassSetting.idColumn (setting : ClassSetting) : IdColumn :=
  match setting.backend, setting.isRoot with
  | .postgres, true => .drawn setting.sequence
  | .postgres, false => .given
  | .sqlite, true => .counted
  | .sqlite, false => .givenKey

/-- A column for an attribute. -/
structure Column where
  name : String
  type : String
  required : Bool
  default : Option DefaultValue
deriving DecidableEq, Repr

def Column.sql (backend : Backend) (column : Column) : String :=
  column.name ++ " " ++ column.type ++
    (if column.required then " NOT NULL" else "") ++
    (match column.default with
    | some value => " DEFAULT " ++ value.sql backend
    | none => "")

/-- A table for the objects of a class. -/
structure Table where
  name : String
  id : IdColumn
  columns : List Column
deriving DecidableEq, Repr

def Table.sql (backend : Backend) (table : Table) : String :=
  "CREATE TABLE " ++ table.name ++ " (\n    " ++
    String.intercalate ",\n    " (table.id.sql :: table.columns.map (Column.sql backend)) ++
    "\n);"

/-- The names of the columns, the number first. -/
def Table.columnNames (table : Table) : List String :=
  "id" :: table.columns.map Column.name

/-- The column type of a stored attribute; references are numbers of objects. -/
def storageType? (backend : Backend) (attr : Attribute) : Option String :=
  if attr.isReference then some "INTEGER" else columnType? backend attr.type

/-- The column of a stored attribute, unless its type has no mapping. -/
def ClassSetting.columnFor (setting : ClassSetting) (attr : Attribute) :
    Except SchemaError Column :=
  match storageType? setting.backend attr with
  | some type =>
      .ok ⟨attr.storageColumn, type, attr.flags.required, setting.config.default? attr⟩
  | none => .error (.unmappedType setting.objectClass.key attr.name attr.type)

/-- The columns of stored attributes, up to the first that has none. -/
def ClassSetting.columnsFor (setting : ClassSetting) :
    List Attribute → Except SchemaError (List Column)
  | [] => .ok []
  | attr :: attributes => do
      let column ← setting.columnFor attr
      let columns ← setting.columnsFor attributes
      .ok (column :: columns)

def ClassSetting.table (setting : ClassSetting) : Except SchemaError Table := do
  let columns ← setting.columnsFor setting.objectClass.stored
  .ok ⟨setting.objectClass.table, setting.idColumn, columns⟩

/-- An index of a table, perhaps only of the rows whose state column is above minus one. -/
structure Index where
  name : String
  table : String
  unique : Bool
  expressions : List String
  liveState : Option String
deriving DecidableEq, Repr

def Index.sql (index : Index) : String :=
  "CREATE " ++ (if index.unique then "UNIQUE " else "") ++ "INDEX " ++ index.name ++
    " ON " ++ index.table ++ " (" ++ String.intercalate ", " index.expressions ++ ")" ++
    (match index.liveState with
    | some state => " WHERE " ++ state ++ " > -1"
    | none => "") ++ ";"

/-- Values of the attribute are told apart without regard to letter case. -/
def foldsAttribute (attr : Attribute) : Bool :=
  attr.type.isCaseFolded && !attr.isReference

/-- What an index on the attribute covers. -/
def indexExpression (attr : Attribute) : String :=
  if foldsAttribute attr then
    "LOWER(" ++ attr.storageColumn ++ ")"
  else
    attr.storageColumn

/-- The index of an attribute of the class. -/
def ClassSetting.indexOn (setting : ClassSetting) (attr : Attribute) (unique : Bool)
    (liveState : Option String) : Index where
  name := "idx_" ++ setting.objectClass.key ++ "_" ++ attr.storageColumn
  table := setting.objectClass.table
  unique := unique
  expressions := [indexExpression attr]
  liveState := liveState

/--
The index that an attribute needs.

Values that must differ among live objects only are indexed together with the
state.  Where the state is kept in another table no index can do that.
-/
def ClassSetting.indexFor? (setting : ClassSetting) (attr : Attribute) : Option Index :=
  if attr.flags.unique then
    match setting.state? with
    | none => some (setting.indexOn attr true none)
    | some (holder, state) =>
        if attr.flags.distinct then
          some (setting.indexOn attr true none)
        else if holder.key = setting.objectClass.key then
          some (setting.indexOn attr true (some state.storageColumn))
        else
          none
  else if attr.flags.indexed || attr.isReference then
    some (setting.indexOn attr false none)
  else
    none

def ClassSetting.indexes (setting : ClassSetting) : List Index :=
  setting.objectClass.stored.filterMap setting.indexFor?

end ClassStore.Schema
