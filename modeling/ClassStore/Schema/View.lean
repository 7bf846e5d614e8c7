import ClassStore.Schema.Setting

/-!
# Views

The view of a class joins the tables of its chain.  It shows every stored
attribute and, for a reference, also what the view of the other class shows.
-/

namespace ClassStore.Schema

open ClassStore.Catalog

/-- A column of a view: where it comes from and what it is called. -/
structure SelectItem where
  source : String
  column : String
  name : String
deriving DecidableEq, Repr

/-- The item as a view lists it. -/
def SelectItem.sql (item : SelectItem) : String :=
  item.source ++ "." ++ item.column ++ " AS " ++ item.name

/-- A relation that is joined to the root table. -/
inductive Join where
  | table (name : String)
  | reference (required : Bool) (view name owner column : String)
deriving DecidableEq, Repr

/-- The join as a view writes it; an open reference keeps the row. -/
def Join.sql (root : String) : Join → String
  | .table name => "INNER JOIN " ++ name ++ " ON " ++ root ++ ".id = " ++ name ++ ".id"
  | .reference required view name owner column =>
      (if required then "INNER" else "LEFT") ++ " JOIN " ++ view ++ " AS " ++ name ++
        " ON " ++ owner ++ "." ++ column ++ " = " ++ name ++ ".id"

/-- The view of a class. -/
structure View where
  name : String
  root : String
  items : List SelectItem
  joins : List Join
deriving DecidableEq, Repr

def View.sql (view : View) : String :=
  "CREATE VIEW " ++ view.name ++ " AS\n  SELECT " ++
    String.intercalate ",\n         " (view.items.map SelectItem.sql) ++
    "\n  FROM   " ++
    String.intercalate "\n         " (view.root :: view.joins.map (Join.sql view.root)) ++ ";"

/-- The names of the columns that a view shows. -/
def View.columnNames (view : View) : List String :=
  view.items.map SelectItem.name

/-- The column of a stored attribute itself. -/
def ownItem (table : String) (attr : Attribute) : SelectItem :=
  ⟨table, attr.storageColumn, attr.viewColumn⟩

/-- What a reference shows of the view of the other class. -/
def referenceItems (catalog : Catalog) (attr : Attribute) : List SelectItem :=
  match attr.reference with
  | none => []
  | some reference =>
      ((catalog.viewColumns reference.target).filter (· != "id")).map fun column =>
        ⟨attr.name, column, attr.name ++ "__" ++ column⟩

/-- The columns of a view that belong to one stored attribute. -/
def itemsOf (catalog : Catalog) (table : String) (attr : Attribute) : List SelectItem :=
  ownItem table attr :: referenceItems catalog attr

/-- The join that a stored attribute needs if it is a reference. -/
def joinOf (catalog : Catalog) (table : String) (attr : Attribute) :
    Except SchemaError (List Join) :=
  match attr.reference with
  | none => .ok []
  | some reference => do
      let target ← findClass catalog reference.target
      .ok [.reference attr.flags.required target.view attr.name table attr.storageColumn]

def joinsOf (catalog : Catalog) (table : String) :
    List Attribute → Except SchemaError (List Join)
  | [] => .ok []
  | attr :: attributes => do
      let first ← joinOf catalog table attr
      let others ← joinsOf catalog table attributes
      .ok (first ++ others)

/-- The joins that the classes of a chain need. -/
def chainJoins (catalog : Catalog) (rootKey : String) :
    List ObjectClass → Except SchemaError (List Join)
  | [] => .ok []
  | objectClass :: classes => do
      let own := if objectClass.key = rootKey then [] else [Join.table objectClass.table]
      let references ← joinsOf catalog objectClass.table objectClass.stored
      let others ← chainJoins catalog rootKey classes
      .ok (own ++ references ++ others)

/-- The columns that the classes of a chain show. -/
def chainItems (catalog : Catalog) (chain : List ObjectClass) : List SelectItem :=
  chain.flatMap fun objectClass =>
    objectClass.stored.flatMap (itemsOf catalog objectClass.table)

def ClassSetting.view (setting : ClassSetting) : Except SchemaError View := do
  let joins ← chainJoins setting.catalog setting.root.key setting.chain
  let items := chainItems setting.catalog setting.chain
  .ok ⟨setting.objectClass.view, setting.root.table, ⟨setting.root.table, "id", "id"⟩ :: items,
    joins⟩

end ClassStore.Schema
