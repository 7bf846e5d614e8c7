import ClassStore.Schema.Default
import ClassStore.Schema.Trigger

/-!
# Writing through views

The view of a class is made writable by rules or triggers.  An insert adds a
row to every table of the chain, an update changes them, and a delete removes
the row from the last table to the first.  A class that extends or mediates
another writes delegated values through to the view of that class: on insert it
creates the other object, or updates the one that is linked.
-/

namespace ClassStore.Schema

open ClassStore.Catalog

/-- A value that is written. -/
inductive Expression where
  | new (column : String)
  | old (column : String)
  | newOrDefault (column : String) (default : DefaultValue)
  | newOrKept (column kept : String)
  | nextNumber (sequence : String)
  | currentNumber (sequence : String)
  | greatestNumber (table : String)
  | lastRow
deriving DecidableEq, Repr

/-- The value as a backend writes it. -/
def Expression.sql (backend : Backend) : Expression → String
  | .new column => "NEW." ++ column
  | .old column => "OLD." ++ column
  | .newOrDefault column value => "COALESCE(NEW." ++ column ++ ", " ++ value.sql backend ++ ")"
  | .newOrKept column kept => "COALESCE(NEW." ++ column ++ ", " ++ kept ++ ")"
  | .nextNumber sequence => "NEXTVAL('" ++ sequence ++ "')"
  | .currentNumber sequence => "CURRVAL('" ++ sequence ++ "')"
  | .greatestNumber table => "(SELECT MAX(id) FROM " ++ table ++ ")"
  | .lastRow => "last_insert_rowid()"

/-- A column and the value that an update writes to it. -/
structure Assignment where
  column : String
  value : Expression
deriving DecidableEq, Repr

/--
A statement that writes to a table or a view.

An insert has its columns and its values in two lists, and a value belongs to the column
in the same place.
-/
inductive WriteStatement where
  | insert (target : String) (columns : List String) (values : List Expression)
  | update (target : String) (assignments : List Assignment) (id : Expression)
  | delete (target : String)
deriving DecidableEq, Repr

/-- The assignment as an update writes it. -/
def Assignment.sql (backend : Backend) (assignment : Assignment) : String :=
  assignment.column ++ " = " ++ assignment.value.sql backend

/-- The statement as a backend writes it, without its end. -/
def WriteStatement.sql (backend : Backend) : WriteStatement → String
  | .insert target columns values =>
      "INSERT INTO " ++ target ++ " (" ++ String.intercalate ", " columns ++ ")\nVALUES (" ++
        String.intercalate ", " (values.map (Expression.sql backend)) ++ ")"
  | .update target assignments id =>
      "UPDATE " ++ target ++ "\nSET    " ++
        String.intercalate ",\n       " (assignments.map (Assignment.sql backend)) ++
        "\nWHERE  id = " ++ id.sql backend
  | .delete target => "DELETE FROM " ++ target ++ "\nWHERE  id = OLD.id"

/-- What is done to a view. -/
inductive ViewEvent where
  | insert
  | update
  | delete
deriving DecidableEq, Repr

def ViewEvent.sql : ViewEvent → String
  | .insert => "INSERT"
  | .update => "UPDATE"
  | .delete => "DELETE"

def ViewEvent.every : List ViewEvent :=
  [.insert, .update, .delete]

/-- Which rows a write is for: those whose column is empty, or those whose column is not. -/
structure WriteCondition where
  column : String
  isEmpty : Bool
deriving DecidableEq, Repr

def WriteCondition.sql (condition : WriteCondition) : String :=
  "NEW." ++ condition.column ++ (if condition.isEmpty then " IS NULL" else " IS NOT NULL")

/-- What a view does in place of a write. -/
structure ViewWrite where
  name : String
  event : ViewEvent
  view : String
  condition : Option WriteCondition
  statements : List WriteStatement
deriving DecidableEq, Repr

/-- The rule or trigger that runs statements in place of a write to a view. -/
def viewWriteSql (backend : Backend) (name : String) (event : ViewEvent) (view : String)
    (condition : Option String) (statements : List String) : String :=
  match backend with
  | .postgres =>
      "CREATE RULE " ++ name ++ " AS\nON " ++ event.sql ++ " TO " ++ view ++
        (match condition with
        | some condition => " WHERE " ++ condition
        | none => "") ++
        " DO INSTEAD (\n" ++ statementBlock statements ++ "\n);"
  | .sqlite =>
      triggerSql
        ("CREATE TRIGGER " ++ name ++ "\nINSTEAD OF " ++ event.sql ++ " ON " ++ view ++
          "\nFOR EACH ROW")
        condition statements

/-- The rule or trigger for a write. -/
def ViewWrite.sql (backend : Backend) (write : ViewWrite) : String :=
  viewWriteSql backend write.name write.event write.view
    (write.condition.map WriteCondition.sql)
    (write.statements.map (WriteStatement.sql backend))

/-- The number that a new row of a root table gets, unless the table counts by itself. -/
def ClassSetting.rootNumber? (setting : ClassSetting) : Option Expression :=
  match setting.backend with
  | .postgres => some (.nextNumber setting.sequence)
  | .sqlite => none

/-- The number that was last given to an object of a root class. -/
def lastNumber (backend : Backend) (root : ObjectClass) : Expression :=
  match backend with
  | .postgres => .currentNumber (sequenceName root)
  | .sqlite => .greatestNumber root.table

/-- The number that the new rows below the root table get. -/
def ClassSetting.inheritedNumber (setting : ClassSetting) : Expression :=
  match setting.backend with
  | .postgres => lastNumber .postgres setting.root
  | .sqlite => .lastRow

/-- The stored attributes of a class and its ancestors, which its view accepts. -/
def writableAttributes (catalog : Catalog) (key : String) : List Attribute :=
  (catalog.chain key).flatMap ObjectClass.stored

/-- The new value of an attribute, or its default. -/
def Config.newValue (config : Config) (attr : Attribute) : Expression :=
  match config.default? attr with
  | some value => .newOrDefault attr.viewColumn value
  | none => .new attr.viewColumn

/-- The attribute is the link of the class, seen from an attribute of some class of its chain. -/
def ClassSetting.isLink (setting : ClassSetting) (owner : ObjectClass) (attr : Attribute) :
    Bool :=
  owner.key == setting.objectClass.key &&
    setting.objectClass.link?.any fun link => link.name == attr.name

/-- The value that an attribute gets, where the link may be given. -/
def ClassSetting.insertedValue (setting : ClassSetting) (linked : Option Expression)
    (owner : ObjectClass) (attr : Attribute) : Expression :=
  match linked with
  | some number =>
      if setting.isLink owner attr then number else setting.config.newValue attr
  | none => setting.config.newValue attr

/-- The insert into the table of one class of the chain. -/
def ClassSetting.insertRow (setting : ClassSetting) (linked : Option Expression)
    (number : Option Expression) (owner : ObjectClass) : WriteStatement :=
  .insert owner.table
    ((number.map fun _ => "id").toList ++ owner.stored.map Attribute.storageColumn)
    (number.toList ++ owner.stored.map (setting.insertedValue linked owner))

/-- The inserts into all tables of the chain, the root first. -/
def ClassSetting.insertRows (setting : ClassSetting) (linked : Option Expression) :
    List WriteStatement :=
  match setting.chain with
  | [] => []
  | root :: descendants =>
      setting.insertRow linked setting.rootNumber? root ::
        descendants.map (setting.insertRow linked (some setting.inheritedNumber))

/-- The column of a class view that shows a column of the linked object. -/
def linkedColumn (link attr : Attribute) : String :=
  link.name ++ "__" ++ attr.viewColumn

/-- Creates an object to link to from the new values. -/
def createTarget (catalog : Catalog) (target : ObjectClass) (link : Attribute) :
    WriteStatement :=
  let attributes := writableAttributes catalog target.key
  .insert target.view (attributes.map Attribute.viewColumn)
    (attributes.map fun attr => .new (linkedColumn link attr))

/-- Changes the linked object where new values are given. -/
def amendTarget (catalog : Catalog) (target : ObjectClass) (link : Attribute) :
    WriteStatement :=
  .update target.view
    ((writableAttributes catalog target.key).map fun attr =>
      ⟨attr.viewColumn, .newOrKept (linkedColumn link attr) attr.viewColumn⟩)
    (.new link.viewColumn)

/-- Gives the linked object the new values. -/
def updateTarget (catalog : Catalog) (target : ObjectClass) (link : Attribute) :
    WriteStatement :=
  .update target.view
    ((writableAttributes catalog target.key).map fun attr =>
      ⟨attr.viewColumn, .new (linkedColumn link attr)⟩)
    (.new link.viewColumn)

/-- The insert into a class without a link. -/
def ClassSetting.plainInsert (setting : ClassSetting) : ViewWrite where
  name := "insert_" ++ setting.objectClass.key
  event := .insert
  view := setting.objectClass.view
  condition := none
  statements := setting.insertRows none

/-- The insert that creates the object to link to. -/
def ClassSetting.creatingInsert (setting : ClassSetting) (target : ObjectClass)
    (link : Attribute) : ViewWrite :=
  let targetRoot := (setting.catalog.root? target.key).getD target
  { name := "insert_" ++ setting.objectClass.key
    event := .insert
    view := setting.objectClass.view
    condition := some ⟨link.viewColumn, true⟩
    statements :=
      createTarget setting.catalog target link ::
        setting.insertRows (some (lastNumber setting.backend targetRoot)) }

/-- The insert that links to an existing object. -/
def ClassSetting.linkingInsert (setting : ClassSetting) (target : ObjectClass)
    (link : Attribute) : ViewWrite where
  name := "extend_" ++ setting.objectClass.key
  event := .insert
  view := setting.objectClass.view
  condition := some ⟨link.viewColumn, false⟩
  statements := amendTarget setting.catalog target link :: setting.insertRows none

/-- What the class view does on insert. -/
def ClassSetting.inserts (setting : ClassSetting) : Except SchemaError (List ViewWrite) := do
  let identity ← setting.identity
  match identity with
  | none => .ok [setting.plainInsert]
  | some (target, link) =>
      .ok [setting.creatingInsert target link, setting.linkingInsert target link]

/-- The updates of the tables of the chain that have columns to update. -/
def ClassSetting.updateRows (setting : ClassSetting) : List WriteStatement :=
  (setting.chain.filter fun owner => !owner.stored.isEmpty).map fun owner =>
    .update owner.table
      (owner.stored.map fun attr => ⟨attr.storageColumn, .new attr.viewColumn⟩)
      (.old "id")

/-- What the class view does on update. -/
def ClassSetting.updates (setting : ClassSetting) : Except SchemaError ViewWrite := do
  let identity ← setting.identity
  let written :=
    match identity with
    | none => []
    | some (target, link) => [updateTarget setting.catalog target link]
  .ok {
    name := "update_" ++ setting.objectClass.key
    event := .update
    view := setting.objectClass.view
    condition := none
    statements := setting.updateRows ++ written }

/-- What the class view does on delete; an extended or mediated object stays. -/
def ClassSetting.deletes (setting : ClassSetting) : ViewWrite where
  name := "delete_" ++ setting.objectClass.key
  event := .delete
  view := setting.objectClass.view
  condition := none
  statements := setting.chain.reverse.map fun owner => .delete owner.table

end ClassStore.Schema
