import ClassStore.Catalog.Attribute
import ClassStore.Schema.Table
import ClassStore.Schema.Trigger

/-!
# Ordered collections

The members of a collection and their order are kept in a junction table.  Four
procedures maintain it: one clears the collection, one removes members, one adds
members at the end, and one sets all members with their order.  Setting turns
the old places negative before it gives new ones, so that the unique index on
places is never violated on the way.
-/

namespace ClassStore.Schema

open ClassStore.Catalog

/-- The statement that creates the junction table. -/
def junctionTableSql (junction : Junction) : String :=
  joinLines [
    "CREATE TABLE " ++ junction.table ++ " (",
    "    " ++ junction.ownerColumn ++ " INTEGER NOT NULL,",
    "    " ++ junction.memberColumn ++ " INTEGER NOT NULL,",
    "    " ++ junction.orderColumn ++ " SMALLINT NOT NULL,",
    "    PRIMARY KEY (" ++ junction.ownerColumn ++ ", " ++ junction.memberColumn ++ ")",
    ");"]

def junctionColumns (junction : Junction) : List String :=
  [junction.ownerColumn, junction.memberColumn, junction.orderColumn]

/-- The indexes of the junction table: places are unique, and members are found fast. -/
def junctionIndexes (junction : Junction) : List Index :=
  [⟨"idx_" ++ junction.table ++ "_order", junction.table, true,
      [junction.ownerColumn, junction.orderColumn], none⟩,
   ⟨"idx_" ++ junction.table ++ "_" ++ junction.memberColumn, junction.table, false,
      [junction.memberColumn], none⟩]

/-- The statement that creates the view of a collection with its members in order. -/
def junctionViewSql (junction : Junction) (memberView : String) : String :=
  let owner := junction.table ++ "." ++ junction.ownerColumn
  let order := junction.table ++ "." ++ junction.orderColumn
  joinLines [
    "CREATE VIEW " ++ junction.view ++ " AS",
    "  SELECT " ++ owner ++ " AS " ++ junction.ownerColumn ++ ",",
    "         " ++ order ++ " AS " ++ junction.orderColumn ++ ",",
    "         " ++ memberView ++ ".*",
    "  FROM   " ++ junction.table,
    "         INNER JOIN " ++ memberView ++ " ON " ++ junction.table ++ "." ++
      junction.memberColumn ++ " = " ++ memberView ++ ".id",
    "  ORDER BY " ++ owner ++ ", " ++ order ++ ";"]

/-- What a procedure does to a collection. -/
inductive CollectionAction where
  | clear
  | remove
  | add
  | set
deriving DecidableEq, Repr

/-- The name of the action within the name of its procedure. -/
def CollectionAction.name : CollectionAction → String
  | .clear => "clear"
  | .remove => "del"
  | .add => "add"
  | .set => "set"

/-- Every action, in the order in which the procedures are created. -/
def CollectionAction.every : List CollectionAction :=
  [.clear, .remove, .add, .set]

/-- A collection of a class: the class key and table, the attribute, and the junction. -/
structure OwnedCollection where
  key : String
  table : String
  name : String
  junction : Junction
deriving DecidableEq, Repr

namespace OwnedCollection

/-- The name of the procedure for an action. -/
def procedureName (collection : OwnedCollection) (action : CollectionAction) : String :=
  collection.key ++ "_" ++ collection.name ++ "_" ++ action.name

/-- The columns of a new row of the junction table. -/
def rowColumns (junction : Junction) : String :=
  junction.ownerColumn ++ ", " ++ junction.memberColumn ++ ", " ++ junction.orderColumn

/-- Locks the row of the owner, as PostgreSQL does. -/
def lockOwner (collection : OwnedCollection) : String :=
  "PERFORM true FROM " ++ collection.table ++ " WHERE id = obj_ident FOR UPDATE;"

/-- The beginning of a loop over the given members. -/
def eachMember : String :=
  "FOR iord IN 1..COALESCE(ARRAY_UPPER(coll_ids, 1), 0) LOOP"

/-- What the function of PostgreSQL for an action does. -/
def functionBody (collection : OwnedCollection) (action : CollectionAction) : String :=
  let table := collection.junction.table
  let owner := collection.junction.ownerColumn
  let member := collection.junction.memberColumn
  let order := collection.junction.orderColumn
  let columns := rowColumns collection.junction
  joinLines (collection.lockOwner ::
    match action with
    | .clear => ["DELETE FROM " ++ table ++ " WHERE " ++ owner ++ " = obj_ident;"]
    | .remove =>
        ["DELETE FROM " ++ table,
         "WHERE  " ++ owner ++ " = obj_ident",
         "       AND " ++ member ++ " = ANY(coll_ids);"]
    | .add =>
        ["SELECT COALESCE(MAX(" ++ order ++ "), 0) INTO last_ord",
         "FROM   " ++ table,
         "WHERE  " ++ owner ++ " = obj_ident;",
         eachMember,
         "    got_id := coll_ids[iord];",
         "    PERFORM true FROM " ++ table ++ " WHERE " ++ owner ++ " = obj_ident AND " ++
           member ++ " = got_id;",
         "    IF NOT FOUND THEN",
         "        last_ord := last_ord + 1;",
         "        INSERT INTO " ++ table ++ " (" ++ columns ++ ")",
         "        VALUES (obj_ident, got_id, last_ord);",
         "    END IF;",
         "END LOOP;"]
    | .set =>
        ["DELETE FROM " ++ table,
         "WHERE  " ++ owner ++ " = obj_ident",
         "       AND " ++ member ++ " <> ALL(coll_ids);",
         "UPDATE " ++ table,
         "SET    " ++ order ++ " = -" ++ order,
         "WHERE  " ++ owner ++ " = obj_ident;",
         eachMember,
         "    UPDATE " ++ table,
         "    SET    " ++ order ++ " = iord",
         "    WHERE  " ++ owner ++ " = obj_ident",
         "           AND " ++ member ++ " = coll_ids[iord];",
         "    IF NOT FOUND THEN",
         "        INSERT INTO " ++ table ++ " (" ++ columns ++ ")",
         "        VALUES (obj_ident, coll_ids[iord], iord);",
         "    END IF;",
         "END LOOP;"])

/-- The variables of the function of PostgreSQL for an action. -/
def functionDeclarations : CollectionAction → List String
  | .add => ["last_ord SMALLINT;", "got_id   INTEGER;"]
  | _ => []

/-- The parameters of the function of PostgreSQL for an action. -/
def functionParameters : CollectionAction → String
  | .clear => "obj_ident INTEGER"
  | _ => "obj_ident INTEGER, coll_ids INTEGER[]"

/-- The function of PostgreSQL for an action. -/
def function (collection : OwnedCollection) (action : CollectionAction) : Function where
  name := collection.procedureName action
  parameters := functionParameters action
  returns := "VOID"
  declarations := functionDeclarations action
  body := collection.functionBody action

/-- Touches the row of the owner, which locks it in SQLite. -/
def touchOwner (collection : OwnedCollection) : String :=
  "UPDATE " ++ collection.table ++ " SET id = id WHERE id = ?1;"

/-- Inserts the given members that are missing; a repeated one counts at its first place. -/
def insertMissing (junction : Junction) (order : String) : List String :=
  ["INSERT INTO " ++ junction.table ++ " (" ++ rowColumns junction ++ ")",
   "SELECT ?1, ids.value, " ++ order,
   "FROM   json_each(?2) AS ids",
   "WHERE  ids.value NOT IN (SELECT " ++ junction.memberColumn ++ " FROM " ++ junction.table ++
     " WHERE " ++ junction.ownerColumn ++ " = ?1)",
   "GROUP BY ids.value;"]

/-- The script of SQLite for an action; its parameters are the owner and the members. -/
def script (collection : OwnedCollection) (action : CollectionAction) : String :=
  let junction := collection.junction
  let table := junction.table
  let owner := junction.ownerColumn
  let member := junction.memberColumn
  let order := junction.orderColumn
  joinLines (("-- " ++ collection.procedureName action) :: collection.touchOwner ::
    match action with
    | .clear => ["DELETE FROM " ++ table ++ " WHERE " ++ owner ++ " = ?1;"]
    | .remove =>
        ["DELETE FROM " ++ table,
         "WHERE  " ++ owner ++ " = ?1",
         "       AND " ++ member ++ " IN (SELECT value FROM json_each(?2));"]
    | .add =>
        insertMissing junction
          ("(SELECT COALESCE(MAX(" ++ order ++ "), 0) FROM " ++ table ++ " WHERE " ++ owner ++
            " = ?1) + ROW_NUMBER() OVER (ORDER BY MIN(ids.key))")
    | .set =>
        ["DELETE FROM " ++ table,
         "WHERE  " ++ owner ++ " = ?1",
         "       AND " ++ member ++ " NOT IN (SELECT value FROM json_each(?2));",
         "UPDATE " ++ table,
         "SET    " ++ order ++ " = -" ++ order,
         "WHERE  " ++ owner ++ " = ?1;",
         "UPDATE " ++ table,
         "SET    " ++ order ++
           " = (SELECT MIN(ids.key) + 1 FROM json_each(?2) AS ids WHERE ids.value = " ++
           table ++ "." ++ member ++ ")",
         "WHERE  " ++ owner ++ " = ?1;"] ++
        insertMissing junction "MIN(ids.key) + 1")

/-- The procedure for an action as a backend writes it. -/
def procedureSql (collection : OwnedCollection) (action : CollectionAction) : Backend → String
  | .postgres => (collection.function action).sql
  | .sqlite => collection.script action

end OwnedCollection

end ClassStore.Schema
