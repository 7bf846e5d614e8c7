import ClassStore.Schema.Check
import ClassStore.Schema.Collection
import ClassStore.Schema.View
import ClassStore.Schema.Write

/-!
# Statements of a schema

Everything that a schema consists of, as values.  `Statement.sql` writes a
statement for a backend.
-/

namespace ClassStore.Schema

open ClassStore.Catalog

/-- A statement of a schema. -/
inductive Statement where
  | gtinFunction
  | domain (type : SemanticType) (base : String)
  | sequence (name : String)
  | table (definition : Table)
  | junctionTable (junction : Junction)
  | index (definition : Index)
  | primaryKey (table key : String)
  | foreignKey (key : ForeignKey)
  | checkFunction (check : FunctionCheck)
  | checkTrigger (check : FunctionCheck)
  | guard (check : Guard)
  | procedure (collection : OwnedCollection) (action : CollectionAction)
  | view (definition : View)
  | junctionView (junction : Junction) (memberView : String)
  | write (definition : ViewWrite)
  | fallbackRule (key target : String)
deriving DecidableEq, Repr

/-- The function with which PostgreSQL tests trade item numbers. -/
def gtinFunctionSql : String :=
  joinLines [
    "CREATE FUNCTION isa_gtin(code TEXT) RETURNS BOOLEAN AS $$",
    "DECLARE",
    "    padded TEXT := LPAD(code, 14, '0');",
    "    total  INTEGER := 0;",
    "BEGIN",
    "    IF code !~ '^[0-9]\x7b8,14\x7d$' THEN",
    "        RETURN FALSE;",
    "    END IF;",
    "    FOR i IN 1..14 LOOP",
    "        total := total + SUBSTR(padded, i, 1)::INTEGER * " ++
      "CASE WHEN i % 2 = 1 THEN 3 ELSE 1 END;",
    "    END LOOP;",
    "    RETURN total % 10 = 0;",
    "END;",
    "$$ LANGUAGE plpgsql IMMUTABLE;"]

/-- The statement that creates the domain of a type. -/
def domainSql (backend : Backend) (type : SemanticType) (base : String) : String :=
  "CREATE DOMAIN " ++ type.name ++ " AS " ++ base ++ " CONSTRAINT ck_" ++ type.name ++
    " CHECK (" ++ (domainCheck backend type "VALUE").getD "" ++ ");"

/-- The statement as a backend writes it. -/
def Statement.sql (backend : Backend) : Statement → String
  | .gtinFunction => gtinFunctionSql
  | .domain type base => domainSql backend type base
  | .sequence name => "CREATE SEQUENCE " ++ name ++ ";"
  | .table definition => definition.sql backend
  | .junctionTable junction => junctionTableSql junction
  | .index definition => definition.sql
  | .primaryKey relation key =>
      "ALTER TABLE " ++ relation ++ " ADD CONSTRAINT pk_" ++ key ++ " PRIMARY KEY (id);"
  | .foreignKey key => key.sql
  | .checkFunction check => check.function.sql
  | .checkTrigger check => triggerHead .postgres check.name check.event check.table
  | .guard check => check.trigger.sql
  | .procedure collection action => collection.procedureSql action backend
  | .view definition => definition.sql
  | .junctionView junction memberView => junctionViewSql junction memberView
  | .write definition => definition.sql backend
  | .fallbackRule key target =>
      "CREATE RULE insert_" ++ key ++ "_dummy AS\nON INSERT TO " ++ target ++
        " DO INSTEAD NOTHING;"

end ClassStore.Schema
