import ClassStore.Backend
import ClassStore.Sql.Literal
import ClassStore.Text.Lines

/-!
# Functions and triggers

PostgreSQL runs a function from a trigger.  SQLite runs statements from a
trigger, or aborts the change if a condition holds.
-/

namespace ClassStore.Schema

def joinLines (lines : List String) : String :=
  String.intercalate "\n" lines

/-- A function of PostgreSQL. -/
structure Function where
  name : String
  parameters : String
  returns : String
  declarations : List String
  body : String
deriving DecidableEq, Repr

def Function.sql (function : Function) : String :=
  "CREATE FUNCTION " ++ function.name ++ "(" ++ function.parameters ++ ") RETURNS " ++
    function.returns ++ " AS $$\n" ++
    (if function.declarations.isEmpty then
      ""
    else
      "DECLARE\n" ++ String.join (function.declarations.map fun declaration =>
        "    " ++ declaration ++ "\n")) ++
    "BEGIN\n" ++ Text.indent 4 function.body ++ "\nEND;\n$$ LANGUAGE plpgsql;"

/-- The beginning of the definition of a trigger on rows; for PostgreSQL it is all of it. -/
def triggerHead (backend : Backend) (name event table : String) : String :=
  match backend with
  | .postgres =>
      "CREATE TRIGGER " ++ name ++ " BEFORE " ++ event ++ " ON " ++ table ++
        "\nFOR EACH ROW EXECUTE PROCEDURE " ++ name ++ "();"
  | .sqlite =>
      "CREATE TRIGGER " ++ name ++ "\nBEFORE " ++ event ++ " ON " ++ table ++ "\nFOR EACH ROW"

/-- Statements one below the other, indented and ended. -/
def statementBlock (statements : List String) : String :=
  String.intercalate "\n\n" (statements.map fun statement => Text.indent 2 statement ++ ";")

/-- A trigger of SQLite with the given beginning. -/
def triggerSql (head : String) (condition : Option String) (statements : List String) : String :=
  head ++
    (match condition with
    | some condition => "\nWHEN " ++ condition
    | none => "") ++
    "\nBEGIN\n" ++ statementBlock statements ++ "\nEND;"

/-- The statement with which SQLite aborts a change. -/
def abortStatement (message : String) : String :=
  "SELECT RAISE(ABORT, " ++ Sql.literal message ++ ")"

/-- A trigger of SQLite that runs before a change of a table. -/
structure Trigger where
  name : String
  event : String
  table : String
  condition : Option String
  statement : String
deriving DecidableEq, Repr

def Trigger.sql (trigger : Trigger) : String :=
  triggerSql (triggerHead .sqlite trigger.name trigger.event trigger.table)
    trigger.condition [trigger.statement]

/-- A trigger that aborts the change where the condition holds. -/
def Trigger.guard (name event table condition message : String) : Trigger :=
  ⟨name, event, table, some condition, abortStatement message⟩

end ClassStore.Schema
