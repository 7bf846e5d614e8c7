import ClassStore.Schema.Table
import ClassStore.Schema.Trigger
import ClassStore.Text.Fields

/-!
# Checks on stored values

What a table alone cannot assure is checked on every change: that references
point to existing objects, that values stay once they are set, that values are
in the domain of their type, and that unique values differ among live objects
when the state is kept in another table.
-/

namespace ClassStore.Schema

open ClassStore.Catalog

/-- A column that refers to the numbers in another table. -/
structure ForeignKey where
  name : String
  table : String
  column : String
  target : String
  onDelete : OnDelete
deriving DecidableEq, Repr

def ForeignKey.sql (key : ForeignKey) : String :=
  "ALTER TABLE " ++ key.table ++ " ADD CONSTRAINT " ++ key.name ++ " FOREIGN KEY (" ++
    key.column ++ ")\nREFERENCES " ++ key.target ++ "(id) ON DELETE " ++ key.onDelete.sql ++ ";"

/-- A column whose values stay once they are set. -/
structure OnceRule where
  key : String
  table : String
  column : String
deriving DecidableEq, Repr

/-- A column whose values have to be in the domain of a type. -/
structure DomainRule where
  key : String
  table : String
  column : String
  type : SemanticType
deriving DecidableEq, Repr

/-- A column whose values differ among live objects, with the state in another table. -/
structure SoftUnique where
  name : String
  table : String
  column : String
  folded : Bool
  stateTable : String
  stateColumn : String
deriving DecidableEq, Repr

namespace SoftUnique

def compared (unique : SoftUnique) (expression : String) : String :=
  if unique.folded then "LOWER(" ++ expression ++ ")" else expression

/-- Looks for other live rows with a value, by the given verb. -/
def search (unique : SoftUnique) (verb id value : String) : String :=
  joinLines [
    verb ++ " 1",
    "FROM   " ++ unique.table ++ ", " ++ unique.stateTable,
    "WHERE  " ++ unique.table ++ ".id = " ++ unique.stateTable ++ ".id",
    "       AND " ++ unique.table ++ ".id <> " ++ id,
    "       AND " ++ unique.compared (unique.table ++ "." ++ unique.column) ++ " = " ++
      unique.compared value,
    "       AND " ++ unique.stateTable ++ "." ++ unique.stateColumn ++ " > -1"]

/-- Selects the other live rows with a value. -/
def duplicates (unique : SoftUnique) (id value : String) : String :=
  unique.search "SELECT" id value

/-- The row with the given number is live. -/
def isLive (unique : SoftUnique) (id : String) : String :=
  "(SELECT " ++ unique.stateColumn ++ " FROM " ++ unique.stateTable ++ " WHERE id = " ++ id ++
    ") > -1"

/-- What is said of a change that would make a duplicate. -/
def message (unique : SoftUnique) : String :=
  "duplicate key violates unique constraint \"" ++ unique.name ++ "\""

/-- The value that a changed row gets. -/
def newValue (unique : SoftUnique) : String :=
  "NEW." ++ unique.column

/-- The value of the row whose state changes. -/
def keptValue (unique : SoftUnique) : String :=
  "(SELECT " ++ unique.column ++ " FROM " ++ unique.table ++ " WHERE id = NEW.id)"

/-- A value is set in a live row. -/
def isWritten (unique : SoftUnique) : String :=
  unique.newValue ++ " IS NOT NULL AND " ++ unique.isLive "NEW.id"

/-- A row that was not live becomes live. -/
def isRevived (unique : SoftUnique) : String :=
  "NEW." ++ unique.stateColumn ++ " > -1 AND OLD." ++ unique.stateColumn ++ " < 0"

end SoftUnique

/-- A check that PostgreSQL makes by a function. -/
inductive FunctionCheck where
  | once (rule : OnceRule)
  | unique (rule : SoftUnique)
  | revival (rule : SoftUnique)
deriving DecidableEq, Repr

namespace FunctionCheck

/-- The name of the function and of its trigger. -/
def name : FunctionCheck → String
  | .once rule => rule.key ++ "_" ++ rule.column ++ "_once"
  | .unique rule => rule.name
  | .revival rule => rule.name ++ "_state"

def event : FunctionCheck → String
  | .once _ => "UPDATE"
  | .unique _ => "INSERT OR UPDATE"
  | .revival _ => "UPDATE"

def table : FunctionCheck → String
  | .once rule => rule.table
  | .unique rule => rule.table
  | .revival rule => rule.stateTable

/-- Raises an exception if a locking search finds a duplicate. -/
def raiseDuplicate (rule : SoftUnique) (value : String) : String :=
  joinLines [
    rule.search "PERFORM" "NEW.id" value,
    "FOR UPDATE;",
    "IF FOUND THEN",
    "    RAISE EXCEPTION '" ++ rule.message ++ "';",
    "END IF;"]

def body : FunctionCheck → String
  | .once rule =>
      joinLines [
        "IF OLD." ++ rule.column ++ " IS NOT NULL AND NEW." ++ rule.column ++
          " IS DISTINCT FROM OLD." ++ rule.column ++ " THEN",
        "    RAISE EXCEPTION 'value of \"" ++ rule.column ++ "\" cannot be changed';",
        "END IF;",
        "RETURN NEW;"]
  | .unique rule =>
      joinLines [
        "IF " ++ rule.isWritten ++ " THEN",
        Text.indent 4 (raiseDuplicate rule rule.newValue),
        "END IF;",
        "RETURN NEW;"]
  | .revival rule =>
      joinLines [
        "IF " ++ rule.isRevived ++ " THEN",
        Text.indent 4 (raiseDuplicate rule rule.keptValue),
        "END IF;",
        "RETURN NEW;"]

def function (check : FunctionCheck) : Function :=
  ⟨check.name, "", "trigger", [], check.body⟩

end FunctionCheck

/-- The changes that bring a value into a column. -/
inductive WriteEvent where
  | insert
  | update
deriving DecidableEq, Repr

/-- A check that SQLite makes by a trigger. -/
inductive Guard where
  | dangling (event : WriteEvent) (key : ForeignKey)
  | deletion (key : ForeignKey)
  | once (rule : OnceRule)
  | domain (event : WriteEvent) (rule : DomainRule)
  | unique (event : WriteEvent) (rule : SoftUnique)
  | revival (rule : SoftUnique)
deriving DecidableEq, Repr

namespace WriteEvent

/-- The letter by which triggers for the event are named. -/
def letter : WriteEvent → String
  | .insert => "i"
  | .update => "u"

/-- The event on a column as a trigger names it. -/
def sql (column : String) : WriteEvent → String
  | .insert => "INSERT"
  | .update => "UPDATE OF " ++ column

end WriteEvent

namespace ForeignKey

def shortName (key : ForeignKey) : String :=
  Text.withoutLeading "fk_" key.name

/-- The new value refers to no row of the target. -/
def isDangling (key : ForeignKey) : String :=
  "NEW." ++ key.column ++ " IS NOT NULL AND NOT EXISTS (SELECT 1 FROM " ++ key.target ++
    " WHERE id = NEW." ++ key.column ++ ")"

/-- Some row refers to the one that is deleted. -/
def isReferred (key : ForeignKey) : String :=
  "EXISTS (SELECT 1 FROM " ++ key.table ++ " WHERE " ++ key.column ++ " = OLD.id)"

/-- What is said of a change of one of the two tables that breaks the reference. -/
def violation (key : ForeignKey) (change table : String) : String :=
  change ++ " on table \"" ++ table ++ "\" violates foreign key constraint \"" ++ key.name ++ "\""

/-- What happens before a row of the target is deleted. -/
def deletionTrigger (key : ForeignKey) : Trigger :=
  let name := "fkd_" ++ key.shortName
  match key.onDelete with
  | .cascade =>
      ⟨name, "DELETE", key.target, none,
        "DELETE FROM " ++ key.table ++ " WHERE " ++ key.column ++ " = OLD.id"⟩
  | .setNull =>
      ⟨name, "DELETE", key.target, none,
        "UPDATE " ++ key.table ++ " SET " ++ key.column ++ " = NULL WHERE " ++ key.column ++
          " = OLD.id"⟩
  | .restrict =>
      Trigger.guard name "DELETE" key.target key.isReferred (key.violation "delete" key.target)

end ForeignKey

namespace DomainRule

/-- The predicate that holds of the values of the type. -/
def predicate? (rule : DomainRule) : Option String :=
  domainCheck .sqlite rule.type ("NEW." ++ rule.column)

/-- The new value is not in the domain. -/
def isViolated (rule : DomainRule) : String :=
  "NEW." ++ rule.column ++ " IS NOT NULL AND NOT (" ++ rule.predicate?.getD "" ++ ")"

/-- What is said of a value outside the domain. -/
def message (rule : DomainRule) : String :=
  "value of \"" ++ rule.column ++ "\" violates check constraint \"ck_" ++ rule.type.name ++ "\""

end DomainRule

namespace OnceRule

def isViolated (rule : OnceRule) : String :=
  "OLD." ++ rule.column ++ " IS NOT NULL AND NEW." ++ rule.column ++ " IS NOT OLD." ++ rule.column

/-- What is said of a change to a value that was set. -/
def message (rule : OnceRule) : String :=
  "value of \"" ++ rule.column ++ "\" cannot be changed"

end OnceRule

namespace SoftUnique

def shortName (unique : SoftUnique) : String :=
  Text.withoutLeading "ck_" unique.name

def hasDuplicate (unique : SoftUnique) (value : String) : String :=
  "EXISTS (\n" ++ Text.indent 4 (unique.duplicates "NEW.id" value) ++ "\n)"

end SoftUnique

def Guard.trigger : Guard → Trigger
  | .dangling event key =>
      Trigger.guard ("fk" ++ event.letter ++ "_" ++ key.shortName) (event.sql key.column)
        key.table key.isDangling (key.violation "insert or update" key.table)
  | .deletion key => key.deletionTrigger
  | .once rule =>
      Trigger.guard (rule.key ++ "_" ++ rule.column ++ "_once") ("UPDATE OF " ++ rule.column)
        rule.table rule.isViolated rule.message
  | .domain event rule =>
      Trigger.guard ("ck" ++ event.letter ++ "_" ++ rule.key ++ "_" ++ rule.column)
        (event.sql rule.column) rule.table rule.isViolated rule.message
  | .unique event rule =>
      Trigger.guard ("ck" ++ event.letter ++ "_" ++ rule.shortName) (event.sql rule.column)
        rule.table (rule.isWritten ++ " AND " ++ rule.hasDuplicate rule.newValue) rule.message
  | .revival rule =>
      Trigger.guard ("cks_" ++ rule.shortName) ("UPDATE OF " ++ rule.stateColumn)
        rule.stateTable (rule.isRevived ++ " AND " ++ rule.hasDuplicate rule.keptValue)
        rule.message

end ClassStore.Schema
