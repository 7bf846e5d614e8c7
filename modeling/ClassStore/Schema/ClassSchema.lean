import ClassStore.Schema.Statement

/-!
# The schema of a class

The statements for one class, in groups that are run one after the other: the
sequence, the tables, their indexes and constraints, the procedures for
collections, the views, and what makes the class view writable.
-/

namespace ClassStore.Schema

open ClassStore.Catalog

/-- The statements for one class. -/
structure ClassSchema where
  key : String
  sequence : List Statement
  tables : List Statement
  indexes : List Statement
  constraints : List Statement
  procedures : List Statement
  views : List Statement
  insert : List Statement
  update : List Statement
  delete : List Statement
  extras : List Statement
deriving DecidableEq, Repr

namespace ClassSchema

/-- The groups with their names, in the order in which they are run. -/
def groups (schema : ClassSchema) : List (String × List Statement) :=
  [("sequence", schema.sequence), ("tables", schema.tables), ("indexes", schema.indexes),
   ("constraints", schema.constraints), ("procedures", schema.procedures),
   ("views", schema.views), ("insert", schema.insert), ("update", schema.update),
   ("delete", schema.delete), ("extras", schema.extras)]

/-- All statements in the order in which they are run. -/
def statements (schema : ClassSchema) : List Statement :=
  schema.groups.flatMap Prod.snd

/-- The statements as a script, with an empty line between them. -/
def script (backend : Backend) (schema : ClassSchema) : String :=
  String.intercalate "\n\n" (schema.statements.map (Statement.sql backend))

end ClassSchema

def ForeignKey.statements (key : ForeignKey) : Backend → List Statement
  | .postgres => [.foreignKey key]
  | .sqlite =>
      [.guard (.dangling .insert key), .guard (.dangling .update key), .guard (.deletion key)]

/-- A function that makes a check, and its trigger. -/
def FunctionCheck.statements (check : FunctionCheck) : List Statement :=
  [.checkFunction check, .checkTrigger check]

/-- The constraints of a value that stays once it is set. -/
def OnceRule.statements (rule : OnceRule) : Backend → List Statement
  | .postgres => (FunctionCheck.once rule).statements
  | .sqlite => [.guard (.once rule)]

/-- The constraints of a domain; in PostgreSQL the column type assures them. -/
def DomainRule.statements (rule : DomainRule) : Backend → List Statement
  | .postgres => []
  | .sqlite =>
      match rule.predicate? with
      | some _ => [.guard (.domain .insert rule), .guard (.domain .update rule)]
      | none => []

/-- The constraints of a value that is unique among live objects. -/
def SoftUnique.statements (rule : SoftUnique) : Backend → List Statement
  | .postgres => (FunctionCheck.unique rule).statements ++ (FunctionCheck.revival rule).statements
  | .sqlite =>
      [.guard (.unique .insert rule), .guard (.unique .update rule), .guard (.revival rule)]

namespace ClassSetting

/-- The sequence of a root class, where the backend has sequences. -/
def sequenceStatements (setting : ClassSetting) : List Statement :=
  match setting.backend with
  | .postgres => if setting.isRoot then [.sequence setting.sequence] else []
  | .sqlite => []

/-- The primary key, where it is not part of the table. -/
def primaryKeyStatements (setting : ClassSetting) : List Statement :=
  match setting.backend with
  | .postgres => [.primaryKey setting.objectClass.table setting.objectClass.key]
  | .sqlite => []

/-- The key that refers to the row in the parent's table. -/
def parentKeys (setting : ClassSetting) : Except SchemaError (List ForeignKey) :=
  match setting.objectClass.parent with
  | none => .ok []
  | some parent => do
      let target ← findClass setting.catalog parent
      .ok [⟨"fk_" ++ setting.objectClass.key ++ "_id", setting.objectClass.table, "id",
        target.table, .cascade⟩]

def referenceKeys (setting : ClassSetting) :
    List Attribute → Except SchemaError (List ForeignKey)
  | [] => .ok []
  | attr :: attributes =>
      match attr.reference with
      | none => setting.referenceKeys attributes
      | some reference => do
          let target ← findClass setting.catalog reference.target
          let keys ← setting.referenceKeys attributes
          .ok (⟨"fk_" ++ setting.objectClass.key ++ "_" ++ attr.storageColumn,
            setting.objectClass.table, attr.storageColumn, target.table,
            reference.onDelete⟩ :: keys)

/-- The class whose objects a collection has as members. -/
def memberClass (setting : ClassSetting) (attr : Attribute) : Except SchemaError ObjectClass :=
  match attr.reference with
  | none => .error (.unknownClass attr.name)
  | some reference => findClass setting.catalog reference.target

/-- A collection of the class with the class of its members. -/
structure Membership where
  name : String
  junction : Junction
  member : ObjectClass

/-- The collections that have a junction table. -/
def memberships (setting : ClassSetting) :
    List Attribute → Except SchemaError (List Membership)
  | [] => .ok []
  | attr :: attributes =>
      match attr.junction with
      | none => setting.memberships attributes
      | some junction => do
          let member ← setting.memberClass attr
          let others ← setting.memberships attributes
          .ok (⟨attr.name, junction, member⟩ :: others)

def junctionKeys (setting : ClassSetting) (membership : Membership) : List ForeignKey :=
  let junction := membership.junction
  [⟨"fk_" ++ junction.table ++ "_" ++ junction.ownerColumn, junction.table,
      junction.ownerColumn, setting.objectClass.table, .cascade⟩,
   ⟨"fk_" ++ junction.table ++ "_" ++ junction.memberColumn, junction.table,
      junction.memberColumn, membership.member.table, .cascade⟩]

/-- The rule for a value that stays once it is set. -/
def onceRule (setting : ClassSetting) (attr : Attribute) : OnceRule :=
  ⟨setting.objectClass.key, setting.objectClass.table, attr.storageColumn⟩

/-- The rule for a value in the domain of its type. -/
def domainRule (setting : ClassSetting) (attr : Attribute) : DomainRule :=
  ⟨setting.objectClass.key, setting.objectClass.table, attr.storageColumn, attr.type⟩

/-- The values that must differ among live objects while another table keeps the state. -/
def softUniques (setting : ClassSetting) : List SoftUnique :=
  match setting.state? with
  | none => []
  | some (holder, state) =>
      if holder.key = setting.objectClass.key then
        []
      else
        (setting.objectClass.stored.filter fun attr =>
          attr.flags.unique && !attr.flags.distinct).map fun attr =>
            { name := "ck_" ++ setting.objectClass.key ++ "_" ++ attr.storageColumn ++ "_unique"
              table := setting.objectClass.table
              column := attr.storageColumn
              folded := foldsAttribute attr
              stateTable := holder.table
              stateColumn := state.storageColumn }

/-- The constraints of the class: keys, then what stays, then domains, then what is unique. -/
def constraintStatements (setting : ClassSetting) (keys : List ForeignKey) : List Statement :=
  let backend := setting.backend
  setting.primaryKeyStatements ++
    keys.flatMap (fun key => key.statements backend) ++
    (setting.objectClass.stored.filter fun attr => attr.flags.once).flatMap
      (fun attr => (setting.onceRule attr).statements backend) ++
    setting.objectClass.storedValues.flatMap
      (fun attr => (setting.domainRule attr).statements backend) ++
    setting.softUniques.flatMap fun rule => rule.statements backend

/-- The collection as its procedures see it. -/
def ownedCollection (setting : ClassSetting) (membership : Membership) : OwnedCollection :=
  ⟨setting.objectClass.key, setting.objectClass.table, membership.name, membership.junction⟩

def procedureStatements (setting : ClassSetting) (membership : Membership) : List Statement :=
  CollectionAction.every.map (Statement.procedure (setting.ownedCollection membership))

/-- A rule without condition, which PostgreSQL needs beside conditional ones. -/
def extraStatements (setting : ClassSetting) : List Statement :=
  match setting.backend, setting.objectClass.link? with
  | .postgres, some _ => [.fallbackRule setting.objectClass.key setting.objectClass.view]
  | .postgres, none => []
  | .sqlite, _ => []

/-- Tests the defaults of the attributes that hold values of their own. -/
def checkDefaults (setting : ClassSetting) : List Attribute → Except SchemaError Unit
  | [] => .ok ()
  | attr :: attributes => do
      match attr.initial with
      | some value => validateDefault setting.objectClass.key attr value
      | none => .ok ()
      setting.checkDefaults attributes

def schema (setting : ClassSetting) : Except SchemaError ClassSchema := do
  setting.checkDefaults setting.objectClass.storedValues
  let table ← setting.table
  let parentKeys ← setting.parentKeys
  let referenceKeys ← setting.referenceKeys setting.objectClass.stored
  let memberships ← setting.memberships setting.objectClass.collections
  let keys := parentKeys ++ referenceKeys ++ memberships.flatMap setting.junctionKeys
  let view ← setting.view
  let inserts ← setting.inserts
  let updates ← setting.updates
  .ok {
    key := setting.objectClass.key
    sequence := setting.sequenceStatements
    tables :=
      .table table :: memberships.map fun membership => .junctionTable membership.junction
    indexes :=
      setting.indexes.map Statement.index ++
        memberships.flatMap fun membership =>
          (junctionIndexes membership.junction).map Statement.index
    constraints := setting.constraintStatements keys
    procedures := memberships.flatMap setting.procedureStatements
    views :=
      .view view :: memberships.map fun membership =>
        .junctionView membership.junction membership.member.view
    insert := inserts.map Statement.write
    update := [.write updates]
    delete := [.write setting.deletes]
    extras := setting.extraStatements }

end ClassSetting

end ClassStore.Schema
