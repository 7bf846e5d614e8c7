import ClassStore.Schema.ClassSchema

/-!
# The schema of a catalog

The classes of a catalog are set up one after the other, each after those it
depends on.  What they share is set up before: in PostgreSQL the domains of the
semantic types.
-/

namespace ClassStore.Schema

open ClassStore.Catalog

/-- The types that are domains of PostgreSQL, each with the type it is based on. -/
def domainTypes : List (SemanticType × String) :=
  [(.whole, "INTEGER"), (.posint, "INTEGER"), (.state, "INTEGER"), (.operator, "TEXT"),
   (.mediaType, "TEXT"), (.version, "TEXT"), (.gtin, "TEXT")]

/-- What is run once, before any class is set up. -/
def setupStatements : Backend → List Statement
  | .postgres => .gtinFunction :: domainTypes.map fun (type, base) => .domain type base
  | .sqlite => []

/-- What is run once, as a script. -/
def setupScript (backend : Backend) : String :=
  String.intercalate "\n\n" ((setupStatements backend).map (Statement.sql backend))

/-- The schema of the class with the given key. -/
def classSchema (config : Config) (catalog : Catalog) (key : String) :
    Except SchemaError ClassSchema := do
  let setting ← ClassSetting.ofKey config catalog key
  setting.schema

/-- The schemas of the classes with the given keys, up to the first that fails. -/
def classSchemas (config : Config) (catalog : Catalog) :
    List String → Except SchemaError (List ClassSchema)
  | [] => .ok []
  | key :: keys => do
      let schema ← classSchema config catalog key
      let schemas ← classSchemas config catalog keys
      .ok (schema :: schemas)

/-- The schemas of all classes, each after those it depends on. -/
def catalogSchema (config : Config) (catalog : Catalog) :
    Except SchemaError (List ClassSchema) :=
  classSchemas config catalog catalog.order

def script (config : Config) (catalog : Catalog) : Except SchemaError String := do
  let schemas ← catalogSchema config catalog
  let setup := setupScript config.backend
  let parts :=
    (if setup.isEmpty then [] else [setup]) ++
      schemas.map (ClassSchema.script config.backend)
  .ok (String.intercalate "\n\n" parts ++ "\n")

end ClassStore.Schema
