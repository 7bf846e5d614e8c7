import ClassStore.Backend
import ClassStore.Catalog.Basic
import ClassStore.Schema.SchemaError

/-!
# What a schema is generated for

A schema is generated for one class of a catalog at a time.  `ClassSetting`
gathers what the statements for that class depend on.
-/

namespace ClassStore.Schema

open ClassStore.Catalog

/-- The choices that apply to a whole schema. -/
structure Config where
  backend : Backend
  uuidGenerator : Option String
deriving DecidableEq, Repr

def Config.standard : Config :=
  ⟨default, none⟩

/-- A class, its catalog, and its chain of ancestors with the root first. -/
structure ClassSetting where
  config : Config
  catalog : Catalog
  objectClass : ObjectClass
  chain : List ObjectClass

/-- The class with the given key, which must exist. -/
def findClass (catalog : Catalog) (key : String) : Except SchemaError ObjectClass :=
  match catalog.find? key with
  | some objectClass => .ok objectClass
  | none => .error (.unknownClass key)

namespace ClassSetting

/-- The setting of the class with the given key. -/
def ofKey (config : Config) (catalog : Catalog) (key : String) :
    Except SchemaError ClassSetting := do
  let objectClass ← findClass catalog key
  .ok ⟨config, catalog, objectClass, catalog.chain key⟩

/-- The backend that statements are written for. -/
def backend (setting : ClassSetting) : Backend :=
  setting.config.backend

/-- The most distant ancestor of the class. -/
def root (setting : ClassSetting) : ObjectClass :=
  setting.chain.head?.getD setting.objectClass

def isRoot (setting : ClassSetting) : Bool :=
  setting.objectClass.parent.isNone

/-- The attribute in which a class itself keeps the state of its objects. -/
def stateOf? (objectClass : ObjectClass) : Option Attribute :=
  (objectClass.ownAttribute? "state").filter Attribute.isStored

/-- The class of the chain that keeps the state of objects, and the attribute. -/
def state? (setting : ClassSetting) : Option (ObjectClass × Attribute) :=
  setting.chain.findSome? fun objectClass =>
    (stateOf? objectClass).map fun attr => (objectClass, attr)

/-- The extended or mediated class and the link to it. -/
def identity (setting : ClassSetting) :
    Except SchemaError (Option (ObjectClass × Attribute)) :=
  match setting.objectClass.link? with
  | none => .ok none
  | some link =>
      match link.reference with
      | none => .ok none
      | some reference => do
          let target ← findClass setting.catalog reference.target
          .ok (some (target, link))

end ClassSetting

/-- The sequence that the numbers of a root class are drawn from. -/
def sequenceName (root : ObjectClass) : String :=
  "seq_" ++ root.key

/-- The sequence that the numbers of the class are drawn from. -/
def ClassSetting.sequence (setting : ClassSetting) : String :=
  sequenceName setting.root

end ClassStore.Schema
