import ClassStore.Catalog.ObjectClass
import ClassStore.Catalog.CatalogError
import ClassStore.Text.Fields

/-!
# Resolution of a class

Resolving a class chooses the names that its declaration leaves open, adds the
link to an extended or mediated class, and copies the attributes of that class
so that they can be read and searched through this one.  All classes that the
class depends on have been resolved before.
-/

namespace ClassStore.Catalog

/-- The table of a class that does not choose one. -/
def defaultTable (parent : Option ObjectClass) (key : String) : String :=
  match parent with
  | none => "_" ++ key
  | some parent => Text.withoutLeading "_" parent.table ++ "_" ++ key

/-- The link of a class to the class that it extends or mediates. -/
def linkAttribute (target : String) (relationship : Relationship) : Attribute :=
  (((Attribute.declare target .whole).referringTo target .cascade).withRelationship
    relationship).required.once

/-- The junction table of a collection that does not choose its names. -/
def defaultJunction (owner member attr : String) : Junction where
  table := owner ++ "_coll_" ++ attr
  view := owner ++ "_" ++ attr
  ownerColumn := if member = owner then "obj_id" else owner ++ "_id"
  memberColumn := member ++ "_id"
  orderColumn := member ++ "_order"

namespace Attribute

/-- Numbers that identify objects are never changed. -/
def fixUuid (attr : Attribute) : Attribute :=
  if attr.type = .uuid then attr.once else attr

/-- The given column, or for a stored attribute the default. -/
def columnOr (attr : Attribute) (default : String) : Option String :=
  if attr.flags.persistent then
    some (attr.column.getD default)
  else
    attr.column

/-- Chooses the columns and the junction table that are left open. -/
def nameColumns (owner : String) (attr : Attribute) : Attribute :=
  match attr.reference with
  | none =>
      { attr with
        column := attr.columnOr attr.name
        viewColumn :=
          if attr.viewColumn.isEmpty then attr.name else attr.viewColumn }
  | some reference =>
      if attr.isCollection then
        { attr with
          column := none
          viewColumn := attr.name
          junction := some (attr.junction.getD
            (defaultJunction owner reference.target attr.name)) }
      else
        { attr with
          column := attr.columnOr (attr.name ++ "_id")
          viewColumn := attr.name ++ "__id" }

/-- Completes an attribute of the class itself, leaving a delegated one as it is. -/
def complete (owner : String) (attr : Attribute) : Attribute :=
  if attr.isDelegated then attr else attr.fixUuid.nameColumns owner

/-- The copy of a target's attribute that an extending or mediating class shows. -/
def delegatedCopy (target : String) (relationship : Relationship) (attr : Attribute) :
    Attribute :=
  { Attribute.declare attr.name attr.type with
    viewColumn := target ++ "__" ++ attr.viewColumn
    relationship := some relationship
    delegatesTo := some target
    actsAs := some attr.name }

/-- The attribute can be copied: it is searchable and does not refer to objects. -/
def isCopyable (attr : Attribute) : Bool :=
  attr.isSearchable && !attr.isReference

end Attribute

/-- The copies of the attributes of an extended or mediated class, root first. -/
def delegatedCopies (classes : List ObjectClass) (objectClass : ObjectClass) : List Attribute :=
  match objectClass.identityTarget with
  | none => []
  | some (target, relationship) =>
      match findClass? classes target with
      | none => []
      | some targetClass =>
          (((chainOf classes targetClass).flatMap ObjectClass.attributes).filter
            Attribute.isCopyable).map (Attribute.delegatedCopy target relationship)

namespace ObjectClass

/-- Chooses the table and the view that are left open. -/
def nameRelations (parent : Option ObjectClass) (objectClass : ObjectClass) : ObjectClass :=
  { objectClass with
    keySource := if objectClass.parent.isNone then .rootSequence else .inherited
    table :=
      if objectClass.table.isEmpty then
        defaultTable parent objectClass.key
      else
        objectClass.table
    view := if objectClass.view.isEmpty then objectClass.key else objectClass.view }

/-- Puts the link in front of the attributes, unless its name is taken. -/
def addLink (objectClass : ObjectClass) : Except CatalogError ObjectClass :=
  match objectClass.identityTarget with
  | none => .ok objectClass
  | some (target, relationship) =>
      if (objectClass.ownAttribute? target).isSome then
        .error (.duplicateAttribute objectClass.key target)
      else
        .ok { objectClass with
          attributes := linkAttribute target relationship :: objectClass.attributes }

def completeAttributes (objectClass : ObjectClass) : ObjectClass :=
  { objectClass with attributes := objectClass.attributes.map (Attribute.complete objectClass.key) }

end ObjectClass

/-- The first name that is taken already or occurs before in the list. -/
def firstRepeated (taken : List String) : List String → Option String
  | [] => none
  | name :: names =>
      if taken.contains name then some name else firstRepeated (name :: taken) names

/-- Adds the names of the ancestors, from the parent upwards, to the names of the class. -/
def claimInherited (key : String) (taken : List String) :
    List ObjectClass → Except CatalogError (List String)
  | [] => .ok taken
  | ancestor :: ancestors =>
      match ancestor.attributes.find? fun attr => taken.contains attr.name with
      | some clash => .error (.duplicateAttribute key clash.name)
      | none => claimInherited key (taken ++ ancestor.attributes.map Attribute.name) ancestors

/-- The copies whose names are not taken, each name once. -/
def admitCopies (taken : List String) : List Attribute → List Attribute
  | [] => []
  | copy :: copies =>
      if taken.contains copy.name then
        admitCopies taken copies
      else
        copy :: admitCopies (copy.name :: taken) copies

/-- Resolves a class, given all classes of the catalog as far as they are resolved. -/
def resolveClass (classes : List ObjectClass) (objectClass : ObjectClass) :
    Except CatalogError ObjectClass := do
  let parent := parentOf? classes objectClass
  let linked ← (objectClass.nameRelations parent).addLink
  let completed := linked.completeAttributes
  let names := completed.attributes.map Attribute.name
  match firstRepeated [] names with
  | some name => .error (.duplicateAttribute completed.key name)
  | none => do
      let ancestors := (ancestry classes classes.length completed).drop 1
      let taken ← claimInherited completed.key names ancestors
      let copies := admitCopies taken (delegatedCopies classes objectClass)
      .ok { completed with attributes := completed.attributes ++ copies }

end ClassStore.Catalog
