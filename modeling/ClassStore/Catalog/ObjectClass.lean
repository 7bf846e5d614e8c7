import ClassStore.Catalog.Attribute

/-!
# Classes

A class has a key, at most one parent, and attributes.  It may extend or
mediate one other class, whose object it is linked to.  Classes are found in a
list by their keys, and the ancestors of a class by following parents.
-/

namespace ClassStore.Catalog

/-- Where the numbers of new objects come from. -/
inductive KeySource where
  | rootSequence
  | inherited
deriving DecidableEq, Repr

/-- A class of objects. -/
structure ObjectClass where
  key : String
  table : String
  view : String
  parent : Option String
  extended : Option String
  mediated : Option String
  attributes : List Attribute
  keySource : KeySource
deriving DecidableEq, Repr

namespace ObjectClass

/-- A class about which nothing is said. -/
def blank : ObjectClass where
  key := ""
  table := ""
  view := ""
  parent := none
  extended := none
  mediated := none
  attributes := []
  keySource := .rootSequence

/-- A class with the given key and no attributes. -/
def declare (key : String) : ObjectClass :=
  { blank with key := key }

/-- The unique number and the state that every standard class keeps. -/
def standardAttributes : List Attribute :=
  [(Attribute.declare "uuid" .uuid).required.distinct.once,
   ((Attribute.declare "state" .state).required.indexed).withInitial "1"]

def standard (key : String) : ObjectClass :=
  { declare key with attributes := standardAttributes }

/-- The class whose identity this one shares, and how; extending goes before mediating. -/
def identityTarget (objectClass : ObjectClass) : Option (String × Relationship) :=
  match objectClass.extended, objectClass.mediated with
  | some target, _ => some (target, .extending)
  | none, some target => some (target, .mediating)
  | none, none => none

/-- The first own attribute of the given name. -/
def ownAttribute? (objectClass : ObjectClass) (name : String) : Option Attribute :=
  objectClass.attributes.find? fun attr => attr.name == name

/-- The attribute is a link to the given class. -/
def isLinkTo (target : String) (attr : Attribute) : Bool :=
  !attr.isDelegated && attr.isReference && attr.name == target

/-- The attribute that refers to the extended or mediated object. -/
def link? (objectClass : ObjectClass) : Option Attribute :=
  objectClass.identityTarget.bind fun (target, _) =>
    objectClass.attributes.find? (isLinkTo target)

/-- The attributes with a column of the class table. -/
def stored (objectClass : ObjectClass) : List Attribute :=
  objectClass.attributes.filter Attribute.isStored

/-- The stored attributes that hold values of their own and not references. -/
def storedValues (objectClass : ObjectClass) : List Attribute :=
  objectClass.stored.filter fun attr => !attr.isReference

def collections (objectClass : ObjectClass) : List Attribute :=
  objectClass.attributes.filter Attribute.isCollection

/-- The attributes whose values belong to the extended or mediated object. -/
def delegated (objectClass : ObjectClass) : List Attribute :=
  objectClass.attributes.filter Attribute.isDelegated

def attributeTargets (objectClass : ObjectClass) : List String :=
  objectClass.attributes.filterMap fun attr => attr.reference.map Reference.target

/-- The classes that the class depends on, in the order of their declaration. -/
def dependencies (objectClass : ObjectClass) : List String :=
  [objectClass.parent, objectClass.extended, objectClass.mediated].filterMap id ++
    objectClass.attributeTargets

/-- The class has a collection of objects of the given class. -/
def collects (objectClass : ObjectClass) (target : String) : Bool :=
  objectClass.attributes.any fun attr =>
    attr.isCollection && attr.reference.any fun reference => reference.target == target

end ObjectClass

def findClass? (classes : List ObjectClass) (key : String) : Option ObjectClass :=
  classes.find? fun objectClass => objectClass.key == key

def parentOf? (classes : List ObjectClass) (objectClass : ObjectClass) : Option ObjectClass :=
  objectClass.parent.bind (findClass? classes)

/-- The class and its ancestors up to the given number of them, the class first. -/
def ancestry (classes : List ObjectClass) : Nat → ObjectClass → List ObjectClass
  | 0, objectClass => [objectClass]
  | generations + 1, objectClass =>
      objectClass ::
        match parentOf? classes objectClass with
        | none => []
        | some parent => ancestry classes generations parent

/--
The class and all its ancestors, the root first; no class has more ancestors
than there are classes.
-/
def chainOf (classes : List ObjectClass) (objectClass : ObjectClass) : List ObjectClass :=
  (ancestry classes classes.length objectClass).reverse

end ClassStore.Catalog
