import ClassStore.Catalog.SemanticType

/-!
# Attributes

An attribute of a class is declared by name and type and refined step by step.
It may refer to one object of another class, or stand for an ordered collection
of such objects.  Columns that are not given are chosen when the catalog is
built.
-/

namespace ClassStore.Catalog

/-- What happens to an object when the one it refers to is deleted. -/
inductive OnDelete where
  | cascade
  | restrict
  | setNull
deriving DecidableEq, Repr

namespace OnDelete

def sql : OnDelete → String
  | .cascade => "CASCADE"
  | .restrict => "RESTRICT"
  | .setNull => "SET NULL"

def every : List OnDelete :=
  [.cascade, .restrict, .setNull]

end OnDelete

/-- How an attribute relates its class to another class. -/
inductive Relationship where
  | has
  | hasMany
  | typeOf
  | extending
  | mediating
deriving DecidableEq, Repr

namespace Relationship

def name : Relationship → String
  | .has => "has"
  | .hasMany => "has_many"
  | .typeOf => "type_of"
  | .extending => "extends"
  | .mediating => "mediates"

def every : List Relationship :=
  [.has, .hasMany, .typeOf, .extending, .mediating]

end Relationship

/-- The yes-or-no properties of an attribute. -/
structure Flags where
  required : Bool
  unique : Bool
  distinct : Bool
  indexed : Bool
  persistent : Bool
  once : Bool
deriving DecidableEq, Repr

namespace Flags

def none : Flags :=
  ⟨false, false, false, false, false, false⟩

/-- Values are stored, and nothing else is asked of them. -/
def plain : Flags :=
  { none with persistent := true }

end Flags

/-- A class that an attribute refers to. -/
structure Reference where
  target : String
  onDelete : OnDelete
deriving DecidableEq, Repr

/-- The table that keeps an ordered collection, and its view and columns. -/
structure Junction where
  table : String
  view : String
  ownerColumn : String
  memberColumn : String
  orderColumn : String
deriving DecidableEq, Repr

/-- An attribute of a class. -/
structure Attribute where
  name : String
  type : SemanticType
  column : Option String
  viewColumn : String
  flags : Flags
  initial : Option String
  reference : Option Reference
  relationship : Option Relationship
  delegatesTo : Option String
  actsAs : Option String
  junction : Option Junction
deriving DecidableEq, Repr

namespace Attribute

/-- An attribute about which nothing is said. -/
def blank : Attribute where
  name := ""
  type := .string
  column := none
  viewColumn := ""
  flags := Flags.none
  initial := none
  reference := none
  relationship := none
  delegatesTo := none
  actsAs := none
  junction := none

/-- A stored attribute with the given name and type. -/
def declare (name : String) (type : SemanticType) : Attribute :=
  { blank with name := name, type := type, flags := Flags.plain }

def required (attr : Attribute) : Attribute :=
  { attr with flags := { attr.flags with required := true } }

/-- Demands that no two live objects have the same value. -/
def unique (attr : Attribute) : Attribute :=
  { attr with flags := { attr.flags with unique := true } }

/-- Demands that no two objects, live or not, have the same value. -/
def distinct (attr : Attribute) : Attribute :=
  { attr with flags := { attr.flags with unique := true, distinct := true } }

/-- Asks for an index on the values. -/
def indexed (attr : Attribute) : Attribute :=
  { attr with flags := { attr.flags with indexed := true } }

/-- Forbids changing a value that has been set. -/
def once (attr : Attribute) : Attribute :=
  { attr with flags := { attr.flags with once := true } }

/-- Keeps the values out of the store. -/
def transient (attr : Attribute) : Attribute :=
  { attr with flags := { attr.flags with persistent := false } }

/-- Gives new objects a value when none is supplied. -/
def withInitial (attr : Attribute) (value : String) : Attribute :=
  { attr with initial := some value }

/-- Chooses the column of the class table. -/
def withColumn (attr : Attribute) (column : String) : Attribute :=
  { attr with column := some column }

def withRelationship (attr : Attribute) (relationship : Relationship) : Attribute :=
  { attr with relationship := some relationship }

/-- Refers to an object of another class, keeping a relationship chosen before. -/
def referringTo (attr : Attribute) (target : String) (onDelete : OnDelete) : Attribute :=
  { attr with
    reference := some ⟨target, onDelete⟩
    relationship := some (attr.relationship.getD .has) }

/-- Stands for an ordered collection of objects of another class. -/
def collecting (attr : Attribute) (target : String) : Attribute :=
  { attr with
    reference := some ⟨target, .cascade⟩
    relationship := some .hasMany }

def isCollection (attr : Attribute) : Bool :=
  attr.relationship == some .hasMany

def isReference (attr : Attribute) : Bool :=
  attr.reference.isSome && !attr.isCollection

/-- The values belong to the extended or mediated object. -/
def isDelegated (attr : Attribute) : Bool :=
  attr.delegatesTo.isSome

/-- The values are in a column of the class table. -/
def isStored (attr : Attribute) : Bool :=
  attr.flags.persistent && attr.column.isSome && !attr.isCollection

/-- The values can be searched and delegated: they are stored somewhere and single. -/
def isSearchable (attr : Attribute) : Bool :=
  attr.flags.persistent && !attr.isCollection

/-- The type by which values are compared; references compare the numbers of objects. -/
def searchType (attr : Attribute) : SemanticType :=
  if attr.isReference then .whole else attr.type

/-- The column of the class table, by default the name. -/
def storageColumn (attr : Attribute) : String :=
  attr.column.getD attr.name

/-- The number that identifies an object, which every class has. -/
def identifier : Attribute :=
  { (declare "id" .whole).required with column := some "id", viewColumn := "id" }

end Attribute

end ClassStore.Catalog
