import ClassStore.Catalog.Dependency
import ClassStore.Catalog.Resolution

/-!
# Catalogs

A catalog holds resolved classes.  It answers which attributes are visible on a
class, which column of the class view a dotted path means, and which columns
the view has.  `Catalog.build` makes a catalog of declared classes or says what
is wrong with them.
-/

namespace ClassStore

open ClassStore.Catalog

/-- The resolved classes in the order of declaration, and what was derived from them. -/
structure Catalog where
  classes : List ObjectClass
  order : List String
  columns : List (String × List String)
deriving DecidableEq, Repr

/-- A dotted path as a class understands it. -/
structure Catalog.ResolvedPath where
  column : String
  attr : Attribute
deriving DecidableEq, Repr

namespace Catalog

def find? (catalog : Catalog) (key : String) : Option ObjectClass :=
  findClass? catalog.classes key

/-- The class and its ancestors, the root first. -/
def chain (catalog : Catalog) (key : String) : List ObjectClass :=
  match catalog.find? key with
  | none => []
  | some objectClass => chainOf catalog.classes objectClass

/-- The most distant ancestor of a class. -/
def root? (catalog : Catalog) (key : String) : Option ObjectClass :=
  (catalog.chain key).head?

/-- The columns of the class view, in their order. -/
def viewColumns (catalog : Catalog) (key : String) : List String :=
  (catalog.columns.lookup key).getD []

/-- The attribute visible on a class: the identifier, its own or an inherited one. -/
def visibleAttribute? (catalog : Catalog) (key name : String) : Option Attribute :=
  if name = "id" then
    (catalog.find? key).map fun _ => Attribute.identifier
  else
    (catalog.chain key).reverse.findSome? fun objectClass => objectClass.ownAttribute? name

/-- Follows the segments of a path from a class, collecting the beginning of the column. -/
def resolveSegments (catalog : Catalog) (front : String) (objectClass : ObjectClass) :
    List String → Option ResolvedPath
  | [] => none
  | [segment] => do
      let attr ← catalog.visibleAttribute? objectClass.key segment
      if attr.isSearchable then
        some ⟨front ++ attr.viewColumn, attr⟩
      else
        none
  | segment :: segments => do
      let attr ← catalog.visibleAttribute? objectClass.key segment
      if attr.isSearchable then
        let reference ← attr.reference
        let target ← catalog.find? reference.target
        catalog.resolveSegments (front ++ attr.name ++ "__") target segments
      else
        none

def pathSegments (path : String) : List String :=
  Text.fields '.' path

/-- The column that a dotted path means, and the attribute at its end. -/
def resolvePath? (catalog : Catalog) (key path : String) : Option ResolvedPath :=
  (catalog.find? key).bind fun objectClass =>
    catalog.resolveSegments "" objectClass (pathSegments path)

/-- The columns that one stored attribute adds to a view. -/
def columnsOfAttribute (columns : List (String × List String)) (attr : Attribute) :
    List String :=
  attr.viewColumn ::
    match attr.reference with
    | none => []
    | some reference =>
        (((columns.lookup reference.target).getD []).filter (· != "id")).map fun column =>
          attr.name ++ "__" ++ column

/-- The columns of a class view, given the columns of the views that it refers to. -/
def flattenColumns (classes : List ObjectClass) (columns : List (String × List String))
    (objectClass : ObjectClass) : List String :=
  "id" :: ((chainOf classes objectClass).flatMap ObjectClass.stored).flatMap
    (columnsOfAttribute columns)

/-- Puts a resolved class in the place of its declaration. -/
def replaceClass (resolved : ObjectClass) (classes : List ObjectClass) : List ObjectClass :=
  classes.map fun objectClass => if objectClass.key = resolved.key then resolved else objectClass

/-- Resolves the classes with the given keys one after the other. -/
def resolveAll (classes : List ObjectClass) (columns : List (String × List String)) :
    List String → Except CatalogError (List ObjectClass × List (String × List String))
  | [] => .ok (classes, columns)
  | key :: keys =>
      match findClass? classes key with
      | none => resolveAll classes columns keys
      | some objectClass => do
          let resolved ← resolveClass classes objectClass
          let classes := replaceClass resolved classes
          resolveAll classes (columns ++ [(key, flattenColumns classes columns resolved)]) keys

def build (declared : List ObjectClass) : Except CatalogError Catalog := do
  checkKeys [] declared
  checkTargets (declared.map ObjectClass.key) declared
  let order ← dependencyOrder declared
  let (classes, columns) ← resolveAll declared [] order
  .ok ⟨classes, order, columns⟩

end Catalog

end ClassStore
