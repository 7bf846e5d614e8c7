import ClassStore.Catalog.ObjectClass
import ClassStore.Catalog.CatalogError

/-!
# Dependencies between classes

A class depends on its parent, on the class it extends or mediates, and on
every class that its attributes name.  `dependencyOrder` puts each class after
those it depends on.  It searches depth first, taking classes and dependencies
in the order of their declaration, so the order is the declared one wherever
that is possible.  Only a class that collects objects of its own class may name
itself.
-/

namespace ClassStore.Catalog

/-- The keys are different from each other; otherwise the first repeated one is at fault. -/
def checkKeys (earlier : List String) : List ObjectClass → Except CatalogError Unit
  | [] => .ok ()
  | objectClass :: classes =>
      if earlier.contains objectClass.key then
        .error (.duplicateClass objectClass.key)
      else
        checkKeys (objectClass.key :: earlier) classes

/-- One class has at most one identity target and names only classes that exist. -/
def checkTargetsOf (keys : List String) (objectClass : ObjectClass) : Except CatalogError Unit :=
  if objectClass.extended.isSome && objectClass.mediated.isSome then
    .error (.extendsAndMediates objectClass.key)
  else
    match objectClass.dependencies.find? fun target => !keys.contains target with
    | some target => .error (.unknownClass objectClass.key target)
    | none => .ok ()

/-- Every class has at most one identity target and names only classes that exist. -/
def checkTargets (keys : List String) : List ObjectClass → Except CatalogError Unit
  | [] => .ok ()
  | objectClass :: classes => do
      checkTargetsOf keys objectClass
      checkTargets keys classes

/-- The dependencies that must come first; a class that collects itself may name itself. -/
def ObjectClass.prerequisites (objectClass : ObjectClass) : List String :=
  objectClass.dependencies.filter fun target =>
    !(target == objectClass.key && objectClass.collects target)

/-- Visits targets one after the other, each adding to the classes already in order. -/
def visitAll
    (visit : List String → String → Except CatalogError (List String))
    (ordered : List String) : List String → Except CatalogError (List String)
  | [] => .ok ordered
  | target :: targets => do
      let ordered ← visit ordered target
      visitAll visit ordered targets

/--
Puts a class behind its prerequisites.

The path holds the classes that are being visited; meeting one of them again
closes a cycle.  The path cannot grow longer than the number of classes, which
bounds the depth of the search.
-/
def visitClass (classes : List ObjectClass) :
    Nat → List String → List String → String → Except CatalogError (List String)
  | depth, path, ordered, key =>
      if ordered.contains key then
        .ok ordered
      else if path.contains key then
        .error (.cycle key)
      else
        match depth, findClass? classes key with
        | 0, _ => .error (.cycle key)
        | _ + 1, none => .ok ordered
        | depth + 1, some objectClass => do
            let ordered ←
              visitAll (visitClass classes depth (key :: path)) ordered objectClass.prerequisites
            .ok (ordered ++ [key])

/-- The keys of the classes, each behind those it depends on. -/
def dependencyOrder (classes : List ObjectClass) : Except CatalogError (List String) :=
  visitAll (visitClass classes (classes.length + 1) []) [] (classes.map ObjectClass.key)

end ClassStore.Catalog
