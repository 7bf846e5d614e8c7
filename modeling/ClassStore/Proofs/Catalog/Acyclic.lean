import ClassStore.Proofs.Catalog.Settled
import ClassStore.Proofs.Catalog.TopologicalOrder

/-!
# Acyclic catalogs

A class depends on its parent, on the class it extends or mediates, and on the
classes that single references name.  If the classes can be ordered, a class that
depends on itself does so directly and has a collection of its own class beside:
the search leaves out all edges of such a class to itself, not only that of the
collection.  Where no class is of this kind nothing depends on itself, so every
walk over parents ends at a class without one.
-/

namespace ClassStore.Catalog

open Relation

/-! ## Dependence -/

namespace ObjectClass

/-- The class derives from the target or has a single reference to it. -/
def DependsOn (objectClass : ObjectClass) (target : String) : Prop :=
  objectClass.DerivesFrom target ∨
    ∃ attr ∈ objectClass.attributes, attr.isCollection = false ∧ attr.RefersTo target

/-- The class depends on itself and has a collection of its own class beside. -/
def HidesItself (objectClass : ObjectClass) : Prop :=
  objectClass.DependsOn objectClass.key ∧ objectClass.CollectsItself

theorem DependsOn.names
    {objectClass : ObjectClass}
    {target : String}
    (depends : objectClass.DependsOn target) :
    objectClass.Names target := by
  rcases depends with derives | ⟨attr, isAttribute, _, refers⟩
  · exact .inl derives
  · exact .inr ⟨attr, isAttribute, refers⟩

/-- What a class names without depending on it is the class of a collection. -/
theorem Names.cases
    {objectClass : ObjectClass}
    {target : String}
    (names : objectClass.Names target) :
    objectClass.DependsOn target ∨
      ∃ attr ∈ objectClass.attributes, attr.isCollection = true ∧ attr.RefersTo target := by
  rcases names with derives | ⟨attr, isAttribute, refers⟩
  · exact .inl (.inl derives)
  · cases collects : attr.isCollection with
    | false => exact .inl (.inr ⟨attr, isAttribute, collects, refers⟩)
    | true => exact .inr ⟨attr, isAttribute, collects, refers⟩

end ObjectClass

/-- A class depends on another one directly. -/
def Depends (classes : List ObjectClass) (source target : String) : Prop :=
  ∃ objectClass ∈ classes, objectClass.key = source ∧ objectClass.DependsOn target

/-- What a class depends on it needs, unless it hides that it depends on itself. -/
theorem Depends.cases
    {classes : List ObjectClass}
    {source target : String}
    (depends : Depends classes source target) :
    Needs classes source target ∨
      target = source ∧
        ∃ objectClass ∈ classes, objectClass.key = source ∧ objectClass.HidesItself := by
  rcases depends with ⟨objectClass, isClass, rfl, dependsOn⟩
  by_cases hidden : target = objectClass.key ∧ objectClass.CollectsItself
  · rcases hidden with ⟨rfl, collects⟩
    exact .inr ⟨rfl, objectClass, isClass, rfl, dependsOn, collects⟩
  · exact .inl ⟨objectClass, isClass, rfl, dependsOn.names, fun same collects =>
      hidden ⟨same, collects⟩⟩

/-- A path of dependences is one of needs, or turns around at a class that hides itself. -/
theorem transGen_needs_of_depends
    {classes : List ObjectClass}
    {source target : String}
    (path : TransGen (Depends classes) source target) :
    TransGen (Needs classes) source target ∨
      target = source ∧
        ∃ objectClass ∈ classes, objectClass.key = source ∧ objectClass.HidesItself := by
  induction path with
  | single depends =>
      rcases depends.cases with needs | hidden
      · exact .inl (.single needs)
      · exact .inr hidden
  | tail _ depends inductionHypothesis =>
      rcases depends.cases with needs | ⟨rfl, _⟩
      · rcases inductionHypothesis with path | ⟨rfl, _⟩
        · exact .inl (.tail path needs)
        · exact .inl (.single needs)
      · exact inductionHypothesis

/-! ## Walks over parents -/

/-- The walk from a class over its parents ends and passes the given classes. -/
inductive ParentWalk (classes : List ObjectClass) : ObjectClass → List ObjectClass → Prop where
  | root {objectClass : ObjectClass} (noParent : objectClass.parent = none) :
      ParentWalk classes objectClass [objectClass]
  | child {objectClass parent : ObjectClass} {ancestors : List ObjectClass}
      (isParent : parentOf? classes objectClass = some parent)
      (walk : ParentWalk classes parent ancestors) :
      ParentWalk classes objectClass (objectClass :: ancestors)

/-- Where parents have smaller ranks, the walk ends within as many steps as the rank. -/
theorem parentWalk_ancestry
    {classes : List ObjectClass}
    (rank : String → Nat)
    (earlier :
      ∀ objectClass ∈ classes, ∀ parent, objectClass.parent = some parent →
        parent ∈ classes.map ObjectClass.key ∧ rank parent < rank objectClass.key)
    (generations : Nat)
    {objectClass : ObjectClass}
    (isClass : objectClass ∈ classes)
    (bound : rank objectClass.key ≤ generations) :
    ParentWalk classes objectClass (ancestry classes generations objectClass) := by
  induction generations generalizing objectClass with
  | zero =>
      cases parentKey : objectClass.parent with
      | none => exact .root parentKey
      | some parent =>
          have smaller := (earlier objectClass isClass parent parentKey).2
          omega
  | succ generations inductionHypothesis =>
      rw [ancestry]
      cases parentKey : objectClass.parent with
      | none =>
          have noParent : parentOf? classes objectClass = none := by
            rw [parentOf?, parentKey, Option.bind_none]
          rw [noParent]
          exact .root parentKey
      | some key =>
          rcases earlier objectClass isClass key parentKey with ⟨known, smaller⟩
          rcases Option.isSome_iff_exists.mp (isSome_findClass?.mpr known) with ⟨parent, found⟩
          have isParent : parentOf? classes objectClass = some parent := by
            rw [parentOf?, parentKey, Option.bind_some, found]
          rcases findClass?_eq_some found with ⟨parentIsClass, rfl⟩
          rw [isParent]
          exact .child isParent (inductionHypothesis parentIsClass (by omega))

/-- The keys of classes with those of their parents. -/
def lineage (classes : List ObjectClass) : List (String × Option String) :=
  classes.map fun objectClass => (objectClass.key, objectClass.parent)

theorem map_key_eq_of_lineage_eq
    {classes others : List ObjectClass}
    (same : lineage classes = lineage others) :
    classes.map ObjectClass.key = others.map ObjectClass.key := by
  have keys : ∀ list : List ObjectClass,
      list.map ObjectClass.key = (lineage list).map Prod.fst := by
    intro list
    rw [lineage, List.map_map]
    rfl
  rw [keys, keys, same]

/-- A class that takes the place of its declaration has the same parent. -/
theorem lineage_replaceClass
    {classes : List ObjectClass}
    (distinct : (classes.map ObjectClass.key).Nodup)
    {objectClass resolved : ObjectClass}
    (found : findClass? classes resolved.key = some objectClass)
    (parent : resolved.parent = objectClass.parent) :
    lineage (replaceClass resolved classes) = lineage classes := by
  rw [lineage, replaceClass, List.map_map]
  apply List.map_congr_left
  intro other isClass
  simp only [Function.comp_apply]
  split
  · next same =>
      have foundOther := find?_eq_some_of_mem ObjectClass.key distinct isClass
      rw [same] at foundOther
      rw [Option.some.inj (foundOther.symm.trans found), parent, ← same,
        Option.some.inj (foundOther.symm.trans found)]
  · rfl

/-- Resolving classes leaves their parents as they are. -/
theorem lineage_resolveAll
    {classes final : List ObjectClass}
    {columns finalColumns : List (String × List String)}
    {keys : List String}
    (distinct : (classes.map ObjectClass.key).Nodup)
    (outcome : resolveAll classes columns keys = .ok (final, finalColumns)) :
    lineage final = lineage classes := by
  induction keys generalizing classes columns with
  | nil =>
      cases outcome
      rfl
  | cons key keys inductionHypothesis =>
      rcases cases_resolveAll outcome with
        ⟨_, passed⟩ | ⟨_, resolved, found, resolution, rfl, others⟩
      · exact inductionHypothesis distinct passed
      · have kept : lineage (replaceClass resolved classes) = lineage classes :=
          lineage_replaceClass distinct found (resolvedTo_of_resolveClass resolution).parent
        rw [← kept]
        apply inductionHypothesis _ others
        rw [map_key_replaceClass]
        exact distinct

theorem lineage_build
    {declared : List ObjectClass}
    {catalog : Catalog}
    (distinct : (declared.map ObjectClass.key).Nodup)
    (built : Catalog.build declared = .ok catalog) :
    lineage catalog.classes = lineage declared :=
  lineage_resolveAll distinct (buildSteps_of_build built).resolution

/-! ## What the checks of a catalog exclude -/

/-- Keys that have been checked are different. -/
theorem nodup_of_checkKeys
    {earlier : List String}
    {classes : List ObjectClass}
    (checked : checkKeys earlier classes = .ok ()) :
    (classes.map ObjectClass.key).Nodup ∧
      ∀ objectClass ∈ classes, objectClass.key ∉ earlier := by
  induction classes generalizing earlier with
  | nil => simp
  | cons first classes inductionHypothesis =>
      rw [checkKeys] at checked
      split at checked
      · cases checked
      · next fresh =>
          rcases inductionHypothesis checked with ⟨distinct, later⟩
          constructor
          · rw [List.map_cons, List.nodup_cons]
            refine ⟨?_, distinct⟩
            intro repeated
            rcases List.mem_map.mp repeated with ⟨other, isClass, sameKey⟩
            apply later other isClass
            rw [sameKey]
            exact List.mem_cons_self
          · intro objectClass isClass
            rcases List.mem_cons.mp isClass with rfl | isOther
            · simpa using fresh
            · intro isEarlier
              exact later objectClass isOther (List.mem_cons_of_mem _ isEarlier)

/-- Every class of a catalog is found by its key. -/
theorem find?_of_mem_classes
    {declared : List ObjectClass}
    {catalog : Catalog}
    (built : Catalog.build declared = .ok catalog)
    {objectClass : ObjectClass}
    (isClass : objectClass ∈ catalog.classes) :
    catalog.find? objectClass.key = some objectClass := by
  apply find?_eq_some_of_mem ObjectClass.key _ isClass
  rw [(resolved_of_build built).resolving.sameKeys]
  exact (nodup_of_checkKeys (buildSteps_of_build built).keysChecked).1

/-- Targets that have been checked are known. -/
theorem known_of_names
    {declared : List ObjectClass}
    (checked : checkTargets (declared.map ObjectClass.key) declared = .ok ()) :
    ∀ objectClass ∈ declared, ∀ target, objectClass.Names target →
      target ∈ declared.map ObjectClass.key := by
  intro objectClass isDeclared target names
  exact known_of_checkTargets checked objectClass isDeclared target
    (ObjectClass.mem_dependencies_iff.mpr names)

/-- Where no class hides itself, what a class depends on it needs. -/
theorem Depends.needs
    {declared : List ObjectClass}
    (unhidden : ∀ objectClass ∈ declared, ¬ objectClass.HidesItself)
    {source target : String}
    (depends : Depends declared source target) :
    Needs declared source target := by
  rcases depends.cases with needs | ⟨_, objectClass, isDeclared, _, hides⟩
  · exact needs
  · exact absurd hides (unhidden objectClass isDeclared)

/-- The ancestors of a class are all passed on the way to the root. -/
theorem parentWalk_chainOf
    {declared : List ObjectClass}
    {order : List String}
    (sorted : Sorted declared order)
    (sameKeys : order.Perm (declared.map ObjectClass.key))
    (unhidden : ∀ objectClass ∈ declared, ¬ objectClass.HidesItself)
    {classes : List ObjectClass}
    (sameLineage : lineage classes = lineage declared)
    {objectClass : ObjectClass}
    (isClass : objectClass ∈ classes) :
    ParentWalk classes objectClass (chainOf classes objectClass).reverse := by
  have keys := map_key_eq_of_lineage_eq sameLineage
  have earlier : ∀ objectClass ∈ classes, ∀ parent, objectClass.parent = some parent →
      parent ∈ classes.map ObjectClass.key ∧
        order.idxOf parent < order.idxOf objectClass.key := by
    intro objectClass isClass parent isParent
    have inLineage : (objectClass.key, objectClass.parent) ∈ lineage declared := by
      rw [← sameLineage]
      exact List.mem_map_of_mem (f := fun other => (other.key, other.parent)) isClass
    rcases List.mem_map.mp inLineage with ⟨original, isDeclared, same⟩
    rcases Prod.mk.inj same with ⟨sameKey, sameParent⟩
    have depends : Depends declared objectClass.key parent :=
      ⟨original, isDeclared, sameKey, .inl (.inl (sameParent.trans isParent))⟩
    have inOrder : objectClass.key ∈ order := by
      rw [sameKeys.mem_iff, ← keys]
      exact List.mem_map_of_mem isClass
    rcases sorted.idxOf_lt inOrder (depends.needs unhidden) with ⟨parentInOrder, smaller⟩
    exact ⟨by rw [keys]; exact sameKeys.mem_iff.mp parentInOrder, smaller⟩
  have inOrder : objectClass.key ∈ order := by
    rw [sameKeys.mem_iff, ← keys]
    exact List.mem_map_of_mem isClass
  have bound : order.idxOf objectClass.key ≤ classes.length := by
    have sameLength : order.length = classes.length := by
      rw [sameKeys.length_eq, ← keys, List.length_map]
    rw [← sameLength]
    exact List.idxOf_le_length
  rw [chainOf, List.reverse_reverse]
  exact parentWalk_ancestry order.idxOf earlier classes.length isClass bound

/--
Classes that are ordered depend on each other without cycles.

If the search finds an order, a class that depends on itself, directly or through
others, has a collection of its own class beside a direct dependence on itself.
Where no class is of this kind, nothing depends on itself; the walk over parents
from a class ends, before, during and after resolution; and a class comes behind
all classes that it names, except itself where it only has a collection of itself.
-/
theorem acyclic_of_dependencyOrder
    {declared : List ObjectClass}
    {order : List String}
    (keysChecked : checkKeys [] declared = .ok ())
    (targetsChecked : checkTargets (declared.map ObjectClass.key) declared = .ok ())
    (ordered : dependencyOrder declared = .ok order) :
    (∀ key, TransGen (Depends declared) key key →
      ∃ objectClass ∈ declared, objectClass.key = key ∧ objectClass.HidesItself) ∧
    ((∀ objectClass ∈ declared, ¬ objectClass.HidesItself) →
      (∀ key, ¬ TransGen (Depends declared) key key) ∧
      (∀ classes, lineage classes = lineage declared →
        ∀ objectClass ∈ classes,
          ParentWalk classes objectClass (chainOf classes objectClass).reverse) ∧
      (∀ catalog, Catalog.build declared = .ok catalog →
        ∀ key objectClass, catalog.find? key = some objectClass →
          ParentWalk catalog.classes objectClass (catalog.chain key).reverse) ∧
      (∀ front source back, order = front ++ source :: back →
        ∀ objectClass ∈ declared, objectClass.key = source →
          ∀ target, objectClass.Names target →
            target ∈ front ∨ target = source ∧ ¬ objectClass.DependsOn source)) := by
  have distinct := (nodup_of_checkKeys keysChecked).1
  have known := known_of_names targetsChecked
  have sorted := (visited_of_dependencyOrder ordered).isOrdered.sorted distinct known
  have sameKeys := perm_of_dependencyOrder distinct ordered
  have acyclic := sorted.acyclic fun key isKey => sameKeys.mem_iff.mpr isKey
  have hides : ∀ key, TransGen (Depends declared) key key →
      ∃ objectClass ∈ declared, objectClass.key = key ∧ objectClass.HidesItself := by
    intro key cycle
    rcases transGen_needs_of_depends cycle with needs | ⟨_, hidden⟩
    · exact absurd needs (acyclic key)
    · exact hidden
  refine ⟨hides, ?_⟩
  intro unhidden
  refine ⟨?_, ?_, ?_, ?_⟩
  · intro key cycle
    rcases hides key cycle with ⟨objectClass, isDeclared, _, hidesItself⟩
    exact unhidden objectClass isDeclared hidesItself
  · intro classes sameLineage objectClass isClass
    exact parentWalk_chainOf sorted sameKeys unhidden sameLineage isClass
  · intro catalog built key objectClass found
    rw [Catalog.chain, found]
    exact parentWalk_chainOf sorted sameKeys unhidden (lineage_build distinct built)
      (findClass?_eq_some found).1
  · rintro front source back split objectClass isDeclared rfl target names
    by_cases needed : target = objectClass.key → ¬ objectClass.CollectsItself
    · exact .inl (sorted front objectClass.key back split target
        ⟨objectClass, isDeclared, rfl, names, needed⟩)
    · rcases Classical.not_imp.mp needed with ⟨same, collects⟩
      refine .inr ⟨same, fun depends => ?_⟩
      exact unhidden objectClass isDeclared ⟨depends, not_not.mp collects⟩

/-- Citizens are persons, who may have friends, and live in a country with a capital. -/
def society : List ObjectClass :=
  [{ ObjectClass.declare "citizen" with
      parent := some "person"
      attributes := [(Attribute.declare "country" .whole).referringTo "country" .restrict] },
    { ObjectClass.declare "country" with
      attributes := [(Attribute.declare "capital" .whole).referringTo "city" .restrict] },
    ObjectClass.declare "city",
    { ObjectClass.declare "person" with
      attributes := [(Attribute.declare "friends" .whole).collecting "person"] }]

/-- Friends that are persons make no person depend on itself. -/
theorem acyclic_society :
    checkKeys [] society = .ok () ∧
    checkTargets (society.map ObjectClass.key) society = .ok () ∧
    dependencyOrder society = .ok ["person", "city", "country", "citizen"] ∧
    (∀ objectClass ∈ society, ¬ objectClass.HidesItself) ∧
    ∀ key, ¬ TransGen (Depends society) key key := by
  have keysChecked : checkKeys [] society = .ok () := by decide +kernel
  have targetsChecked : checkTargets (society.map ObjectClass.key) society = .ok () := by
    decide +kernel
  have ordered : dependencyOrder society = .ok ["person", "city", "country", "citizen"] := by
    decide +kernel
  have unhidden : ∀ objectClass ∈ society, ¬ objectClass.HidesItself := by
    simp [society, ObjectClass.HidesItself, ObjectClass.DependsOn, ObjectClass.DerivesFrom,
      ObjectClass.CollectsItself, Attribute.RefersTo, ObjectClass.declare, ObjectClass.blank,
      Attribute.collecting, Attribute.referringTo, Attribute.isCollection]
  have acyclic := (acyclic_of_dependencyOrder keysChecked targetsChecked ordered).2 unhidden
  exact ⟨keysChecked, targetsChecked, ordered, unhidden, acyclic.1⟩

/-- A class that extends itself and has a collection of itself. -/
def selfExtending : ObjectClass :=
  { ObjectClass.declare "a" with
    extended := some "a"
    attributes := [(Attribute.declare "items" .whole).collecting "a"] }

/-- A class that is its own parent and has a collection of itself. -/
def selfParented : ObjectClass :=
  { ObjectClass.declare "a" with
    parent := some "a"
    attributes := [(Attribute.declare "items" .whole).collecting "a"] }

/-- The walk over parents of a class that is its own parent has no end. -/
theorem not_parentWalk_selfParented (passed : List ObjectClass) :
    ¬ ParentWalk [selfParented] selfParented passed := by
  have own : parentOf? [selfParented] selfParented = some selfParented := by decide +kernel
  -- Induction on the walk: each step of it leads back to the class itself.
  have stays : ∀ objectClass, ParentWalk [selfParented] objectClass passed →
      objectClass ≠ selfParented := by
    intro objectClass walk
    induction walk with
    | root noParent =>
        rintro rfl
        cases noParent
    | child isParent _ inductionHypothesis =>
        rintro rfl
        exact inductionHypothesis (Option.some.inj (isParent.symm.trans own))
  exact fun walk => stays selfParented walk rfl

/--
Beside a collection of its own class, a class may extend itself or be its own
parent, and then the walk over its parents has no end.
-/
theorem exists_accepted_self_dependence :
    (∃ catalog, Catalog.build [selfExtending] = .ok catalog) ∧
    TransGen (Depends [selfExtending]) "a" "a" ∧
    (∃ order, dependencyOrder [selfParented] = .ok order) ∧
    ∀ passed, ¬ ParentWalk [selfParented] selfParented passed := by
  have accepted : (Catalog.build [selfExtending]).toOption.isSome = true := by decide +kernel
  have ordered : dependencyOrder [selfParented] = .ok ["a"] := by decide +kernel
  refine ⟨?_, ?_, ⟨["a"], ordered⟩, not_parentWalk_selfParented⟩
  · cases built : Catalog.build [selfExtending] with
    | error error =>
        rw [built] at accepted
        cases accepted
    | ok catalog => exact ⟨catalog, rfl⟩
  · exact .single ⟨selfExtending, List.mem_singleton.mpr rfl, rfl, .inl (.inr (.inl rfl))⟩

end ClassStore.Catalog
