import ClassStore.Proofs.Catalog.Resolved
import Mathlib.Data.List.Perm.Subperm
import Mathlib.Logic.Relation

/-!
# Topological order

Classes are the nodes of a graph in which every class has an edge to each class
that it names.  A class with a collection of its own class may name itself, so
its edges to itself do not count.

The search for an order of dependencies sorts this graph topologically: it finds
an order exactly if the graph has no cycle, and otherwise it reports a class on a
cycle.  That a reported class is on a cycle rests on the path of the search, on
which every class needs the one that is visited next: `LeadsTo`.
-/

namespace ClassStore.Catalog

open Relation

/-! ## The graph -/

/-- The attribute refers to objects of the class, to one or to a collection of them. -/
def Attribute.RefersTo (attr : Attribute) (target : String) : Prop :=
  ∃ reference, attr.reference = some reference ∧ reference.target = target

namespace ObjectClass

/-- The class has the target as its parent, or extends or mediates it. -/
def DerivesFrom (objectClass : ObjectClass) (target : String) : Prop :=
  objectClass.parent = some target ∨
    objectClass.extended = some target ∨
    objectClass.mediated = some target

/-- The class derives from the target or has an attribute that refers to it. -/
def Names (objectClass : ObjectClass) (target : String) : Prop :=
  objectClass.DerivesFrom target ∨ ∃ attr ∈ objectClass.attributes, attr.RefersTo target

/-- The class has a collection of objects of its own class. -/
def CollectsItself (objectClass : ObjectClass) : Prop :=
  ∃ attr ∈ objectClass.attributes,
    attr.isCollection = true ∧ attr.RefersTo objectClass.key

end ObjectClass

/-- The edges of the graph: what a class names, except itself if it collects itself. -/
def Needs (classes : List ObjectClass) (source target : String) : Prop :=
  ∃ objectClass ∈ classes,
    objectClass.key = source ∧ objectClass.Names target ∧
      (target = source → ¬ objectClass.CollectsItself)

/-- The keys of the graph's nodes stand behind those of all nodes that they need. -/
def Sorted (classes : List ObjectClass) (order : List String) : Prop :=
  ∀ front source back,
    order = front ++ source :: back →
    ∀ target, Needs classes source target → target ∈ front

namespace ObjectClass

theorem mem_attributeTargets_iff
    {objectClass : ObjectClass}
    {target : String} :
    target ∈ objectClass.attributeTargets ↔
      ∃ attr ∈ objectClass.attributes, attr.RefersTo target := by
  simp [attributeTargets, Attribute.RefersTo, List.mem_filterMap, Option.map_eq_some_iff]

theorem mem_dependencies_iff
    {objectClass : ObjectClass}
    {target : String} :
    target ∈ objectClass.dependencies ↔ objectClass.Names target := by
  rw [dependencies, List.mem_append, mem_attributeTargets_iff]
  simp [Names, DerivesFrom, List.mem_filterMap, eq_comm]

theorem collects_self_iff {objectClass : ObjectClass} :
    objectClass.collects objectClass.key = true ↔ objectClass.CollectsItself := by
  simp [collects, CollectsItself, Attribute.RefersTo, Option.any_eq_true]

theorem mem_prerequisites_iff
    {objectClass : ObjectClass}
    {target : String} :
    target ∈ objectClass.prerequisites ↔
      objectClass.Names target ∧
        (target = objectClass.key → ¬ objectClass.CollectsItself) := by
  rw [prerequisites, List.mem_filter, mem_dependencies_iff, ← collects_self_iff]
  by_cases same : target = objectClass.key
  · simp [same]
  · simp [same]

end ObjectClass

section Graph

variable
    {classes : List ObjectClass}

theorem needs_iff
    (unique : (classes.map ObjectClass.key).Nodup)
    {source target : String} :
    Needs classes source target ↔
      ∃ objectClass,
        findClass? classes source = some objectClass ∧ target ∈ objectClass.prerequisites := by
  constructor
  · rintro ⟨objectClass, isClass, rfl, names, counts⟩
    exact ⟨objectClass, find?_eq_some_of_mem ObjectClass.key unique isClass,
      ObjectClass.mem_prerequisites_iff.mpr ⟨names, counts⟩⟩
  · rintro ⟨objectClass, found, needed⟩
    rcases findClass?_eq_some found with ⟨isClass, rfl⟩
    rcases ObjectClass.mem_prerequisites_iff.mp needed with ⟨names, counts⟩
    exact ⟨objectClass, isClass, rfl, names, counts⟩

/-- What a class needs is known if all that classes name is known. -/
theorem isSome_of_needs
    (known :
      ∀ objectClass ∈ classes, ∀ target, objectClass.Names target →
        target ∈ classes.map ObjectClass.key)
    {source target : String}
    (needs : Needs classes source target) :
    (findClass? classes target).isSome := by
  rcases needs with ⟨objectClass, isClass, _, names, _⟩
  exact isSome_findClass?.mpr (known objectClass isClass target names)

/-- An order of classes with their prerequisites sorts the graph. -/
theorem Ordered.sorted
    (unique : (classes.map ObjectClass.key).Nodup)
    (known :
      ∀ objectClass ∈ classes, ∀ target, objectClass.Names target →
        target ∈ classes.map ObjectClass.key)
    {order : List String}
    (isOrdered : Ordered classes order) :
    Sorted classes order := by
  intro front source back split target needs
  rcases (needs_iff unique).mp needs with ⟨objectClass, found, needed⟩
  exact isOrdered.behind front source back split objectClass found target needed
    (isSome_of_needs known needs)

end Graph

/-! ## Sorted graphs have no cycle -/

/-- In a sorted list without repetitions every edge leads to an earlier position. -/
theorem Sorted.idxOf_lt
    {classes : List ObjectClass}
    {order : List String}
    (sorted : Sorted classes order)
    {source target : String}
    (inOrder : source ∈ order)
    (needs : Needs classes source target) :
    target ∈ order ∧ order.idxOf target < order.idxOf source := by
  rcases List.eq_append_cons_of_mem inOrder with ⟨front, back, split, first⟩
  have inFront : target ∈ front := sorted front source back split target needs
  rw [split]
  constructor
  · exact List.mem_append_left _ inFront
  · rw [List.idxOf_append_of_mem inFront, List.idxOf_append_of_notMem first]
    exact Nat.lt_add_right _ (List.idxOf_lt_length_of_mem inFront)

/-- Along a path in a sorted graph the positions become smaller. -/
theorem Sorted.idxOf_lt_of_transGen
    {classes : List ObjectClass}
    {order : List String}
    (sorted : Sorted classes order)
    {source target : String}
    (inOrder : source ∈ order)
    (path : TransGen (Needs classes) source target) :
    target ∈ order ∧ order.idxOf target < order.idxOf source := by
  induction path with
  | single needs => exact sorted.idxOf_lt inOrder needs
  | tail _ needs inductionHypothesis =>
      rcases inductionHypothesis with ⟨betweenInOrder, earlier⟩
      rcases sorted.idxOf_lt betweenInOrder needs with ⟨targetInOrder, evenEarlier⟩
      exact ⟨targetInOrder, Nat.lt_trans evenEarlier earlier⟩

theorem mem_keys_of_transGen
    {classes : List ObjectClass}
    {source target : String}
    (path : TransGen (Needs classes) source target) :
    source ∈ classes.map ObjectClass.key := by
  rcases TransGen.head'_iff.mp path with ⟨_, ⟨objectClass, isClass, rfl, _⟩, _⟩
  exact List.mem_map_of_mem isClass

/-- Classes that can be sorted have no cycle. -/
theorem Sorted.acyclic
    {classes : List ObjectClass}
    {order : List String}
    (sorted : Sorted classes order)
    (complete : ∀ key ∈ classes.map ObjectClass.key, key ∈ order)
    (key : String) :
    ¬ TransGen (Needs classes) key key := by
  intro cycle
  have inOrder : key ∈ order := complete key (mem_keys_of_transGen cycle)
  exact Nat.lt_irrefl _ (sorted.idxOf_lt_of_transGen inOrder cycle).2

/-! ## A reported class is on a cycle -/

/-- What fails in two steps fails in one of them. -/
theorem error_of_bind_eq_error
    {Error Input Output : Type}
    {first : Except Error Input}
    {following : Input → Except Error Output}
    {error : Error}
    (outcome : (first >>= following) = .error error) :
    first = .error error ∨ ∃ input, first = .ok input ∧ following input = .error error := by
  cases first with
  | error other =>
      cases outcome
      exact .inl rfl
  | ok input => exact .inr ⟨input, rfl, outcome⟩

/-- The path leads to the class: each class on it needs the one visited next. -/
def LeadsTo (classes : List ObjectClass) : List String → String → Prop
  | [], _ => True
  | source :: path, key => Needs classes source key ∧ LeadsTo classes path source

/-- From each class on a path one can get to where the path leads. -/
theorem LeadsTo.transGen
    {classes : List ObjectClass}
    {path : List String}
    {key source : String}
    (leads : LeadsTo classes path key)
    (onPath : source ∈ path) :
    TransGen (Needs classes) source key := by
  induction path generalizing key with
  | nil => cases onPath
  | cons last path inductionHypothesis =>
      rcases leads with ⟨needs, leads⟩
      rcases List.mem_cons.mp onPath with rfl | earlier
      · exact .single needs
      · exact .tail (inductionHypothesis leads earlier) needs

/-- Visits one after the other fail where one of them fails. -/
theorem exists_visit_eq_error
    {visit : List String → String → Except CatalogError (List String)}
    {targets ordered : List String}
    {error : CatalogError}
    (fails : visitAll visit ordered targets = .error error) :
    ∃ target ∈ targets, ∃ before, visit before target = .error error := by
  induction targets generalizing ordered with
  | nil => cases fails
  | cons target targets inductionHypothesis =>
      rw [visitAll] at fails
      rcases error_of_bind_eq_error fails with firstFails | ⟨between, _, othersFail⟩
      · exact ⟨target, List.mem_cons_self, ordered, firstFails⟩
      · rcases inductionHypothesis othersFail with ⟨other, isTarget, failing⟩
        exact ⟨other, List.mem_cons_of_mem _ isTarget, failing⟩

/-- The classes that are being visited, on the way to one more. -/
structure Visiting (classes : List ObjectClass) (depth : Nat) (path : List String)
    (key : String) : Prop where
  leads : LeadsTo classes path key
  nodup : path.Nodup
  known : ∀ source ∈ path, source ∈ classes.map ObjectClass.key
  depth : path.length + depth = classes.length + 1

/-- The path of the search is never longer than the number of classes. -/
theorem Visiting.depth_pos
    {classes : List ObjectClass}
    {depth : Nat}
    {path : List String}
    {key : String}
    (visiting : Visiting classes depth path key) :
    0 < depth := by
  have bounded : path.length ≤ (classes.map ObjectClass.key).length :=
    (List.subperm_of_subset visiting.nodup visiting.known).length_le
  rw [List.length_map] at bounded
  have depth := visiting.depth
  omega

/-- A visit fails only at a class on a cycle. -/
theorem exists_cycle_of_visitClass
    {classes : List ObjectClass}
    (unique : (classes.map ObjectClass.key).Nodup)
    (depth : Nat)
    {path ordered : List String}
    {key : String}
    {error : CatalogError}
    (visiting : Visiting classes depth path key)
    (fails : visitClass classes depth path ordered key = .error error) :
    ∃ member, error = .cycle member ∧ TransGen (Needs classes) member member := by
  induction depth generalizing path ordered key with
  | zero => exact absurd visiting.depth_pos (Nat.lt_irrefl 0)
  | succ depth inductionHypothesis =>
      unfold visitClass at fails
      split at fails
      · cases fails
      · split at fails
        · next onPath =>
            cases fails
            exact ⟨key, rfl, visiting.leads.transGen (by simpa using onPath)⟩
        · next offPath =>
            cases found : findClass? classes key with
            | none => simp [found] at fails
            | some objectClass =>
                simp only [found] at fails
                have needFails := (error_of_bind_eq_error fails).resolve_right (by simp)
                rcases exists_visit_eq_error needFails with ⟨target, needed, before, fails⟩
                have next : Visiting classes depth (key :: path) target := by
                  constructor
                  · exact ⟨(needs_iff unique).mpr ⟨objectClass, found, needed⟩, visiting.leads⟩
                  · exact List.nodup_cons.mpr ⟨by simpa using offPath, visiting.nodup⟩
                  · intro source onPath
                    rcases List.mem_cons.mp onPath with rfl | earlier
                    · exact isSome_findClass?.mp (by rw [found]; rfl)
                    · exact visiting.known source earlier
                  · have depth := visiting.depth
                    rw [List.length_cons]
                    omega
                exact inductionHypothesis next fails

/-- The search for an order of dependencies fails only at a class on a cycle. -/
theorem exists_cycle_of_dependencyOrder
    {classes : List ObjectClass}
    (unique : (classes.map ObjectClass.key).Nodup)
    {error : CatalogError}
    (fails : dependencyOrder classes = .error error) :
    ∃ member, error = .cycle member ∧ TransGen (Needs classes) member member := by
  rcases exists_visit_eq_error fails with ⟨key, _, before, fails⟩
  apply exists_cycle_of_visitClass unique (classes.length + 1) _ fails
  exact ⟨trivial, List.nodup_nil, by simp, by simp⟩

/-! ## The declared order -/

/-- Classes that are in order are not visited again. -/
theorem visitAll_of_mem
    {classes : List ObjectClass}
    {depth : Nat}
    {path ordered targets : List String}
    (inOrder : ∀ target ∈ targets, target ∈ ordered) :
    visitAll (visitClass classes depth path) ordered targets = .ok ordered := by
  induction targets with
  | nil => rfl
  | cons target targets inductionHypothesis =>
      have present : ordered.contains target = true := by
        simpa using inOrder target List.mem_cons_self
      have first : visitClass classes depth path ordered target = .ok ordered := by
        unfold visitClass
        rw [if_pos present]
      rw [visitAll, first]
      exact inductionHypothesis fun other isTarget =>
        inOrder other (List.mem_cons_of_mem _ isTarget)

/-- A visit adds a class at the end if everything that it needs is in order. -/
theorem visitClass_eq_ok
    {classes : List ObjectClass}
    {depth : Nat}
    {ordered : List String}
    {key : String}
    {objectClass : ObjectClass}
    (fresh : key ∉ ordered)
    (found : findClass? classes key = some objectClass)
    (needs : ∀ target ∈ objectClass.prerequisites, target ∈ ordered) :
    visitClass classes (depth + 1) [] ordered key = .ok (ordered ++ [key]) := by
  unfold visitClass
  rw [if_neg (by simpa using fresh)]
  simp only [List.contains_nil, Bool.false_eq_true, if_false, found]
  rw [visitAll_of_mem needs]
  rfl

/-- Classes that are declared behind what they need are left in their order. -/
theorem dependencyOrder_of_sorted
    {classes : List ObjectClass}
    (unique : (classes.map ObjectClass.key).Nodup)
    (sorted : Sorted classes (classes.map ObjectClass.key)) :
    dependencyOrder classes = .ok (classes.map ObjectClass.key) := by
  -- Induction on the classes still to be visited; those in front of them are in order.
  have visited : ∀ keys ordered : List String,
      classes.map ObjectClass.key = ordered ++ keys →
      visitAll (visitClass classes (classes.length + 1) []) ordered keys = .ok (ordered ++ keys) := by
    intro keys
    induction keys with
    | nil =>
        intro ordered _
        rw [List.append_nil]
        rfl
    | cons key keys inductionHypothesis =>
        intro ordered split
        have isKey : key ∈ classes.map ObjectClass.key := by simp [split]
        rcases Option.isSome_iff_exists.mp (isSome_findClass?.mpr isKey) with
          ⟨objectClass, found⟩
        have fresh : key ∉ ordered := by
          intro inOrder
          rw [split, List.nodup_append] at unique
          exact unique.2.2 key inOrder key List.mem_cons_self rfl
        have needs : ∀ target ∈ objectClass.prerequisites, target ∈ ordered := by
          intro target needed
          exact sorted ordered key keys split target
            ((needs_iff unique).mpr ⟨objectClass, found, needed⟩)
        rw [visitAll, visitClass_eq_ok fresh found needs]
        have regroup : ordered ++ key :: keys = ordered ++ [key] ++ keys := by simp
        rw [regroup] at split ⊢
        exact inductionHypothesis (ordered ++ [key]) split
  exact visited _ [] rfl

/-! ## Sorting -/

/-- An order that is found has the same classes as the declaration. -/
theorem perm_of_dependencyOrder
    {classes : List ObjectClass}
    (unique : (classes.map ObjectClass.key).Nodup)
    {order : List String}
    (found : dependencyOrder classes = .ok order) :
    order.Perm (classes.map ObjectClass.key) := by
  have visited := visited_of_dependencyOrder found
  apply (List.perm_ext_iff_of_nodup visited.isOrdered.nodup unique).mpr
  intro key
  constructor
  · intro inOrder
    exact isSome_findClass?.mp (visited.isOrdered.known key inOrder)
  · intro isKey
    exact visited.reaches key isKey (isSome_findClass?.mpr isKey)

/--
The order of dependencies is a topological order.

Among classes with different keys that name only each other, an order is found
exactly if the graph of what they need has no cycle.  The order has every class
once and behind all classes that it needs, and it is the declared order if that
is already of this kind.  If there is no order, the class that is reported is on
a cycle.
-/
theorem dependencyOrder_sorts
    {classes : List ObjectClass}
    (unique : (classes.map ObjectClass.key).Nodup)
    (known :
      ∀ objectClass ∈ classes, ∀ target, objectClass.Names target →
        target ∈ classes.map ObjectClass.key) :
    ((∃ order, dependencyOrder classes = .ok order) ↔
      ∀ key, ¬ TransGen (Needs classes) key key) ∧
    (∀ order, dependencyOrder classes = .ok order →
      order.Perm (classes.map ObjectClass.key) ∧ Sorted classes order) ∧
    (Sorted classes (classes.map ObjectClass.key) →
      dependencyOrder classes = .ok (classes.map ObjectClass.key)) ∧
    (∀ error, dependencyOrder classes = .error error →
      ∃ key, error = .cycle key ∧ TransGen (Needs classes) key key) := by
  have sorts : ∀ order, dependencyOrder classes = .ok order →
      order.Perm (classes.map ObjectClass.key) ∧ Sorted classes order := by
    intro order found
    exact ⟨perm_of_dependencyOrder unique found,
      (visited_of_dependencyOrder found).isOrdered.sorted unique known⟩
  refine ⟨?_, sorts, dependencyOrder_of_sorted unique, fun _ fails =>
    exists_cycle_of_dependencyOrder unique fails⟩
  constructor
  · rintro ⟨order, found⟩
    rcases sorts order found with ⟨sameKeys, sorted⟩
    exact sorted.acyclic fun key isKey => sameKeys.mem_iff.mpr isKey
  · intro acyclic
    cases outcome : dependencyOrder classes with
    | ok order => exact ⟨order, rfl⟩
    | error error =>
        rcases exists_cycle_of_dependencyOrder unique outcome with ⟨key, _, cycle⟩
        exact absurd cycle (acyclic key)

/-- A book that is declared in front of its author, and persons that know each other. -/
def shelf : List ObjectClass :=
  [{ ObjectClass.declare "novel" with
      parent := some "book" },
    { ObjectClass.declare "book" with
      attributes := [(Attribute.declare "author" .whole).referringTo "person" .restrict] },
    { ObjectClass.declare "person" with
      attributes := [(Attribute.declare "friends" .whole).collecting "person"] }]

/-- The classes of the shelf are sorted in reverse. -/
theorem sorted_shelf :
    (shelf.map ObjectClass.key).Nodup ∧
    (∀ objectClass ∈ shelf, ∀ target, objectClass.Names target →
      target ∈ shelf.map ObjectClass.key) ∧
    (∀ key, ¬ TransGen (Needs shelf) key key) ∧
    Sorted shelf ["person", "book", "novel"] := by
  have unique : (shelf.map ObjectClass.key).Nodup := by decide +kernel
  have named : ∀ objectClass ∈ shelf, ∀ target ∈ objectClass.dependencies,
      target ∈ shelf.map ObjectClass.key := by
    decide +kernel
  have known : ∀ objectClass ∈ shelf, ∀ target, objectClass.Names target →
      target ∈ shelf.map ObjectClass.key := by
    intro objectClass isClass target names
    exact named objectClass isClass target (ObjectClass.mem_dependencies_iff.mpr names)
  have found : dependencyOrder shelf = .ok ["person", "book", "novel"] := by decide +kernel
  rcases dependencyOrder_sorts unique known with ⟨foundIff, sorts, _, _⟩
  exact ⟨unique, known, foundIff.mp ⟨_, found⟩, (sorts _ found).2⟩

end ClassStore.Catalog
