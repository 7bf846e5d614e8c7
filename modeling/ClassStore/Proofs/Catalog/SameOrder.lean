import ClassStore.Proofs.Catalog.Attributes
import ClassStore.Proofs.Catalog.Settled
import ClassStore.Proofs.Catalog.TopologicalOrder

/-!
# The order of resolved classes

A resolved class needs what its declaration needs.  If it shares the identity of another
class, its link names that class a second time, behind its first mention and in front of
what the attributes name (`ResolvedTo.repeats_prerequisites`).

A class that is named again is in order by then, so visiting it again changes nothing:
classes that name the same, be it more than once, are put into the same order
(`NeedSame.dependencyOrder_eq_ok`).
-/

namespace ClassStore.Catalog

/-! ## Targets that are named again -/

/-- The second list names, at one place, some targets again that have been named before. -/
def Repeats (targets more : List String) : Prop :=
  ∃ front again back,
    targets = front ++ back ∧
    more = front ++ again ++ back ∧
    ∀ target ∈ again, target ∈ front

namespace Repeats

variable
    {targets more : List String}

theorem mem_iff
    (repeats : Repeats targets more)
    {target : String} :
    target ∈ more ↔ target ∈ targets := by
  rcases repeats with ⟨front, again, back, rfl, rfl, named⟩
  constructor
  · intro isNamed
    rcases List.mem_append.mp isNamed with early | inBack
    · rcases List.mem_append.mp early with inFront | isAgain
      · exact List.mem_append_left _ inFront
      · exact List.mem_append_left _ (named target isAgain)
    · exact List.mem_append_right _ inBack
  · intro isNamed
    rcases List.mem_append.mp isNamed with inFront | inBack
    · exact List.mem_append_left _ (List.mem_append_left _ inFront)
    · exact List.mem_append_right _ inBack

theorem filter
    (repeats : Repeats targets more)
    (keep : String → Bool) :
    Repeats (targets.filter keep) (more.filter keep) := by
  rcases repeats with ⟨front, again, back, rfl, rfl, named⟩
  refine ⟨front.filter keep, again.filter keep, back.filter keep, ?_, ?_, ?_⟩
  · rw [List.filter_append]
  · rw [List.filter_append, List.filter_append]
  · intro target isAgain
    rcases List.mem_filter.mp isAgain with ⟨isNamed, kept⟩
    exact List.mem_filter.mpr ⟨named target isNamed, kept⟩

end Repeats

/-- Every class of the one list has a counterpart in the other that needs the same classes. -/
structure NeedSame (classes others : List ObjectClass) : Prop where
  sameKeys : others.map ObjectClass.key = classes.map ObjectClass.key
  known :
    ∀ objectClass ∈ classes, ∀ target ∈ objectClass.prerequisites,
      (findClass? classes target).isSome
  repeats :
    ∀ key objectClass other,
      findClass? classes key = some objectClass →
      findClass? others key = some other →
      Repeats objectClass.prerequisites other.prerequisites

theorem visitAll_append
    (visit : List String → String → Except CatalogError (List String))
    (ordered front back : List String) :
    visitAll visit ordered (front ++ back) =
      visitAll visit ordered front >>= fun between => visitAll visit between back := by
  induction front generalizing ordered with
  | nil => rfl
  | cons target front inductionHypothesis =>
      rw [List.cons_append, visitAll, visitAll, bind_assoc]
      congr 1
      funext between
      exact inductionHypothesis between

/-- Visits that come to the same one by one come to the same one after the other. -/
theorem visitAll_eq_ok_of_each
    {classes : List ObjectClass}
    {path : List String}
    {visit other : List String → String → Except CatalogError (List String)}
    (each :
      ∀ ordered target following,
        Ordered classes ordered →
        visit ordered target = .ok following →
        Visited classes path [target] ordered following ∧ other ordered target = .ok following)
    {ordered targets following : List String}
    (isOrdered : Ordered classes ordered)
    (visited : visitAll visit ordered targets = .ok following) :
    visitAll other ordered targets = .ok following := by
  induction targets generalizing ordered with
  | nil => exact visited
  | cons target targets inductionHypothesis =>
      rw [visitAll] at visited ⊢
      rcases exists_of_bind_eq_ok visited with ⟨between, visitedFirst, visitedOthers⟩
      rcases each ordered target between isOrdered visitedFirst with ⟨first, sameFirst⟩
      rw [sameFirst]
      exact inductionHypothesis first.isOrdered visitedOthers

/-- Targets that are named again are in order by then. -/
theorem visitAll_eq_ok_of_repeats
    {classes others : List ObjectClass}
    {depth : Nat}
    {path : List String}
    (each :
      ∀ ordered target following,
        Ordered classes ordered →
        visitClass classes depth path ordered target = .ok following →
        visitClass others depth path ordered target = .ok following)
    {ordered targets more following : List String}
    (isOrdered : Ordered classes ordered)
    (known : ∀ target ∈ targets, (findClass? classes target).isSome)
    (repeats : Repeats targets more)
    (visited : visitAll (visitClass classes depth path) ordered targets = .ok following) :
    visitAll (visitClass others depth path) ordered more = .ok following := by
  rcases repeats with ⟨front, again, back, rfl, rfl, named⟩
  rw [visitAll_append] at visited
  rcases exists_of_bind_eq_ok visited with ⟨between, visitedFront, visitedBack⟩
  have visits : ∀ ordered target following,
      Ordered classes ordered →
      visitClass classes depth path ordered target = .ok following →
      Visited classes path [target] ordered following ∧
        visitClass others depth path ordered target = .ok following :=
    fun _ _ _ isOrdered visited =>
      ⟨visited_of_visitClass depth isOrdered visited, each _ _ _ isOrdered visited⟩
  have reached := visited_of_visitAll
    (fun _ _ _ isOrdered visited => visited_of_visitClass depth isOrdered visited)
    isOrdered visitedFront
  have nothingNew : visitAll (visitClass others depth path) between again = .ok between := by
    apply visitAll_of_mem
    intro target isNamed
    have inFront := named target isNamed
    exact reached.reaches target inFront (known target (List.mem_append_left _ inFront))
  rw [visitAll_append, visitAll_append, visitAll_eq_ok_of_each visits isOrdered visitedFront]
  simp only [bind, Except.bind]
  rw [nothingNew]
  exact visitAll_eq_ok_of_each visits reached.isOrdered visitedBack

namespace NeedSame

variable
    {classes others : List ObjectClass}

theorem findClass?_eq_none
    (needSame : NeedSame classes others)
    {key : String}
    (unknown : findClass? classes key = none) :
    findClass? others key = none := by
  rw [← Option.not_isSome_iff_eq_none, isSome_findClass?] at unknown ⊢
  rwa [needSame.sameKeys]

theorem exists_findClass?
    (needSame : NeedSame classes others)
    {key : String}
    {objectClass : ObjectClass}
    (found : findClass? classes key = some objectClass) :
    ∃ other, findClass? others key = some other := by
  apply Option.isSome_iff_exists.mp
  rw [isSome_findClass?, needSame.sameKeys, ← isSome_findClass?, found]
  rfl

/-- A visit that succeeds comes to the same where some targets are named again. -/
theorem visitClass_eq_ok_again
    (needSame : NeedSame classes others)
    (depth : Nat)
    {path ordered following : List String}
    {key : String}
    (isOrdered : Ordered classes ordered)
    (visited : visitClass classes depth path ordered key = .ok following) :
    visitClass others depth path ordered key = .ok following := by
  induction depth generalizing path ordered following key with
  | zero =>
      rw [visitClass] at visited ⊢
      split at visited
      · next present => rw [if_pos present, visited]
      · split at visited <;> cases visited
  | succ depth inductionHypothesis =>
      unfold visitClass at visited ⊢
      split at visited
      · next present => rw [if_pos present, visited]
      · next absent =>
          split at visited
          · cases visited
          next offPath =>
            rw [if_neg absent, if_neg offPath]
            cases found : findClass? classes key with
            | none =>
                rw [found] at visited
                rw [needSame.findClass?_eq_none found]
                exact visited
            | some objectClass =>
                rcases needSame.exists_findClass? found with ⟨other, foundOther⟩
                simp only [found] at visited
                simp only [foundOther]
                rcases exists_of_bind_eq_ok visited with ⟨between, visitedNeeds, last⟩
                have again : visitAll (visitClass others depth (key :: path)) ordered
                    other.prerequisites = .ok between := by
                  apply visitAll_eq_ok_of_repeats _ isOrdered
                    (needSame.known objectClass (findClass?_eq_some found).1)
                    (needSame.repeats key objectClass other found foundOther) visitedNeeds
                  intro ordered target following isOrdered visited
                  exact inductionHypothesis isOrdered visited
                rw [again]
                exact last

/-- Classes that need the same are put into the same order. -/
theorem dependencyOrder_eq_ok
    (needSame : NeedSame classes others)
    {order : List String}
    (ordered : dependencyOrder classes = .ok order) :
    dependencyOrder others = .ok order := by
  have sameLength : others.length = classes.length := by
    simpa using congrArg List.length needSame.sameKeys
  rw [dependencyOrder, sameLength, needSame.sameKeys]
  have each : ∀ ordered target following,
      Ordered classes ordered →
      visitClass classes (classes.length + 1) [] ordered target = .ok following →
      Visited classes [] [target] ordered following ∧
        visitClass others (classes.length + 1) [] ordered target = .ok following :=
    fun _ _ _ isOrdered visited =>
      ⟨visited_of_visitClass _ isOrdered visited,
        needSame.visitClass_eq_ok_again _ isOrdered visited⟩
  exact visitAll_eq_ok_of_each each (ordered_nil classes) ordered

end NeedSame

/-! ## What a resolved class needs -/

/-- The class whose identity is shared is one of those that the class derives from. -/
theorem ObjectClass.mem_derived_of_identityTarget
    {objectClass : ObjectClass}
    {target : String}
    {relationship : Relationship}
    (isTarget : objectClass.identityTarget = some (target, relationship)) :
    target ∈
      [objectClass.parent, objectClass.extended, objectClass.mediated].filterMap id := by
  rcases ObjectClass.identityTarget_eq_some isTarget with isExtended | isMediated
  · simp [isExtended]
  · simp [isMediated]

namespace ResolvedTo

variable
    {classes : List ObjectClass}
    {declared resolved : ObjectClass}

/-- Copies refer to no objects. -/
theorem reference_of_mem_copies
    {taken : List String}
    {copy : Attribute}
    (admitted : copy ∈ admitCopies taken (delegatedCopies classes declared)) :
    copy.reference = none := by
  rcases mem_delegatedCopies (mem_admitCopies admitted).1 with
    ⟨_, _, _, _, _, _, _, _, _, _, rfl⟩
  rfl

/-- The link of a class refers to an object in front of its attributes. -/
theorem attributeTargets_eq
    (resolvedTo : ResolvedTo classes declared resolved) :
    resolved.attributeTargets =
      declared.links.filterMap (fun attr => attr.reference.map Reference.target) ++
        declared.attributeTargets := by
  rcases resolvedTo.attributes with ⟨taken, _, attributes⟩
  have noCopies : (admitCopies taken (delegatedCopies classes declared)).filterMap
      (fun attr => attr.reference.map Reference.target) = [] := by
    apply List.filterMap_eq_nil_iff.mpr
    intro copy admitted
    rw [reference_of_mem_copies admitted, Option.map_none]
  rw [ObjectClass.attributeTargets, attributes, List.filterMap_append, noCopies, List.append_nil]
  simp [ObjectClass.ownAttributes, ObjectClass.attributeTargets]

/-- Neither the link nor copies are collections. -/
theorem collects_eq
    (resolvedTo : ResolvedTo classes declared resolved)
    (target : String) :
    resolved.collects target = declared.collects target := by
  rcases resolvedTo.attributes with ⟨taken, _, attributes⟩
  have noCopies : (admitCopies taken (delegatedCopies classes declared)).any (fun attr =>
      attr.isCollection && attr.reference.any fun reference => reference.target == target) =
        false := by
    apply List.any_eq_false.mpr
    intro copy admitted
    rw [reference_of_mem_copies admitted]
    simp
  have noLinks : declared.links.any (fun attr =>
      attr.isCollection && attr.reference.any fun reference => reference.target == target) =
        false := by
    apply List.any_eq_false.mpr
    intro link isLink
    rcases mem_links_iff.mp isLink with ⟨other, relationship, isTarget, rfl⟩
    have single := ne_hasMany_of_identityTarget isTarget
    simp [linkAttribute, Attribute.isCollection, Attribute.withRelationship, Attribute.required,
      Attribute.once, single]
  rw [ObjectClass.collects, attributes, List.any_append, noCopies, Bool.or_false,
    ObjectClass.ownAttributes, List.any_map, List.any_append]
  simp only [Function.comp_def, Attribute.isCollection, Attribute.relationship_complete,
    Attribute.reference_complete] at noLinks ⊢
  rw [noLinks, Bool.false_or]
  rfl

/-- A resolved class depends on what its declaration does, and names a shared identity again. -/
theorem repeats_dependencies
    (resolvedTo : ResolvedTo classes declared resolved) :
    Repeats declared.dependencies resolved.dependencies := by
  let again := declared.links.filterMap fun attr => attr.reference.map Reference.target
  refine ⟨[declared.parent, declared.extended, declared.mediated].filterMap id, again,
    declared.attributeTargets, rfl, ?_, ?_⟩
  · rw [ObjectClass.dependencies, resolvedTo.parent, resolvedTo.extended, resolvedTo.mediated,
      resolvedTo.attributeTargets_eq, List.append_assoc]
  · intro target isNamed
    rcases List.mem_filterMap.mp isNamed with ⟨link, isLink, refers⟩
    rcases mem_links_iff.mp isLink with ⟨other, relationship, isTarget, rfl⟩
    cases refers
    exact ObjectClass.mem_derived_of_identityTarget isTarget

theorem repeats_prerequisites
    (resolvedTo : ResolvedTo classes declared resolved) :
    Repeats declared.prerequisites resolved.prerequisites := by
  have sameCount : resolved.prerequisites =
      resolved.dependencies.filter fun target =>
        !(target == declared.key && declared.collects target) := by
    rw [ObjectClass.prerequisites, resolvedTo.key]
    simp only [resolvedTo.collects_eq]
  rw [sameCount]
  exact resolvedTo.repeats_dependencies.filter _

end ResolvedTo

/-- The classes of a catalog need the classes that their declarations need. -/
theorem ResolvedCatalog.needSame
    {declared : List ObjectClass}
    {catalog : Catalog}
    (resolvedCatalog : ResolvedCatalog declared catalog) :
    NeedSame declared catalog.classes := by
  constructor
  · exact resolvedCatalog.resolving.sameKeys
  · intro objectClass isDeclared target needed
    exact resolvedCatalog.known objectClass isDeclared target (List.mem_filter.mp needed).1
  · intro key objectClass resolved isDeclared found
    rcases resolvedCatalog.exists_settled found with ⟨original, isOriginal, settled⟩
    cases isDeclared.symm.trans isOriginal
    exact settled.resolvedTo.repeats_prerequisites

end ClassStore.Catalog
