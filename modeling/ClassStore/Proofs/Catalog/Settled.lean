import ClassStore.Catalog.Basic
import ClassStore.Proofs.Catalog.Resolved

/-!
# Settled classes

Classes are resolved one after the other, each behind the classes that it needs.
What is resolved later has no influence on it, so in the catalog every class is
what its declaration is resolved to in the catalog itself: `resolved_of_build`.

A class that collects objects of its own may need itself.  It is not its own
parent even so, because it would claim its own names a second time, and it copies
nothing from itself, because all its names are taken.  Only the columns of its
view are collected without those that it would show of itself.
-/

namespace ClassStore.Catalog

/-! ## Classes that need themselves -/

theorem self_mem_ancestry
    (classes : List ObjectClass)
    (generations : Nat)
    (objectClass : ObjectClass) :
    objectClass ∈ ancestry classes generations objectClass := by
  cases generations <;> simp [ancestry]

/-- A class that is its own parent is one of its ancestors. -/
theorem self_mem_ancestors
    {classes : List ObjectClass}
    {objectClass : ObjectClass}
    (isClass : objectClass ∈ classes)
    (ownParent : parentOf? classes objectClass = some objectClass) :
    objectClass ∈ ancestors classes objectClass := by
  rw [ancestors]
  cases size : classes.length with
  | zero =>
      rw [List.length_eq_zero_iff.mp size] at isClass
      cases isClass
  | succ generations =>
      simp only [ancestry, ownParent, List.drop_succ_cons, List.drop_zero]
      exact self_mem_ancestry classes generations objectClass

theorem mem_chainOf_iff
    {classes : List ObjectClass}
    {objectClass member : ObjectClass} :
    member ∈ chainOf classes objectClass ↔
      member = objectClass ∨ member ∈ ancestors classes objectClass := by
  rw [chainOf, List.mem_reverse, ancestors]
  cases classes.length <;> simp [ancestry]

theorem ancestors_congr_parent
    (classes : List ObjectClass)
    {first second : ObjectClass}
    (sameParent : first.parent = second.parent) :
    ancestors classes first = ancestors classes second :=
  ancestry_congr_parent classes sameParent classes.length

theorem name_mem_ownAttributes
    {objectClass : ObjectClass}
    {attr : Attribute}
    (isAttribute : attr ∈ objectClass.attributes) :
    attr.name ∈ objectClass.ownAttributes.map Attribute.name := by
  rw [← Attribute.name_complete objectClass.key attr]
  apply List.mem_map_of_mem
  exact List.mem_map_of_mem (List.mem_append_right _ isAttribute)

namespace ResolvedTo

variable
    {classes : List ObjectClass}
    {declared resolved : ObjectClass}

/-- A class that was its own parent would claim its own names a second time. -/
theorem parent_mem_prerequisites
    (resolvedTo : ResolvedTo classes declared resolved)
    {self : ObjectClass}
    (found : findClass? classes declared.key = some self)
    (sameParent : self.parent = declared.parent)
    (shares :
      ∀ attr ∈ declared.attributes, ∃ other ∈ self.attributes, other.name = attr.name)
    {target : String}
    (isParent : declared.parent = some target) :
    target ∈ declared.prerequisites := by
  have depends := declared.within_dependencies.parent target isParent
  rcases ObjectClass.eq_key_or_mem_prerequisites depends with rfl | needed
  · have isAncestor : self ∈ ancestors classes declared := by
      rw [ancestors_congr_parent classes sameParent.symm]
      apply self_mem_ancestors (findClass?_eq_some found).1
      rw [parentOf?, sameParent, isParent]
      exact found
    rcases resolvedTo.attributes with ⟨taken, claimed, _⟩
    -- A class without attributes collects nothing, so it must be resolved before itself.
    cases attributes : declared.attributes with
    | nil => simp [ObjectClass.prerequisites, ObjectClass.collects, attributes, depends]
    | cons attr others =>
        have isAttribute : attr ∈ declared.attributes := by
          rw [attributes]
          exact List.mem_cons_self
        rcases shares attr isAttribute with ⟨other, ofSelf, sameName⟩
        have unclaimed := ((claimed_of_claimInherited claimed).2 self isAncestor other ofSelf).2
        rw [sameName] at unclaimed
        exact absurd (name_mem_ownAttributes isAttribute) unclaimed
  · exact needed

theorem findClass?_replaceClass
    (resolvedTo : ResolvedTo classes declared resolved)
    {former : ObjectClass}
    (found : findClass? classes declared.key = some former) :
    findClass? (replaceClass resolved classes) declared.key = some resolved := by
  rw [← resolvedTo.key] at found ⊢
  exact findClass?_replaceClass_self (by rw [found]; rfl)

end ResolvedTo

theorem admitCopies_eq_nil
    {taken : List String}
    {copies : List Attribute}
    (allTaken : ∀ copy ∈ copies, copy.name ∈ taken) :
    admitCopies taken copies = [] := by
  apply List.eq_nil_iff_forall_not_mem.mpr
  intro copy admitted
  rcases mem_admitCopies admitted with ⟨isCopy, free⟩
  exact free (allTaken copy isCopy)

/-- A class copies nothing from itself. -/
theorem admitCopies_self
    {classes : List ObjectClass}
    {declared self : ObjectClass}
    (found : findClass? classes declared.key = some self)
    (sameParent : self.parent = declared.parent)
    {relationship : Relationship}
    (isTarget : declared.identityTarget = some (declared.key, relationship))
    {names taken : List String}
    (claimed : claimInherited declared.key names (ancestors classes declared) = .ok taken)
    (ownNames : ∀ attr ∈ self.attributes, attr.name ∈ taken) :
    admitCopies taken (delegatedCopies classes declared) = [] := by
  apply admitCopies_eq_nil
  intro copy isCopy
  rcases mem_delegatedCopies isCopy with
    ⟨target, _, targetClass, owner, original, isTargetToo, foundTarget, inChain, isOriginal, _,
      rfl⟩
  cases isTarget.symm.trans isTargetToo
  cases found.symm.trans foundTarget
  rcases mem_chainOf_iff.mp inChain with rfl | isAncestor
  · exact ownNames original isOriginal
  · rw [ancestors_congr_parent classes sameParent] at isAncestor
    exact ((claimed_of_claimInherited claimed).2 owner isAncestor original isOriginal).1

/-! ## One class after the other -/

/-- The ancestors of a class need nothing else if the classes are closed. -/
theorem within_of_mem_ancestry
    {keys : List String}
    {classes : List ObjectClass}
    (closed : Closed keys classes)
    {generations : Nat}
    {objectClass member : ObjectClass}
    (within : Within keys objectClass)
    (isMember : member ∈ ancestry classes generations objectClass) :
    Within keys member := by
  induction generations generalizing objectClass with
  | zero =>
      rw [List.mem_singleton.mp isMember]
      exact within
  | succ generations inductionHypothesis =>
      rw [ancestry] at isMember
      rcases List.mem_cons.mp isMember with rfl | isAncestor
      · exact within
      · cases found : parentOf? classes objectClass with
        | none => simp [found] at isAncestor
        | some parent =>
            rcases Option.bind_eq_some_iff.mp found with ⟨target, isParent, foundParent⟩
            simp only [found] at isAncestor
            exact inductionHypothesis
              (closed target (within.parent target isParent) parent foundParent) isAncestor

theorem isReference_of_isStored
    {attr : Attribute}
    {reference : Reference}
    (stored : attr.isStored = true)
    (isReference : attr.reference = some reference) :
    attr.isReference = true := by
  simp only [Attribute.isStored, Bool.and_eq_true] at stored
  simp [Attribute.isReference, isReference, stored.2]

/-- The columns of a view depend on the classes and columns that the class needs. -/
theorem flattenColumns_congr
    {keys : List String}
    {classes other : List ObjectClass}
    {columns otherColumns : List (String × List String)}
    (agree : AgreeOn keys classes other)
    (sameLength : classes.length = other.length)
    (closed : Closed keys classes)
    (sameColumns : ∀ key ∈ keys, columns.lookup key = otherColumns.lookup key)
    {objectClass : ObjectClass}
    (within : Within keys objectClass) :
    flattenColumns classes columns objectClass = flattenColumns other otherColumns objectClass := by
  have sameChain : chainOf classes objectClass = chainOf other objectClass := by
    rw [chainOf, chainOf, ← sameLength, ancestry_congr agree closed _ within.parent]
  have sameOfAttribute :
      ∀ attr ∈ (chainOf classes objectClass).flatMap ObjectClass.stored,
        columnsOfAttribute columns attr = columnsOfAttribute otherColumns attr := by
    intro attr isAttribute
    rcases List.mem_flatMap.mp isAttribute with ⟨member, inChain, isStored⟩
    rcases List.mem_filter.mp isStored with ⟨ofMember, stored⟩
    have withinMember := within_of_mem_ancestry closed within (List.mem_reverse.mp inChain)
    cases isReference : attr.reference with
    | none => simp [columnsOfAttribute, isReference]
    | some reference =>
        have inKeys := withinMember.references attr ofMember
          (isReference_of_isStored stored isReference) reference isReference
        simp [columnsOfAttribute, isReference, sameColumns reference.target inKeys]
  rw [flattenColumns, flattenColumns, ← sameChain]
  exact congrArg (fun lists => "id" :: lists.flatten) (List.map_congr_left sameOfAttribute)

/-- What a class has become: what it needs is known, and it is what it is resolved to. -/
structure Settled (classes : List ObjectClass) (columns : List (String × List String))
    (keys : List String) (declared resolved : ObjectClass) : Prop where
  within : Within keys declared
  found : findClass? classes declared.key = some resolved
  resolvedTo : ResolvedTo classes declared resolved
  columns :
    ∃ known,
      columns.lookup declared.key = some (flattenColumns classes known resolved) ∧
      (SelfFree declared →
        flattenColumns classes known resolved = flattenColumns classes columns resolved)

/-- A class stays settled where nothing that it needs is changed. -/
theorem Settled.transport
    {classes other : List ObjectClass}
    {columns otherColumns : List (String × List String)}
    {keys more : List String}
    {declared resolved : ObjectClass}
    (settled : Settled classes columns keys declared resolved)
    (inKeys : declared.key ∈ keys)
    (agree : AgreeOn keys classes other)
    (sameLength : classes.length = other.length)
    (closed : Closed keys classes)
    (sameColumns : ∀ key ∈ keys, columns.lookup key = otherColumns.lookup key)
    (contained : ∀ key ∈ keys, key ∈ more) :
    Settled other otherColumns more declared resolved := by
  constructor
  · exact settled.within.mono contained
  · rw [← agree _ inKeys]
    exact settled.found
  · exact settled.resolvedTo.congr agree sameLength closed settled.within
  · have within := settled.resolvedTo.within settled.within
    rcases settled.columns with ⟨known, isKnown, current⟩
    have sameKnown : flattenColumns classes known resolved = flattenColumns other known resolved :=
      flattenColumns_congr agree sameLength closed (fun _ _ => rfl) within
    refine ⟨known, ?_, ?_⟩
    · rw [← sameColumns _ inKeys, isKnown, sameKnown]
    · intro selfFree
      rw [← sameKnown, current selfFree,
        flattenColumns_congr agree sameLength closed sameColumns within]

/-- The parent of a settled class is another class. -/
theorem Settled.parent_mem_prerequisites
    {classes : List ObjectClass}
    {columns : List (String × List String)}
    {keys : List String}
    {declared resolved : ObjectClass}
    (settled : Settled classes columns keys declared resolved)
    {target : String}
    (isParent : declared.parent = some target) :
    target ∈ declared.prerequisites := by
  apply settled.resolvedTo.parent_mem_prerequisites settled.found settled.resolvedTo.parent _
    isParent
  intro attr isAttribute
  rcases settled.resolvedTo.attributes with ⟨_, _, attributes⟩
  rcases List.mem_map.mp (name_mem_ownAttributes isAttribute) with ⟨own, isOwn, sameName⟩
  exact ⟨own, by rw [attributes]; exact List.mem_append_left _ isOwn, sameName⟩

/-- The classes under the keys are settled, and the others are as they were declared. -/
structure Resolving (declared classes : List ObjectClass)
    (columns : List (String × List String)) (keys : List String) : Prop where
  sameKeys : classes.map ObjectClass.key = declared.map ObjectClass.key
  untouched : ∀ key, key ∉ keys → findClass? classes key = findClass? declared key
  blank : ∀ key, key ∉ keys → columns.lookup key = none
  settled :
    ∀ key ∈ keys, ∀ objectClass, findClass? declared key = some objectClass →
      ∃ resolved, Settled classes columns keys objectClass resolved

theorem resolving_nil (declared : List ObjectClass) : Resolving declared declared [] [] :=
  ⟨rfl, fun _ _ => rfl, fun _ _ => rfl, by simp⟩

namespace Resolving

variable
    {declared classes : List ObjectClass}
    {columns : List (String × List String)}
    {keys : List String}

/-- What the settled classes need is settled. -/
theorem closed
    (resolving : Resolving declared classes columns keys) :
    Closed keys classes := by
  intro key inKeys objectClass found
  have known : (findClass? declared key).isSome := by
    rw [isSome_findClass?, ← resolving.sameKeys, ← isSome_findClass?, found]
    rfl
  rcases Option.isSome_iff_exists.mp known with ⟨original, isDeclared⟩
  rcases resolving.settled key inKeys original isDeclared with ⟨resolved, settled⟩
  have same : resolved = objectClass := by
    have foundResolved := settled.found
    rw [(findClass?_eq_some isDeclared).2, found] at foundResolved
    exact (Option.some.inj foundResolved).symm
  rw [← same]
  exact settled.resolvedTo.within settled.within

/-- A class that takes the place of its declaration is what the declaration is resolved to. -/
theorem resolvedTo_replaceClass
    (resolving : Resolving declared classes columns keys)
    {objectClass resolved : ObjectClass}
    (found : findClass? classes objectClass.key = some objectClass)
    (fresh : objectClass.key ∉ keys)
    (needs : ∀ target ∈ objectClass.prerequisites, target ∈ keys)
    (resolvedTo : ResolvedTo classes objectClass resolved) :
    ResolvedTo (replaceClass resolved classes) objectClass resolved := by
  have agree : AgreeOn keys classes (replaceClass resolved classes) :=
    agreeOn_replaceClass (resolvedTo.key ▸ fresh) classes
  have sameLength := (length_replaceClass resolved classes).symm
  have sameAncestors : ancestors classes objectClass =
      ancestors (replaceClass resolved classes) objectClass := by
    apply ancestors_congr agree sameLength resolving.closed
    intro target isParent
    apply needs
    exact resolvedTo.parent_mem_prerequisites found rfl (fun attr isAttribute =>
      ⟨attr, isAttribute, rfl⟩) isParent
  have foundResolved := resolvedTo.findClass?_replaceClass found
  rcases resolvedTo.attributes with ⟨taken, claimed, attributes⟩
  have ownTaken := (claimed_of_claimInherited claimed).1
  refine ⟨resolvedTo.key, sameAncestors ▸ resolvedTo.table, sameAncestors ▸ resolvedTo.view,
    resolvedTo.parent, resolvedTo.extended, resolvedTo.mediated, resolvedTo.distinct, taken,
    sameAncestors ▸ claimed, ?_⟩
  rw [attributes]
  congr 1
  -- The copies are those of a settled class, which stays, or none if the class copies itself.
  cases isTarget : objectClass.identityTarget with
  | none => simp [delegatedCopies, isTarget]
  | some identity =>
      rcases identity with ⟨target, relationship⟩
      have depends := objectClass.within_dependencies.identityTarget target relationship isTarget
      rcases ObjectClass.eq_key_or_mem_prerequisites depends with rfl | needed
      · have noCopies := admitCopies_self found rfl isTarget claimed fun attr isAttribute =>
          ownTaken _ (name_mem_ownAttributes isAttribute)
        rw [noCopies, List.append_nil] at attributes
        rw [noCopies]
        apply Eq.symm
        apply admitCopies_self foundResolved resolvedTo.parent isTarget (sameAncestors ▸ claimed)
        intro attr isAttribute
        rw [attributes] at isAttribute
        exact ownTaken _ (List.mem_map_of_mem isAttribute)
      · rw [delegatedCopies_congr agree sameLength resolving.closed]
        intro other _ isOther
        cases isTarget.symm.trans isOther
        exact needs target needed

/-- Resolving one more class settles it and leaves the settled ones as they are. -/
theorem step
    (resolving : Resolving declared classes columns keys)
    {objectClass resolved : ObjectClass}
    (found : findClass? classes objectClass.key = some objectClass)
    (fresh : objectClass.key ∉ keys)
    (needs : ∀ target ∈ objectClass.prerequisites, target ∈ keys)
    (outcome : resolveClass classes objectClass = .ok resolved) :
    Resolving declared (replaceClass resolved classes)
      (columns ++
        [(objectClass.key, flattenColumns (replaceClass resolved classes) columns resolved)])
      (keys ++ [objectClass.key]) := by
  have resolvedTo := resolvedTo_of_resolveClass outcome
  have agree : AgreeOn keys classes (replaceClass resolved classes) :=
    agreeOn_replaceClass (resolvedTo.key ▸ fresh) classes
  have sameLength := (length_replaceClass resolved classes).symm
  have sameColumns : ∀ key ∈ keys,
      columns.lookup key =
        (columns ++ [(objectClass.key,
          flattenColumns (replaceClass resolved classes) columns resolved)]).lookup key := by
    intro key inKeys
    rw [lookup_append_of_ne _ _ (ne_of_mem_of_not_mem inKeys fresh)]
  have contained : ∀ key ∈ keys, key ∈ keys ++ [objectClass.key] :=
    fun _ => List.mem_append_left _
  constructor
  · rw [map_key_replaceClass, resolving.sameKeys]
  · intro key outside
    rw [List.mem_append, List.mem_singleton, not_or] at outside
    rw [findClass?_replaceClass_of_ne (by rw [resolvedTo.key]; exact outside.2),
      resolving.untouched key outside.1]
  · intro key outside
    rw [List.mem_append, List.mem_singleton, not_or] at outside
    rw [lookup_append_of_ne _ _ outside.2, resolving.blank key outside.1]
  · intro key inKeys original isDeclared
    rcases List.mem_append.mp inKeys with isOld | isNew
    · rcases resolving.settled key isOld original isDeclared with ⟨former, settled⟩
      refine ⟨former, settled.transport ?_ agree sameLength resolving.closed sameColumns contained⟩
      rwa [(findClass?_eq_some isDeclared).2]
    · have same : original = objectClass := by
        rw [List.mem_singleton.mp isNew, ← resolving.untouched _ fresh, found] at isDeclared
        exact (Option.some.inj isDeclared).symm
      rw [same]
      refine ⟨resolved, ObjectClass.within_prerequisites needs,
        resolvedTo.findClass?_replaceClass found,
        resolving.resolvedTo_replaceClass found fresh needs resolvedTo, columns, ?_, ?_⟩
      · rw [List.lookup_append, resolving.blank _ fresh, Option.none_or, List.lookup_cons,
          beq_self_eq_true]
      · intro selfFree
        exact flattenColumns_congr (fun _ _ => rfl) rfl (resolving.closed.congr agree) sameColumns
          (resolvedTo.within (selfFree.within needs))

/-- The next class in an order of dependencies takes its place and is settled. -/
theorem next
    (resolving : Resolving declared classes columns keys)
    {key : String}
    {order : List String}
    (isOrdered : Ordered declared (keys ++ key :: order))
    (known : ∀ objectClass ∈ declared, ∀ target ∈ objectClass.prerequisites,
      (findClass? declared target).isSome)
    {final : List ObjectClass × List (String × List String)}
    (outcome : resolveAll classes columns (key :: order) = .ok final) :
    ∃ resolved,
      findClass? (replaceClass resolved classes) key = some resolved ∧
      Resolving declared (replaceClass resolved classes)
        (columns ++ [(key, flattenColumns (replaceClass resolved classes) columns resolved)])
        (keys ++ [key]) ∧
      resolveAll (replaceClass resolved classes)
        (columns ++ [(key, flattenColumns (replaceClass resolved classes) columns resolved)])
        order = .ok final := by
  have fresh : key ∉ keys := by
    intro inKeys
    have distinct := isOrdered.nodup
    rw [List.nodup_append] at distinct
    exact distinct.2.2 key inKeys key List.mem_cons_self rfl
  have isKnown : (findClass? classes key).isSome := by
    rw [resolving.untouched key fresh]
    exact isOrdered.known key (List.mem_append_right _ List.mem_cons_self)
  rcases cases_resolveAll outcome with
    ⟨unknown, _⟩ | ⟨objectClass, resolved, found, resolution, sameKey, others⟩
  · rw [unknown] at isKnown
    cases isKnown
  · rcases findClass?_eq_some found with ⟨_, rfl⟩
    have isDeclared : findClass? declared objectClass.key = some objectClass :=
      (resolving.untouched _ fresh).symm.trans found
    have needs : ∀ target ∈ objectClass.prerequisites, target ∈ keys := by
      intro target needed
      exact isOrdered.behind keys _ order rfl objectClass isDeclared target needed
        (known objectClass (findClass?_eq_some isDeclared).1 target needed)
    have foundResolved := (resolvedTo_of_resolveClass resolution).findClass?_replaceClass found
    exact ⟨resolved, foundResolved, resolving.step found fresh needs resolution, others⟩

/-- Resolving classes in an order of their dependencies settles all of them. -/
theorem run
    {order : List String}
    (isOrdered : Ordered declared (keys ++ order))
    (known : ∀ objectClass ∈ declared, ∀ target ∈ objectClass.prerequisites,
      (findClass? declared target).isSome)
    (resolving : Resolving declared classes columns keys)
    {finalClasses : List ObjectClass}
    {finalColumns : List (String × List String)}
    (outcome : resolveAll classes columns order = .ok (finalClasses, finalColumns)) :
    Resolving declared finalClasses finalColumns (keys ++ order) := by
  induction order generalizing classes columns keys with
  | nil =>
      cases outcome
      rwa [List.append_nil]
  | cons key order inductionHypothesis =>
      rcases resolving.next isOrdered known outcome with ⟨resolved, _, resolvingNext, others⟩
      have regroup : keys ++ key :: order = keys ++ [key] ++ order := by simp
      rw [regroup] at isOrdered ⊢
      exact inductionHypothesis isOrdered resolvingNext others

end Resolving

/-! ## The catalog -/

theorem checkTargetsOf_eq_ok_iff
    {keys : List String}
    {objectClass : ObjectClass} :
    checkTargetsOf keys objectClass = .ok () ↔
      (objectClass.extended.isSome && objectClass.mediated.isSome) = false ∧
      ∀ target ∈ objectClass.dependencies, target ∈ keys := by
  rw [checkTargetsOf]
  split
  · next both => simp [both]
  · next single =>
      split
      · next target unknown =>
          have missing : target ∉ keys := by simpa using List.find?_some unknown
          constructor
          · intro checked
            cases checked
          · intro accepted
            exact absurd (accepted.2 target (List.mem_of_find?_eq_some unknown)) missing
      · next known =>
          have named : ∀ target ∈ objectClass.dependencies, target ∈ keys := by simpa using known
          simp only [eq_false_of_ne_true single, true_and, true_iff]
          exact named

/-- Targets pass their check if every class shares at most one identity and names known ones. -/
theorem checkTargets_eq_ok_iff
    {keys : List String}
    {classes : List ObjectClass} :
    checkTargets keys classes = .ok () ↔
      ∀ objectClass ∈ classes, checkTargetsOf keys objectClass = .ok () := by
  induction classes with
  | nil => simp [checkTargets]
  | cons first classes inductionHypothesis =>
      rw [checkTargets, List.forall_mem_cons, ← inductionHypothesis]
      cases checkTargetsOf keys first with
      | error error => simp [bind, Except.bind]
      | ok _ => simp [bind, Except.bind]

theorem known_of_checkTargets
    {keys : List String}
    {classes : List ObjectClass}
    (checked : checkTargets keys classes = .ok ()) :
    ∀ objectClass ∈ classes, ∀ target ∈ objectClass.dependencies, target ∈ keys :=
  fun objectClass isClass =>
    (checkTargetsOf_eq_ok_iff.mp (checkTargets_eq_ok_iff.mp checked objectClass isClass)).2

/-- What has been done to build a catalog. -/
structure BuildSteps (declared : List ObjectClass) (catalog : Catalog) : Prop where
  keysChecked : checkKeys [] declared = .ok ()
  targetsChecked : checkTargets (declared.map ObjectClass.key) declared = .ok ()
  ordering : dependencyOrder declared = .ok catalog.order
  resolution :
    resolveAll declared [] catalog.order = .ok (catalog.classes, catalog.columns)

theorem buildSteps_of_build
    {declared : List ObjectClass}
    {catalog : Catalog}
    (built : Catalog.build declared = .ok catalog) :
    BuildSteps declared catalog := by
  rcases exists_of_bind_eq_ok built with ⟨_, keysChecked, built⟩
  rcases exists_of_bind_eq_ok built with ⟨_, targetsChecked, built⟩
  rcases exists_of_bind_eq_ok built with ⟨order, ordering, built⟩
  rcases exists_of_bind_eq_ok built with ⟨_, resolution, built⟩
  cases built
  exact ⟨keysChecked, targetsChecked, ordering, resolution⟩

/-- Every class of the catalog is what its declaration is resolved to in the catalog. -/
structure ResolvedCatalog (declared : List ObjectClass) (catalog : Catalog) : Prop where
  isOrdered : Ordered declared catalog.order
  complete : ∀ objectClass ∈ declared, objectClass.key ∈ catalog.order
  known :
    ∀ objectClass ∈ declared, ∀ target ∈ objectClass.dependencies,
      (findClass? declared target).isSome
  resolving : Resolving declared catalog.classes catalog.columns catalog.order

theorem resolved_of_build
    {declared : List ObjectClass}
    {catalog : Catalog}
    (built : Catalog.build declared = .ok catalog) :
    ResolvedCatalog declared catalog := by
  rcases buildSteps_of_build built with ⟨_, targetsChecked, ordering, resolution⟩
  have visited := visited_of_dependencyOrder ordering
  have known : ∀ objectClass ∈ declared, ∀ target ∈ objectClass.dependencies,
      (findClass? declared target).isSome := by
    intro objectClass isDeclared target depends
    rw [isSome_findClass?]
    exact known_of_checkTargets targetsChecked objectClass isDeclared target depends
  constructor
  · exact visited.isOrdered
  · intro objectClass isDeclared
    have isKey := List.mem_map_of_mem (f := ObjectClass.key) isDeclared
    exact visited.reaches _ isKey (isSome_findClass?.mpr isKey)
  · exact known
  · apply Resolving.run visited.isOrdered _ (resolving_nil declared) resolution
    intro objectClass isDeclared target needed
    exact known objectClass isDeclared target (List.mem_filter.mp needed).1

namespace ResolvedCatalog

variable
    {declared : List ObjectClass}
    {catalog : Catalog}

/-- A class of the catalog comes from a declaration. -/
theorem exists_settled
    (resolvedCatalog : ResolvedCatalog declared catalog)
    {key : String}
    {objectClass : ObjectClass}
    (found : catalog.find? key = some objectClass) :
    ∃ original,
      findClass? declared key = some original ∧
      Settled catalog.classes catalog.columns catalog.order original objectClass := by
  have known : (findClass? declared key).isSome := by
    rw [isSome_findClass?, ← resolvedCatalog.resolving.sameKeys, ← isSome_findClass?]
    rw [Catalog.find?] at found
    rw [found]
    rfl
  rcases Option.isSome_iff_exists.mp known with ⟨original, isDeclared⟩
  rcases findClass?_eq_some isDeclared with ⟨inDeclared, rfl⟩
  rcases resolvedCatalog.resolving.settled _ (resolvedCatalog.complete original inDeclared)
      original isDeclared with
    ⟨resolved, settled⟩
  have same : resolved = objectClass :=
    Option.some.inj (settled.found.symm.trans found)
  rw [← same]
  exact ⟨original, isDeclared, settled⟩

/-- What passes from the classes that a class needs to the class is true of all classes. -/
theorem induction
    (resolvedCatalog : ResolvedCatalog declared catalog)
    {motive : String → Prop}
    (step :
      ∀ key original objectClass,
        findClass? declared key = some original →
        catalog.find? key = some objectClass →
        Settled catalog.classes catalog.columns catalog.order original objectClass →
        (∀ target ∈ original.prerequisites, motive target) →
        motive key)
    {key : String}
    {objectClass : ObjectClass}
    (found : catalog.find? key = some objectClass) :
    motive key := by
  rcases resolvedCatalog.exists_settled found with ⟨first, firstDeclared, _⟩
  rcases findClass?_eq_some firstDeclared with ⟨inDeclared, sameKey⟩
  have inOrder := resolvedCatalog.complete first inDeclared
  rw [sameKey] at inOrder
  apply resolvedCatalog.isOrdered.induction (motive := motive) _ inOrder (by rw [firstDeclared]; rfl)
  intro other original isDeclared needs
  rcases findClass?_eq_some isDeclared with ⟨otherDeclared, rfl⟩
  rcases resolvedCatalog.resolving.settled _ (resolvedCatalog.complete original otherDeclared)
      original isDeclared with
    ⟨resolved, settled⟩
  apply step original.key original resolved isDeclared settled.found settled
  intro target needed
  apply needs target needed
  exact resolvedCatalog.known original otherDeclared target (List.mem_filter.mp needed).1

end ResolvedCatalog

/-- A catalog of classes that do not need themselves. -/
structure SettledCatalog (declared : List ObjectClass) (catalog : Catalog) : Prop
    extends ResolvedCatalog declared catalog where
  selfFree : ∀ objectClass ∈ declared, SelfFree objectClass

theorem settled_of_build
    {declared : List ObjectClass}
    {catalog : Catalog}
    (selfFree : ∀ objectClass ∈ declared, SelfFree objectClass)
    (built : Catalog.build declared = .ok catalog) :
    SettledCatalog declared catalog :=
  ⟨resolved_of_build built, selfFree⟩

end ClassStore.Catalog
