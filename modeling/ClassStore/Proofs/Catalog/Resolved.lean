import ClassStore.Catalog.Basic
import ClassStore.Proofs.Catalog.Order

/-!
# Resolved classes

A class is resolved from its own declaration, the classes that it names and
their ancestors.  `ResolvedTo` says what a declaration is resolved to.  It stays
true in classes that agree on whatever the class needs: `ResolvedTo.congr`.
-/

namespace ClassStore.Catalog

/-! ## Looking up classes -/

/-- Where names are different, an item is found by its own name. -/
theorem find?_eq_some_of_mem
    {Item : Type}
    (name : Item → String)
    {items : List Item}
    (distinct : (items.map name).Nodup)
    {item : Item}
    (isItem : item ∈ items) :
    (items.find? fun other => name other == name item) = some item := by
  induction items with
  | nil => cases isItem
  | cons first items inductionHypothesis =>
      rw [List.map_cons, List.nodup_cons] at distinct
      rcases List.mem_cons.mp isItem with rfl | later
      · rw [List.find?_cons_of_pos (by simp)]
      · have different : name first ≠ name item := by
          intro sameName
          apply distinct.1
          rw [sameName]
          exact List.mem_map_of_mem later
        rw [List.find?_cons_of_neg (by simpa using different)]
        exact inductionHypothesis distinct.2 later

theorem findClass?_eq_some
    {classes : List ObjectClass}
    {key : String}
    {objectClass : ObjectClass}
    (found : findClass? classes key = some objectClass) :
    objectClass ∈ classes ∧ objectClass.key = key := by
  constructor
  · exact List.mem_of_find?_eq_some found
  · simpa using List.find?_some found

/-- The parent of a class is found by the key that the class names. -/
theorem of_parentOf?
    {classes : List ObjectClass}
    {objectClass parent : ObjectClass}
    (isParent : parentOf? classes objectClass = some parent) :
    objectClass.parent = some parent.key ∧ findClass? classes parent.key = some parent := by
  rcases Option.bind_eq_some_iff.mp isParent with ⟨key, hasParent, found⟩
  rcases findClass?_eq_some found with ⟨-, rfl⟩
  exact ⟨hasParent, found⟩

theorem isSome_findClass?
    {classes : List ObjectClass}
    {key : String} :
    (findClass? classes key).isSome ↔ key ∈ classes.map ObjectClass.key := by
  simp [findClass?, List.find?_isSome]

theorem map_key_replaceClass
    (resolved : ObjectClass)
    (classes : List ObjectClass) :
    (replaceClass resolved classes).map ObjectClass.key = classes.map ObjectClass.key := by
  rw [replaceClass, List.map_map]
  apply List.map_congr_left
  intro objectClass _
  simp only [Function.comp_apply]
  split
  · next same => exact same.symm
  · rfl

theorem length_replaceClass
    (resolved : ObjectClass)
    (classes : List ObjectClass) :
    (replaceClass resolved classes).length = classes.length :=
  List.length_map _

theorem findClass?_replaceClass_of_ne
    {resolved : ObjectClass}
    {key : String}
    (different : key ≠ resolved.key)
    (classes : List ObjectClass) :
    findClass? (replaceClass resolved classes) key = findClass? classes key := by
  induction classes with
  | nil => rfl
  | cons objectClass classes inductionHypothesis =>
      simp only [findClass?, replaceClass, List.map_cons] at inductionHypothesis ⊢
      split
      · next same =>
          have other : (resolved.key == key) = false := by
            simpa using fun equal => different equal.symm
          rw [List.find?_cons_of_neg (by simp [other]),
            List.find?_cons_of_neg (by simp [same, other]), inductionHypothesis]
      · by_cases isKey : objectClass.key = key
        · rw [List.find?_cons_of_pos (by simp [isKey]),
            List.find?_cons_of_pos (by simp [isKey])]
        · rw [List.find?_cons_of_neg (by simp [isKey]),
            List.find?_cons_of_neg (by simp [isKey]), inductionHypothesis]

theorem findClass?_replaceClass_self
    {resolved : ObjectClass}
    {classes : List ObjectClass}
    (known : (findClass? classes resolved.key).isSome) :
    findClass? (replaceClass resolved classes) resolved.key = some resolved := by
  induction classes with
  | nil => simp [findClass?] at known
  | cons objectClass classes inductionHypothesis =>
      simp only [findClass?, replaceClass, List.map_cons] at inductionHypothesis known ⊢
      split
      · rw [List.find?_cons_of_pos (by simp)]
      · next other =>
          rw [List.find?_cons_of_neg (by simpa using other)] at known ⊢
          exact inductionHypothesis known

/-! ## The parts of a resolved class -/

/-- The link of a class that extends or mediates another one. -/
def ObjectClass.links (objectClass : ObjectClass) : List Attribute :=
  match objectClass.identityTarget with
  | none => []
  | some (target, relationship) => [linkAttribute target relationship]

/-- The attributes of a class itself: its link and the declared ones, completed. -/
def ObjectClass.ownAttributes (objectClass : ObjectClass) : List Attribute :=
  (objectClass.links ++ objectClass.attributes).map (Attribute.complete objectClass.key)

/-- The ancestors of a class, its parent first. -/
def ancestors (classes : List ObjectClass) (objectClass : ObjectClass) : List ObjectClass :=
  (ancestry classes classes.length objectClass).drop 1

/-- The parent of a class is the first of its ancestors. -/
theorem head?_ancestors
    (classes : List ObjectClass)
    (objectClass : ObjectClass) :
    (ancestors classes objectClass).head? = parentOf? classes objectClass := by
  rw [ancestors]
  cases size : classes.length with
  | zero =>
      rw [List.length_eq_zero_iff.mp size, parentOf?]
      cases objectClass.parent <;> rfl
  | succ generations =>
      rw [ancestry]
      cases parentOf? classes objectClass with
      | none => rfl
      | some parent => cases generations <;> rfl

/-- What a class has been resolved to. -/
structure ResolvedTo (classes : List ObjectClass) (declared resolved : ObjectClass) : Prop where
  key : resolved.key = declared.key
  table :
    resolved.table = (declared.nameRelations (ancestors classes declared).head?).table
  view : resolved.view = (declared.nameRelations (ancestors classes declared).head?).view
  parent : resolved.parent = declared.parent
  extended : resolved.extended = declared.extended
  mediated : resolved.mediated = declared.mediated
  distinct : firstRepeated [] (declared.ownAttributes.map Attribute.name) = none
  attributes :
    ∃ taken,
      claimInherited declared.key (declared.ownAttributes.map Attribute.name)
          (ancestors classes declared) = .ok taken ∧
      resolved.attributes =
        declared.ownAttributes ++ admitCopies taken (delegatedCopies classes declared)

theorem ancestry_congr_parent
    (classes : List ObjectClass)
    {first second : ObjectClass}
    (sameParent : first.parent = second.parent)
    (generations : Nat) :
    (ancestry classes generations first).drop 1 =
      (ancestry classes generations second).drop 1 := by
  cases generations with
  | zero => rfl
  | succ generations => simp [ancestry, parentOf?, sameParent]

/-- Linking a class changes its attributes only. -/
theorem addLink_eq_ok
    {objectClass linked : ObjectClass}
    (outcome : objectClass.addLink = .ok linked) :
    linked = { objectClass with attributes := objectClass.links ++ objectClass.attributes } := by
  rw [ObjectClass.addLink] at outcome
  split at outcome
  · next noTarget =>
      cases outcome
      simp [ObjectClass.links, noTarget]
  · next isTarget =>
      split at outcome
      · cases outcome
      · cases outcome
        simp [ObjectClass.links, isTarget]

theorem resolvedTo_of_resolveClass
    {classes : List ObjectClass}
    {declared resolved : ObjectClass}
    (outcome : resolveClass classes declared = .ok resolved) :
    ResolvedTo classes declared resolved := by
  simp only [resolveClass] at outcome
  rcases exists_of_bind_eq_ok outcome with ⟨linked, linking, completing⟩
  have isLinked := addLink_eq_ok linking
  have key : linked.completeAttributes.key = declared.key := by
    rw [isLinked]
    rfl
  have own : linked.completeAttributes.attributes = declared.ownAttributes := by
    rw [isLinked]
    rfl
  have fromParent : (ancestry classes classes.length linked.completeAttributes).drop 1 =
      ancestors classes declared := by
    apply ancestry_congr_parent
    rw [isLinked]
    rfl
  rw [key, own, fromParent] at completing
  split at completing
  · cases completing
  · next distinct =>
      rcases exists_of_bind_eq_ok completing with ⟨taken, claimed, completed⟩
      cases completed
      rw [isLinked]
      have sameParent := head?_ancestors classes declared
      exact ⟨rfl, by rw [sameParent]; rfl, by rw [sameParent]; rfl, rfl, rfl, rfl, distinct, taken,
        claimed, rfl⟩

/-- Resolving a class puts it in the place of its declaration; an unknown one is passed. -/
theorem cases_resolveAll
    {classes : List ObjectClass}
    {columns : List (String × List String)}
    {key : String}
    {keys : List String}
    {final : List ObjectClass × List (String × List String)}
    (outcome : resolveAll classes columns (key :: keys) = .ok final) :
    (findClass? classes key = none ∧ resolveAll classes columns keys = .ok final) ∨
    ∃ objectClass resolved,
      findClass? classes key = some objectClass ∧
      resolveClass classes objectClass = .ok resolved ∧
      resolved.key = key ∧
      resolveAll (replaceClass resolved classes)
        (columns ++ [(key, flattenColumns (replaceClass resolved classes) columns resolved)])
        keys = .ok final := by
  rw [resolveAll] at outcome
  cases found : findClass? classes key with
  | none =>
      rw [found] at outcome
      exact .inl ⟨rfl, outcome⟩
  | some objectClass =>
      rw [found] at outcome
      rcases exists_of_bind_eq_ok outcome with ⟨resolved, resolution, others⟩
      have sameKey := (resolvedTo_of_resolveClass resolution).key
      exact .inr ⟨objectClass, resolved, rfl, resolution,
        sameKey.trans (findClass?_eq_some found).2, others⟩

/-! ## Classes that agree -/

/-- The two catalogs have the same classes under the keys. -/
def AgreeOn (keys : List String) (classes other : List ObjectClass) : Prop :=
  ∀ key ∈ keys, findClass? classes key = findClass? other key

/-- A class that takes the place of its declaration changes nothing under other keys. -/
theorem agreeOn_replaceClass
    {keys : List String}
    {resolved : ObjectClass}
    (fresh : resolved.key ∉ keys)
    (classes : List ObjectClass) :
    AgreeOn keys classes (replaceClass resolved classes) := by
  intro key inKeys
  have different : key ≠ resolved.key := ne_of_mem_of_not_mem inKeys fresh
  exact (findClass?_replaceClass_of_ne different classes).symm

/-- Resolving classes changes nothing under keys that are not theirs. -/
theorem agreeOn_resolveAll
    {keys order : List String}
    {classes final : List ObjectClass}
    {columns finalColumns : List (String × List String)}
    (others : ∀ key ∈ keys, key ∉ order)
    (outcome : resolveAll classes columns order = .ok (final, finalColumns)) :
    AgreeOn keys classes final := by
  induction order generalizing classes columns with
  | nil =>
      cases outcome
      exact fun _ _ => rfl
  | cons next order inductionHypothesis =>
      have later : ∀ key ∈ keys, key ∉ order := fun key inKeys isLater =>
        others key inKeys (List.mem_cons_of_mem _ isLater)
      rcases cases_resolveAll outcome with ⟨_, passed⟩ | ⟨_, resolved, _, _, rfl, resolving⟩
      · exact inductionHypothesis later passed
      · have fresh : resolved.key ∉ keys := fun inKeys =>
          others resolved.key inKeys List.mem_cons_self
        intro key inKeys
        exact (agreeOn_replaceClass fresh classes key inKeys).trans
          (inductionHypothesis later resolving key inKeys)

theorem lookup_append_of_ne
    {Content : Type}
    (entries : List (String × Content))
    (content : Content)
    {key other : String}
    (different : key ≠ other) :
    (entries ++ [(other, content)]).lookup key = entries.lookup key := by
  have unequal : (key == other) = false := beq_eq_false_iff_ne.mpr different
  simp [List.lookup_append, List.lookup_cons, unequal]

/-- Whatever a class needs in order to be resolved is among the keys. -/
structure Within (keys : List String) (objectClass : ObjectClass) : Prop where
  parent : ∀ target, objectClass.parent = some target → target ∈ keys
  identityTarget :
    ∀ target relationship,
      objectClass.identityTarget = some (target, relationship) → target ∈ keys
  references :
    ∀ attr ∈ objectClass.attributes, attr.isReference = true →
      ∀ reference, attr.reference = some reference → reference.target ∈ keys

/-- Whatever the classes under the keys need is among the keys. -/
def Closed (keys : List String) (classes : List ObjectClass) : Prop :=
  ∀ key ∈ keys, ∀ objectClass, findClass? classes key = some objectClass →
    Within keys objectClass

theorem parentOf?_congr
    {keys : List String}
    {classes other : List ObjectClass}
    (agree : AgreeOn keys classes other)
    {objectClass : ObjectClass}
    (within : ∀ target, objectClass.parent = some target → target ∈ keys) :
    parentOf? classes objectClass = parentOf? other objectClass := by
  unfold parentOf?
  cases parent : objectClass.parent with
  | none => rfl
  | some target => exact agree target (within target parent)

/-- A class has the same ancestors in classes that agree. -/
theorem ancestry_congr
    {keys : List String}
    {classes other : List ObjectClass}
    (agree : AgreeOn keys classes other)
    (closed : Closed keys classes)
    (generations : Nat)
    {objectClass : ObjectClass}
    (within : ∀ target, objectClass.parent = some target → target ∈ keys) :
    ancestry classes generations objectClass = ancestry other generations objectClass := by
  induction generations generalizing objectClass with
  | zero => rfl
  | succ generations inductionHypothesis =>
      rw [ancestry, ancestry, ← parentOf?_congr agree within]
      cases found : parentOf? classes objectClass with
      | none => rfl
      | some parent =>
          rcases Option.bind_eq_some_iff.mp found with ⟨target, isParent, foundParent⟩
          have withinParent := closed target (within target isParent) parent foundParent
          simp only [inductionHypothesis withinParent.parent]

theorem ancestors_congr
    {keys : List String}
    {classes other : List ObjectClass}
    (agree : AgreeOn keys classes other)
    (sameLength : classes.length = other.length)
    (closed : Closed keys classes)
    {objectClass : ObjectClass}
    (within : ∀ target, objectClass.parent = some target → target ∈ keys) :
    ancestors classes objectClass = ancestors other objectClass := by
  rw [ancestors, ancestors, ← sameLength, ancestry_congr agree closed _ within]

theorem delegatedCopies_congr
    {keys : List String}
    {classes other : List ObjectClass}
    (agree : AgreeOn keys classes other)
    (sameLength : classes.length = other.length)
    (closed : Closed keys classes)
    {objectClass : ObjectClass}
    (within :
      ∀ target relationship,
        objectClass.identityTarget = some (target, relationship) → target ∈ keys) :
    delegatedCopies classes objectClass = delegatedCopies other objectClass := by
  unfold delegatedCopies
  split
  · rfl
  · next target relationship isTarget =>
      have inKeys := within target relationship isTarget
      rw [← agree target inKeys]
      cases found : findClass? classes target with
      | none => rfl
      | some targetClass =>
          have sameChain : chainOf classes targetClass = chainOf other targetClass := by
            rw [chainOf, chainOf, ← sameLength,
              ancestry_congr agree closed _ (closed target inKeys targetClass found).parent]
          simp only [sameChain]

theorem Within.mono
    {keys more : List String}
    {objectClass : ObjectClass}
    (within : Within keys objectClass)
    (contained : ∀ key ∈ keys, key ∈ more) :
    Within more objectClass := by
  constructor
  · intro target isParent
    exact contained target (within.parent target isParent)
  · intro target relationship isTarget
    exact contained target (within.identityTarget target relationship isTarget)
  · intro attr isAttribute refers reference isReference
    exact contained _ (within.references attr isAttribute refers reference isReference)

theorem Closed.congr
    {keys : List String}
    {classes other : List ObjectClass}
    (closed : Closed keys classes)
    (agree : AgreeOn keys classes other) :
    Closed keys other := by
  intro key inKeys objectClass found
  rw [← agree key inKeys] at found
  exact closed key inKeys objectClass found

/-- What a class is resolved to is the same in classes that agree on what it needs. -/
theorem ResolvedTo.congr
    {keys : List String}
    {classes other : List ObjectClass}
    (agree : AgreeOn keys classes other)
    (sameLength : classes.length = other.length)
    (closed : Closed keys classes)
    {declared resolved : ObjectClass}
    (within : Within keys declared)
    (resolvedTo : ResolvedTo classes declared resolved) :
    ResolvedTo other declared resolved := by
  have sameAncestors := ancestors_congr agree sameLength closed within.parent
  have sameCopies := delegatedCopies_congr agree sameLength closed within.identityTarget
  rcases resolvedTo with ⟨key, table, view, parent, extended, mediated, distinct, attributes⟩
  rw [sameAncestors] at table view
  rw [sameAncestors, sameCopies] at attributes
  exact ⟨key, table, view, parent, extended, mediated, distinct, attributes⟩

/-! ## What a resolved class needs -/

namespace Attribute

@[simp]
theorem name_complete (owner : String) (attr : Attribute) :
    (attr.complete owner).name = attr.name := by
  rw [complete, nameColumns, fixUuid]
  repeat' split
  all_goals rfl

@[simp]
theorem reference_complete (owner : String) (attr : Attribute) :
    (attr.complete owner).reference = attr.reference := by
  rw [complete, nameColumns, fixUuid]
  repeat' split
  all_goals rfl

@[simp]
theorem relationship_complete (owner : String) (attr : Attribute) :
    (attr.complete owner).relationship = attr.relationship := by
  rw [complete, nameColumns, fixUuid]
  repeat' split
  all_goals rfl

@[simp]
theorem persistent_complete (owner : String) (attr : Attribute) :
    (attr.complete owner).flags.persistent = attr.flags.persistent := by
  rw [complete, nameColumns, fixUuid]
  repeat' split
  all_goals rfl

@[simp]
theorem isReference_complete (owner : String) (attr : Attribute) :
    (attr.complete owner).isReference = attr.isReference := by
  simp [isReference, isCollection]

end Attribute

theorem mem_links_iff
    {objectClass : ObjectClass}
    {attr : Attribute} :
    attr ∈ objectClass.links ↔
      ∃ target relationship,
        objectClass.identityTarget = some (target, relationship) ∧
        attr = linkAttribute target relationship := by
  rw [ObjectClass.links]
  split
  · next noTarget => simp [noTarget]
  · next target relationship isTarget =>
      constructor
      · intro isLink
        exact ⟨target, relationship, isTarget, List.mem_singleton.mp isLink⟩
      · rintro ⟨_, _, same, rfl⟩
        cases isTarget.symm.trans same
        exact List.mem_singleton_self _

/-- A copy that has been admitted has a name of its own. -/
theorem mem_admitCopies
    {taken : List String}
    {copies : List Attribute}
    {attr : Attribute}
    (admitted : attr ∈ admitCopies taken copies) :
    attr ∈ copies ∧ attr.name ∉ taken := by
  induction copies generalizing taken with
  | nil => simp [admitCopies] at admitted
  | cons copy copies inductionHypothesis =>
      rw [admitCopies] at admitted
      split at admitted
      · rcases inductionHypothesis admitted with ⟨isCopy, free⟩
        exact ⟨List.mem_cons_of_mem _ isCopy, free⟩
      · next fresh =>
          rcases List.mem_cons.mp admitted with rfl | later
          · exact ⟨List.mem_cons_self, by simpa using fresh⟩
          · rcases inductionHypothesis later with ⟨isCopy, free⟩
            exact ⟨List.mem_cons_of_mem _ isCopy,
              fun isTaken => free (List.mem_cons_of_mem _ isTaken)⟩

/-- The names of ancestors are claimed, and none of them had been claimed before. -/
theorem claimed_of_claimInherited
    {key : String}
    {taken claimed : List String}
    {ancestors : List ObjectClass}
    (outcome : claimInherited key taken ancestors = .ok claimed) :
    (∀ name ∈ taken, name ∈ claimed) ∧
    ∀ ancestor ∈ ancestors, ∀ attr ∈ ancestor.attributes,
      attr.name ∈ claimed ∧ attr.name ∉ taken := by
  induction ancestors generalizing taken with
  | nil =>
      cases outcome
      simp
  | cons ancestor ancestors inductionHypothesis =>
      rw [claimInherited] at outcome
      split at outcome
      · cases outcome
      · next free =>
          rcases inductionHypothesis outcome with ⟨kept, others⟩
          constructor
          · intro name isTaken
            exact kept name (List.mem_append_left _ isTaken)
          · intro member isMember attr isAttribute
            rcases List.mem_cons.mp isMember with rfl | later
            · constructor
              · apply kept
                exact List.mem_append_right _ (List.mem_map_of_mem isAttribute)
              · have unclaimed := List.find?_eq_none.mp free attr isAttribute
                simpa using unclaimed
            · rcases others member later attr isAttribute with ⟨isClaimed, outside⟩
              exact ⟨isClaimed, fun isTaken => outside (List.mem_append_left _ isTaken)⟩

theorem mem_delegatedCopies
    {classes : List ObjectClass}
    {objectClass : ObjectClass}
    {attr : Attribute}
    (isCopy : attr ∈ delegatedCopies classes objectClass) :
    ∃ target relationship targetClass owner original,
      objectClass.identityTarget = some (target, relationship) ∧
      findClass? classes target = some targetClass ∧
      owner ∈ chainOf classes targetClass ∧
      original ∈ owner.attributes ∧
      original.isCopyable = true ∧
      attr = original.delegatedCopy target relationship := by
  rw [delegatedCopies] at isCopy
  split at isCopy
  · simp at isCopy
  · next target relationship isTarget =>
      split at isCopy
      · simp at isCopy
      · next targetClass found =>
          simp only [List.mem_map, List.mem_filter, List.mem_flatMap] at isCopy
          rcases isCopy with ⟨original, ⟨⟨owner, inChain, isOriginal⟩, copyable⟩, rfl⟩
          exact ⟨target, relationship, targetClass, owner, original, isTarget, found, inChain,
            isOriginal, copyable, rfl⟩

namespace ResolvedTo

variable
    {classes : List ObjectClass}
    {declared resolved : ObjectClass}

theorem identityTarget
    (resolvedTo : ResolvedTo classes declared resolved) :
    resolved.identityTarget = declared.identityTarget := by
  rw [ObjectClass.identityTarget, ObjectClass.identityTarget, resolvedTo.extended,
    resolvedTo.mediated]

/-- An attribute of a resolved class is its link, a declared attribute or a copy. -/
theorem cases_attribute
    (resolvedTo : ResolvedTo classes declared resolved)
    {attr : Attribute}
    (isAttribute : attr ∈ resolved.attributes) :
    (∃ target relationship,
      declared.identityTarget = some (target, relationship) ∧
      attr = (linkAttribute target relationship).complete declared.key) ∨
    (∃ original ∈ declared.attributes, attr = original.complete declared.key) ∨
    attr ∈ delegatedCopies classes declared := by
  rcases resolvedTo.attributes with ⟨taken, _, attributes⟩
  rw [attributes] at isAttribute
  rcases List.mem_append.mp isAttribute with isOwn | isCopy
  · rcases List.mem_map.mp isOwn with ⟨original, isOriginal, rfl⟩
    rcases List.mem_append.mp isOriginal with isLink | isDeclared
    · rcases mem_links_iff.mp isLink with ⟨target, relationship, isTarget, rfl⟩
      exact Or.inl ⟨target, relationship, isTarget, rfl⟩
    · exact Or.inr (Or.inl ⟨original, isDeclared, rfl⟩)
  · exact Or.inr (Or.inr (mem_admitCopies isCopy).1)

/-- A stored attribute of a resolved class is no copy, since copies have no column. -/
theorem cases_stored
    (resolvedTo : ResolvedTo classes declared resolved)
    {attr : Attribute}
    (isStored : attr ∈ resolved.stored) :
    (∃ target relationship,
      declared.identityTarget = some (target, relationship) ∧
      attr = (linkAttribute target relationship).complete declared.key) ∨
    ∃ original ∈ declared.attributes, attr = original.complete declared.key := by
  rcases List.mem_filter.mp isStored with ⟨isAttribute, stored⟩
  rcases resolvedTo.cases_attribute isAttribute with isLink | isDeclared | isCopy
  · exact Or.inl isLink
  · exact Or.inr isDeclared
  · rcases mem_delegatedCopies isCopy with ⟨_, _, _, _, _, _, _, _, _, _, rfl⟩
    cases stored

/-- A resolved class needs no more than its declaration. -/
theorem within
    {keys : List String}
    (resolvedTo : ResolvedTo classes declared resolved)
    (withinDeclared : Within keys declared) :
    Within keys resolved := by
  constructor
  · rw [resolvedTo.parent]
    exact withinDeclared.parent
  · rw [resolvedTo.identityTarget]
    exact withinDeclared.identityTarget
  · intro attr isAttribute refers reference isReference
    rcases resolvedTo.cases_attribute isAttribute with
      ⟨target, relationship, isTarget, rfl⟩ | ⟨original, isDeclared, rfl⟩ | isCopy
    · rw [Attribute.reference_complete] at isReference
      cases isReference
      exact withinDeclared.identityTarget target relationship isTarget
    · rw [Attribute.reference_complete] at isReference
      rw [Attribute.isReference_complete] at refers
      exact withinDeclared.references original isDeclared refers reference isReference
    · rcases mem_delegatedCopies isCopy with ⟨_, _, _, _, _, _, _, _, _, _, rfl⟩
      cases isReference

end ResolvedTo

namespace ObjectClass

theorem identityTarget_eq_some
    {objectClass : ObjectClass}
    {target : String}
    {relationship : Relationship}
    (isTarget : objectClass.identityTarget = some (target, relationship)) :
    objectClass.extended = some target ∨ objectClass.mediated = some target := by
  rw [identityTarget] at isTarget
  split at isTarget
  · next extended =>
      cases isTarget
      exact Or.inl extended
  · next mediated =>
      cases isTarget
      exact Or.inr mediated
  · cases isTarget

/-- A class needs nothing but what it depends on. -/
theorem within_dependencies (objectClass : ObjectClass) :
    Within objectClass.dependencies objectClass := by
  constructor
  · intro target isParent
    simp [dependencies, isParent]
  · intro target relationship isTarget
    rcases identityTarget_eq_some isTarget with extended | mediated
    · simp [dependencies, extended]
    · simp [dependencies, mediated]
  · intro attr isAttribute _ reference isReference
    apply List.mem_append_right
    exact List.mem_filterMap.mpr ⟨attr, isAttribute, by simp [isReference]⟩

theorem eq_key_or_mem_prerequisites
    {objectClass : ObjectClass}
    {target : String}
    (depends : target ∈ objectClass.dependencies) :
    target = objectClass.key ∨ target ∈ objectClass.prerequisites := by
  by_cases own : target = objectClass.key
  · exact Or.inl own
  · exact Or.inr (by simp [prerequisites, depends, own])

/-- A class needs nothing but its prerequisites and itself. -/
theorem within_prerequisites
    {objectClass : ObjectClass}
    {keys : List String}
    (needs : ∀ target ∈ objectClass.prerequisites, target ∈ keys) :
    Within (keys ++ [objectClass.key]) objectClass := by
  apply objectClass.within_dependencies.mono
  intro target depends
  rcases eq_key_or_mem_prerequisites depends with rfl | needed
  · exact List.mem_append_right _ (List.mem_singleton_self _)
  · exact List.mem_append_left _ (needs target needed)

end ObjectClass

/-- The class does not need itself, though it may collect objects of its own. -/
structure SelfFree (objectClass : ObjectClass) : Prop where
  parent : objectClass.parent ≠ some objectClass.key
  extended : objectClass.extended ≠ some objectClass.key
  mediated : objectClass.mediated ≠ some objectClass.key
  references :
    ∀ attr ∈ objectClass.attributes, attr.isReference = true →
      ∀ reference, attr.reference = some reference → reference.target ≠ objectClass.key

/-- What a class that does not need itself needs are its prerequisites. -/
theorem SelfFree.within
    {objectClass : ObjectClass}
    (selfFree : SelfFree objectClass)
    {keys : List String}
    (needs : ∀ target ∈ objectClass.prerequisites, target ∈ keys) :
    Within keys objectClass := by
  have depends := objectClass.within_dependencies
  have needed : ∀ target ∈ objectClass.dependencies, target ≠ objectClass.key →
      target ∈ keys := by
    intro target depends other
    exact needs target ((ObjectClass.eq_key_or_mem_prerequisites depends).resolve_left other)
  constructor
  · intro target isParent
    apply needed target (depends.parent target isParent)
    rintro rfl
    exact selfFree.parent isParent
  · intro target relationship isTarget
    apply needed target (depends.identityTarget target relationship isTarget)
    rintro rfl
    rcases ObjectClass.identityTarget_eq_some isTarget with extended | mediated
    · exact selfFree.extended extended
    · exact selfFree.mediated mediated
  · intro attr isAttribute refers reference isReference
    apply needed _ (depends.references attr isAttribute refers reference isReference)
    exact selfFree.references attr isAttribute refers reference isReference

end ClassStore.Catalog
