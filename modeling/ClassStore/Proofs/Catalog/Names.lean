import ClassStore.Proofs.Catalog.Settled

/-!
# Names along a chain

The attributes of a class and of its ancestors have different names, because a
resolved class claims the names of its ancestors and admits only copies with
names of their own.  So every attribute along the chain of a class is visible on
the class: `visibleAttribute?_of_mem`.
-/

namespace ClassStore.Catalog

/-! ## Distinct names -/

theorem nodup_of_firstRepeated
    {taken names : List String}
    (distinct : firstRepeated taken names = none) :
    names.Nodup ∧ ∀ name ∈ names, name ∉ taken := by
  induction names generalizing taken with
  | nil => simp
  | cons name names inductionHypothesis =>
      rw [firstRepeated] at distinct
      split at distinct
      · cases distinct
      · next fresh =>
          rcases inductionHypothesis distinct with ⟨others, outside⟩
          constructor
          · rw [List.nodup_cons]
            refine ⟨?_, others⟩
            intro repeated
            exact outside name repeated List.mem_cons_self
          · intro other isName
            rcases List.mem_cons.mp isName with rfl | later
            · simpa using fresh
            · intro isTaken
              exact outside other later (List.mem_cons_of_mem _ isTaken)

theorem nodup_admitCopies
    (taken : List String)
    (copies : List Attribute) :
    ((admitCopies taken copies).map Attribute.name).Nodup := by
  induction copies generalizing taken with
  | nil => simp [admitCopies]
  | cons copy copies inductionHypothesis =>
      rw [admitCopies]
      split
      · exact inductionHypothesis taken
      · rw [List.map_cons, List.nodup_cons]
        refine ⟨?_, inductionHypothesis _⟩
        intro repeated
        rcases List.mem_map.mp repeated with ⟨other, admitted, sameName⟩
        apply (mem_admitCopies admitted).2
        rw [sameName]
        exact List.mem_cons_self

/-- The names of a resolved class are distinct. -/
theorem ResolvedTo.nodup_names
    {classes : List ObjectClass}
    {declared resolved : ObjectClass}
    (resolvedTo : ResolvedTo classes declared resolved) :
    (resolved.attributes.map Attribute.name).Nodup := by
  rcases resolvedTo.attributes with ⟨claimed, claiming, attributes⟩
  rw [attributes, List.map_append, List.nodup_append]
  refine ⟨(nodup_of_firstRepeated resolvedTo.distinct).1, nodup_admitCopies _ _, ?_⟩
  rintro name isOwn _ isCopied rfl
  rcases List.mem_map.mp isCopied with ⟨copy, admitted, rfl⟩
  exact (mem_admitCopies admitted).2 ((claimed_of_claimInherited claiming).1 _ isOwn)

/-- A resolved class has no name in common with its ancestors. -/
theorem ResolvedTo.name_ne_of_mem_ancestors
    {classes : List ObjectClass}
    {declared resolved ancestor : ObjectClass}
    (resolvedTo : ResolvedTo classes declared resolved)
    (isAncestor : ancestor ∈ ancestors classes declared)
    {attr inherited : Attribute}
    (isAttribute : attr ∈ resolved.attributes)
    (isInherited : inherited ∈ ancestor.attributes) :
    attr.name ≠ inherited.name := by
  rcases resolvedTo.attributes with ⟨claimed, claiming, attributes⟩
  rcases (claimed_of_claimInherited claiming).2 ancestor isAncestor inherited isInherited with
    ⟨isClaimed, unclaimed⟩
  intro sameName
  rw [attributes] at isAttribute
  rcases List.mem_append.mp isAttribute with isOwn | isCopied
  · apply unclaimed
    rw [← sameName]
    exact List.mem_map_of_mem isOwn
  · apply (mem_admitCopies isCopied).2
    rwa [sameName]

theorem mem_ancestry_mono
    {classes : List ObjectClass}
    {fewer more : Nat}
    (le : fewer ≤ more)
    {objectClass member : ObjectClass}
    (isMember : member ∈ ancestry classes fewer objectClass) :
    member ∈ ancestry classes more objectClass := by
  induction fewer generalizing more objectClass with
  | zero =>
      rw [List.mem_singleton.mp isMember]
      cases more <;> simp [ancestry]
  | succ fewer inductionHypothesis =>
      rcases Nat.exists_eq_add_of_lt le with ⟨rest, rfl⟩
      rw [ancestry] at isMember
      rw [ancestry]
      rcases List.mem_cons.mp isMember with rfl | isAncestor
      · exact List.mem_cons_self
      · apply List.mem_cons_of_mem
        cases found : parentOf? classes objectClass with
        | none => simp [found] at isAncestor
        | some parent =>
            simp only [found] at isAncestor ⊢
            exact inductionHypothesis (by omega) isAncestor

/-! ## Attributes along a chain -/

/-- The attributes of a class and its ancestors, those of the class itself first. -/
def attributesOn (catalog : Catalog) (key : String) : List Attribute :=
  (catalog.chain key).reverse.flatMap ObjectClass.attributes

theorem reverse_chain
    {catalog : Catalog}
    {key : String}
    {objectClass : ObjectClass}
    (found : catalog.find? key = some objectClass) :
    (catalog.chain key).reverse =
      ancestry catalog.classes catalog.classes.length objectClass := by
  simp [chain, found, chainOf]

theorem mem_attributesOn_iff
    {catalog : Catalog}
    {key : String}
    {attr : Attribute} :
    attr ∈ attributesOn catalog key ↔
      ∃ member ∈ catalog.chain key, attr ∈ member.attributes := by
  simp [attributesOn]

namespace ResolvedCatalog

variable
    {declared : List ObjectClass}
    {catalog : Catalog}

/-- The parent of a class of the catalog is a class of the catalog. -/
theorem parentOf?_eq_some
    {objectClass parent : ObjectClass}
    (isParent : parentOf? catalog.classes objectClass = some parent) :
    catalog.find? parent.key = some parent :=
  (of_parentOf? isParent).2

/-- Names are distinct along the chain of a class. -/
theorem nodup_names_ancestry
    (resolvedCatalog : ResolvedCatalog declared catalog)
    {generations : Nat}
    (le : generations ≤ catalog.classes.length)
    {objectClass : ObjectClass}
    (found : catalog.find? objectClass.key = some objectClass) :
    (((ancestry catalog.classes generations objectClass).flatMap
      ObjectClass.attributes).map Attribute.name).Nodup := by
  induction generations generalizing objectClass with
  | zero =>
      rcases resolvedCatalog.exists_settled found with ⟨original, _, settled⟩
      have own := settled.resolvedTo.nodup_names
      simpa [ancestry] using own
  | succ generations inductionHypothesis =>
      rcases resolvedCatalog.exists_settled found with ⟨original, _, settled⟩
      have resolvedTo := settled.resolvedTo
      cases isParent : parentOf? catalog.classes objectClass with
      | none => simpa [ancestry, isParent] using resolvedTo.nodup_names
      | some parent =>
          have inherited := inductionHypothesis (Nat.le_of_succ_le le) (parentOf?_eq_some isParent)
          simp only [ancestry, isParent, List.flatMap_cons, List.map_append, List.nodup_append]
          refine ⟨resolvedTo.nodup_names, inherited, ?_⟩
          rintro name isOwn _ isInherited rfl
          rcases List.mem_map.mp isOwn with ⟨attr, isAttribute, rfl⟩
          rcases List.mem_map.mp isInherited with ⟨other, isOther, sameName⟩
          rcases List.mem_flatMap.mp isOther with ⟨ancestor, isMember, ofAncestor⟩
          have isAncestor : ancestor ∈ ancestors catalog.classes original := by
            rcases Nat.exists_eq_add_of_lt le with ⟨rest, size⟩
            rw [ancestors, ancestry_congr_parent catalog.classes resolvedTo.parent.symm, size]
            simp only [ancestry, isParent, List.drop_succ_cons, List.drop_zero]
            exact mem_ancestry_mono (by omega) isMember
          exact resolvedTo.name_ne_of_mem_ancestors isAncestor isAttribute ofAncestor sameName.symm

theorem visibleAttribute?_eq_find?
    (catalog : Catalog)
    (key : String)
    {name : String}
    (ordinary : name ≠ "id") :
    catalog.visibleAttribute? key name =
      (attributesOn catalog key).find? fun attr => attr.name == name := by
  rw [visibleAttribute?, if_neg ordinary, attributesOn, List.find?_flatMap]
  rfl

/-- Every attribute along the chain of a class is visible on the class by its name. -/
theorem visibleAttribute?_of_mem
    (resolvedCatalog : ResolvedCatalog declared catalog)
    {key : String}
    {attr : Attribute}
    (isAttribute : attr ∈ attributesOn catalog key)
    (ordinary : attr.name ≠ "id") :
    catalog.visibleAttribute? key attr.name = some attr := by
  rw [visibleAttribute?_eq_find? catalog key ordinary]
  cases found : catalog.find? key with
  | none => simp [attributesOn, chain, found] at isAttribute
  | some objectClass =>
      have sameKey : objectClass.key = key := (findClass?_eq_some found).2
      have foundByKey : catalog.find? objectClass.key = some objectClass := by
        rwa [sameKey]
      apply find?_eq_some_of_mem Attribute.name _ isAttribute
      rw [attributesOn, reverse_chain found]
      exact resolvedCatalog.nodup_names_ancestry (Nat.le_refl _) foundByKey

end ResolvedCatalog

end ClassStore.Catalog
