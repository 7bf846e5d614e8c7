import ClassStore.Proofs.Catalog.Columns

/-!
# Copied attributes

A class that extends or mediates another one shows copies of what can be searched
on that class.  In every catalog a delegated attribute has been declared as such,
or it is a copy that some class of the chain holds through its link:
`ResolvedCatalog.declared_or_isCopy`.  What is copied may be a copy itself; if it
is not delegated, it is stored.
-/

namespace ClassStore.Catalog

/-! ## Links in a catalog -/

/-- The link refers to a class of the catalog and is named after it. -/
structure LinksTo (catalog : Catalog) (link : Attribute) (target : ObjectClass) : Prop where
  name : link.name = target.key
  column : link.viewColumn = target.key ++ "__id"
  refers : link.reference = some ⟨target.key, .cascade⟩
  found : catalog.find? target.key = some target

theorem ObjectClass.mem_attributes_of_link?
    {objectClass : ObjectClass}
    {link : Attribute}
    (isLink : objectClass.link? = some link) :
    link ∈ objectClass.attributes := by
  rcases Option.bind_eq_some_iff.mp isLink with ⟨_, _, found⟩
  exact List.mem_of_find?_eq_some found

theorem linksTo_completedLink
    {catalog : Catalog}
    {declared : ObjectClass}
    {target : String}
    {relationship : Relationship}
    (isTarget : declared.identityTarget = some (target, relationship))
    {targetClass : ObjectClass}
    (found : catalog.find? target = some targetClass) :
    LinksTo catalog (declared.completedLink target relationship) targetClass := by
  rcases findClass?_eq_some found with ⟨_, rfl⟩
  exact ⟨ObjectClass.name_completedLink, ObjectClass.viewColumn_completedLink isTarget,
    ObjectClass.reference_completedLink, found⟩

namespace ResolvedCatalog

variable
    {declared : List ObjectClass}
    {catalog : Catalog}

/-- A class that extends or mediates another one has a stored link to it. -/
theorem exists_link
    (resolvedCatalog : ResolvedCatalog declared catalog)
    {key : String}
    {objectClass : ObjectClass}
    (found : catalog.find? key = some objectClass)
    {target : String}
    {relationship : Relationship}
    (isTarget : objectClass.identityTarget = some (target, relationship)) :
    ∃ link targetClass,
      objectClass.link? = some link ∧
      link.isStored = true ∧
      LinksTo catalog link targetClass ∧
      targetClass.key = target := by
  rcases resolvedCatalog.exists_settled found with ⟨original, isDeclared, settled⟩
  rw [settled.resolvedTo.identityTarget] at isTarget
  have depends := original.within_dependencies.identityTarget target relationship isTarget
  have known := resolvedCatalog.known_iff.mpr
    (resolvedCatalog.known original (findClass?_eq_some isDeclared).1 target depends)
  rcases Option.isSome_iff_exists.mp known with ⟨targetClass, foundTarget⟩
  exact ⟨original.completedLink target relationship, targetClass,
    settled.resolvedTo.link?_eq isTarget, ObjectClass.isStored_completedLink isTarget,
    linksTo_completedLink isTarget foundTarget, (findClass?_eq_some foundTarget).2⟩

/-- Every link in the catalog is stored and refers to a class of the catalog. -/
theorem exists_linksTo
    (resolvedCatalog : ResolvedCatalog declared catalog)
    {key : String}
    {objectClass : ObjectClass}
    (found : catalog.find? key = some objectClass)
    {link : Attribute}
    (isLink : objectClass.link? = some link) :
    ∃ target, link.isStored = true ∧ LinksTo catalog link target := by
  rcases Option.bind_eq_some_iff.mp isLink with ⟨⟨target, relationship⟩, isTarget, _⟩
  rcases resolvedCatalog.exists_link found isTarget with
    ⟨other, targetClass, isOther, stored, linksTo, _⟩
  cases isLink.symm.trans isOther
  exact ⟨targetClass, stored, linksTo⟩

/-- A class and an ancestor are never linked through the same column. -/
theorem viewColumn_link_ne
    (resolvedCatalog : ResolvedCatalog declared catalog)
    {key : String}
    {objectClass ancestor : ObjectClass}
    (found : catalog.find? key = some objectClass)
    (inChain : ancestor ∈ catalog.chain key)
    (different : ancestor ≠ objectClass)
    {own inherited : Attribute}
    {ownTarget inheritedTarget : ObjectClass}
    (isOwn : objectClass.link? = some own)
    (isInherited : ancestor.link? = some inherited)
    (ownLinks : LinksTo catalog own ownTarget)
    (inheritedLinks : LinksTo catalog inherited inheritedTarget) :
    own.viewColumn ≠ inherited.viewColumn := by
  rcases resolvedCatalog.exists_settled found with ⟨original, _, settled⟩
  have isAncestor : ancestor ∈ ancestors catalog.classes original := by
    rw [chain, found] at inChain
    rw [ancestors_congr_parent catalog.classes settled.resolvedTo.parent.symm]
    exact (mem_chainOf_iff.mp inChain).resolve_left different
  intro sameColumn
  apply settled.resolvedTo.name_ne_of_mem_ancestors isAncestor
    (ObjectClass.mem_attributes_of_link? isOwn) (ObjectClass.mem_attributes_of_link? isInherited)
  rw [ownLinks.column, inheritedLinks.column] at sameColumn
  rw [ownLinks.name, inheritedLinks.name]
  exact (String.append_left_inj _).mp sameColumn

end ResolvedCatalog

/-! ## Copies -/

/-- Through its link the owner holds the copy of an attribute that is visible on the target. -/
structure IsCopy (catalog : Catalog) (owner target : ObjectClass)
    (link original copy : Attribute) : Prop where
  held : copy ∈ owner.attributes
  isLink : owner.link? = some link
  linksTo : LinksTo catalog link target
  visible : original ∈ attributesOn catalog target.key
  copyable : original.isCopyable = true
  copied : ∃ relationship, copy = original.delegatedCopy target.key relationship

namespace ResolvedCatalog

variable
    {declared : List ObjectClass}
    {catalog : Catalog}

/-- A delegated attribute of a class has been declared so or is a copy. -/
theorem declared_or_isCopy
    (resolvedCatalog : ResolvedCatalog declared catalog)
    {key : String}
    {owner : ObjectClass}
    (inChain : owner ∈ catalog.chain key)
    {copy : Attribute}
    (held : copy ∈ owner.attributes)
    (delegated : copy.isDelegated = true) :
    (∃ original ∈ declared, original.key = owner.key ∧ copy ∈ original.attributes) ∨
    ∃ target link original, IsCopy catalog owner target link original copy := by
  have found := resolvedCatalog.find?_of_mem_chain inChain
  rcases resolvedCatalog.exists_settled found with ⟨declaration, isDeclared, settled⟩
  rcases findClass?_eq_some isDeclared with ⟨inDeclared, sameKey⟩
  have resolvedTo := settled.resolvedTo
  rcases resolvedTo.cases_attribute held with
    ⟨target, relationship, _, rfl⟩ | ⟨original, isOriginal, rfl⟩ | isCopy
  · rw [Attribute.isDelegated_complete] at delegated
    cases delegated
  · rw [Attribute.isDelegated_complete] at delegated
    rw [Attribute.complete_of_isDelegated delegated]
    exact Or.inl ⟨declaration, inDeclared, sameKey, isOriginal⟩
  · rcases mem_delegatedCopies isCopy with
      ⟨target, relationship, targetClass, member, original, isTarget, foundTarget, inTargetChain,
        isOriginal, copyable, copied⟩
    rcases findClass?_eq_some foundTarget with ⟨_, rfl⟩
    have visible : original ∈ attributesOn catalog targetClass.key := by
      rw [mem_attributesOn_iff, chain, Catalog.find?, foundTarget]
      exact ⟨member, inTargetChain, isOriginal⟩
    exact Or.inr ⟨targetClass, declaration.completedLink targetClass.key relationship, original,
      held, resolvedTo.link?_eq isTarget, linksTo_completedLink isTarget foundTarget, visible,
      copyable, relationship, copied⟩

/-- An attribute that can be copied and is not delegated is stored. -/
theorem isStored_of_isCopyable
    (resolvedCatalog : ResolvedCatalog declared catalog)
    {key : String}
    {attr : Attribute}
    (visible : attr ∈ attributesOn catalog key)
    (copyable : attr.isCopyable = true)
    (direct : attr.isDelegated = false) :
    attr.isStored = true := by
  rcases mem_attributesOn_iff.mp visible with ⟨member, inChain, isAttribute⟩
  have found := resolvedCatalog.find?_of_mem_chain inChain
  rcases resolvedCatalog.exists_settled found with ⟨declaration, _, settled⟩
  rcases settled.resolvedTo.cases_attribute isAttribute with
    ⟨target, relationship, isTarget, rfl⟩ | ⟨original, _, rfl⟩ | isCopy
  · exact ObjectClass.isStored_completedLink isTarget
  · rw [Attribute.isDelegated_complete] at direct
    have searchable : original.isSearchable = true := by
      rw [← Attribute.isSearchable_complete declaration.key]
      exact (Bool.and_eq_true_iff.mp copyable).1
    exact Attribute.isStored_complete direct searchable declaration.key
  · rcases mem_delegatedCopies isCopy with ⟨_, _, _, _, _, _, _, _, _, _, rfl⟩
    cases direct

end ResolvedCatalog

end ClassStore.Catalog
