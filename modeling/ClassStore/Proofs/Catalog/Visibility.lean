import ClassStore.Proofs.Catalog.Chains
import ClassStore.Proofs.Catalog.Copies

/-!
# Visible attributes

What is visible on a class does not depend on where one looks for it.  No name
occurs twice along a chain, and the attributes of a class are put together from
three parts: its link, the declared ones, and the copies of what its target shows
under names that are free.  `attributes_unambiguous` says this of every class of
every catalog, also of a class that copies from itself.
-/

namespace ClassStore.Catalog

/-- The attributes of a class and its ancestors, those of the root first. -/
def chainAttributes (catalog : Catalog) (key : String) : List Attribute :=
  (catalog.chain key).flatMap ObjectClass.attributes

/-- The names along the chain of a class, apart from those of its own copies. -/
def namesBeside (catalog : Catalog) (declaration : ObjectClass) : List String :=
  (declaration.ownAttributes ++
    (catalog.chain declaration.key).dropLast.flatMap ObjectClass.attributes).map Attribute.name

/-- The copies of what can be copied along the chain of the target and has a free name. -/
def freeCopies (catalog : Catalog) (declaration : ObjectClass) : List Attribute :=
  match declaration.identityTarget with
  | none => []
  | some (target, relationship) =>
      ((chainAttributes catalog target).filter fun attr =>
        attr.isCopyable && !(namesBeside catalog declaration).contains attr.name).map
          (Attribute.delegatedCopy target relationship)

/-! ## Claimed and admitted names -/

/-- What is claimed are the names of the class and of all its ancestors. -/
theorem claimed_eq_of_claimInherited
    {key : String}
    {taken claimed : List String}
    {ancestors : List ObjectClass}
    (outcome : claimInherited key taken ancestors = .ok claimed) :
    claimed = taken ++ (ancestors.flatMap ObjectClass.attributes).map Attribute.name := by
  induction ancestors generalizing taken with
  | nil =>
      cases outcome
      simp
  | cons ancestor ancestors inductionHypothesis =>
      rw [claimInherited] at outcome
      split at outcome
      · cases outcome
      · rw [inductionHypothesis outcome, List.flatMap_cons, List.map_append, List.append_assoc]

/-- Copies with distinct names are admitted where the name is free, whichever stand before. -/
theorem admitCopies_eq_filter
    {copies : List Attribute}
    (distinct : (copies.map Attribute.name).Nodup)
    (taken : List String) :
    admitCopies taken copies = copies.filter fun copy => !taken.contains copy.name := by
  induction copies generalizing taken with
  | nil => rfl
  | cons copy copies inductionHypothesis =>
      rw [List.map_cons, List.nodup_cons] at distinct
      rw [admitCopies]
      split
      · next isTaken =>
          rw [List.filter_cons_of_neg (by simpa using isTaken), inductionHypothesis distinct.2]
      · next free =>
          rw [List.filter_cons_of_pos (by simpa using free), inductionHypothesis distinct.2]
          congr 1
          apply List.filter_congr
          intro other isCopy
          have different : other.name ≠ copy.name := by
            intro sameName
            exact distinct.1 (sameName ▸ List.mem_map_of_mem isCopy)
          simp [different]

/-! ## The parts of a class -/

/-- The attributes of a class itself are its link and the declared ones. -/
theorem ResolvedTo.ownAttributes_eq
    {classes : List ObjectClass}
    {declared resolved : ObjectClass}
    (resolvedTo : ResolvedTo classes declared resolved) :
    declared.ownAttributes =
      resolved.link?.toList ++ declared.attributes.map (Attribute.complete declared.key) := by
  cases isTarget : declared.identityTarget with
  | none =>
      rw [resolvedTo.link?_eq_none isTarget, ObjectClass.ownAttributes, ObjectClass.links, isTarget]
      rfl
  | some identity =>
      rw [resolvedTo.link?_eq isTarget, ObjectClass.ownAttributes, ObjectClass.links, isTarget]
      rfl

/-- The copies that a class could show are those of its target's chain in the catalog. -/
theorem delegatedCopies_eq
    {catalog : Catalog}
    {declaration : ObjectClass}
    {target : String}
    {relationship : Relationship}
    (isTarget : declaration.identityTarget = some (target, relationship)) :
    delegatedCopies catalog.classes declaration =
      ((chainAttributes catalog target).filter Attribute.isCopyable).map
        (Attribute.delegatedCopy target relationship) := by
  simp only [delegatedCopies, isTarget, chainAttributes, chain, Catalog.find?]
  cases findClass? catalog.classes target <;> simp

/-- The names claimed for a class are all those along its chain apart from its copies. -/
theorem mem_claimed_iff
    {catalog : Catalog}
    {declaration objectClass : ObjectClass}
    {claimed : List String}
    (found : catalog.find? declaration.key = some objectClass)
    (sameParent : objectClass.parent = declaration.parent)
    (claiming :
      claimInherited declaration.key (declaration.ownAttributes.map Attribute.name)
        (ancestors catalog.classes declaration) = .ok claimed)
    (name : String) :
    name ∈ claimed ↔ name ∈ namesBeside catalog declaration := by
  rw [claimed_eq_of_claimInherited claiming, namesBeside, chain_eq_append found,
    List.dropLast_concat, ancestors_congr_parent catalog.classes sameParent]
  simp

namespace ResolvedCatalog

variable
    {declared : List ObjectClass}
    {catalog : Catalog}
    (resolvedCatalog : ResolvedCatalog declared catalog)

include resolvedCatalog

theorem nodup_chainAttributes (key : String) :
    ((chainAttributes catalog key).map Attribute.name).Nodup := by
  cases found : catalog.find? key with
  | none => simp [chainAttributes, chain, found]
  | some objectClass =>
      have foundByKey : catalog.find? objectClass.key = some objectClass := by
        rwa [(findClass?_eq_some found).2]
      have distinct := resolvedCatalog.nodup_names_ancestry (Nat.le_refl _) foundByKey
      rw [← reverse_chain found] at distinct
      exact ((List.reverse_perm _).flatMap_right _ |>.map _).nodup_iff.mp distinct

/-- A class has its own attributes, and behind them the copies with free names. -/
theorem attributes_eq
    {declaration objectClass : ObjectClass}
    (settled :
      Settled catalog.classes catalog.columns catalog.order declaration objectClass) :
    objectClass.attributes = declaration.ownAttributes ++ freeCopies catalog declaration := by
  rcases settled.resolvedTo.attributes with ⟨claimed, claiming, attributes⟩
  rw [attributes, freeCopies]
  congr 1
  cases isTarget : declaration.identityTarget with
  | none => simp [delegatedCopies, isTarget, admitCopies]
  | some identity =>
      rcases identity with ⟨target, relationship⟩
      have distinct :
          ((delegatedCopies catalog.classes declaration).map Attribute.name).Nodup := by
        rw [delegatedCopies_eq isTarget, List.map_map]
        exact (List.filter_sublist.map _).nodup (resolvedCatalog.nodup_chainAttributes target)
      rw [admitCopies_eq_filter distinct, delegatedCopies_eq isTarget,
        List.filter_map, List.filter_filter]
      congr 1
      apply List.filter_congr
      intro attr _
      have sameName : (attr.delegatedCopy target relationship).name = attr.name := rfl
      have sameNames := mem_claimed_iff settled.found settled.resolvedTo.parent claiming attr.name
      simp only [Function.comp_apply, sameName, List.contains_eq_mem, sameNames, Bool.and_comm]

end ResolvedCatalog

/--
Whatever is visible on a class has one place in its chain.

In every catalog the names along a chain are distinct, so an attribute is seen
under its name from everywhere below.  A class holds its link, if it extends or
mediates another one, then the declared attributes in their order, then the
copies of what is searchable and no reference along the chain of its target, root
first, wherever the name does not occur on its own chain otherwise.
-/
theorem attributes_unambiguous
    {declared : List ObjectClass}
    {catalog : Catalog}
    (built : Catalog.build declared = .ok catalog)
    {key : String}
    {objectClass : ObjectClass}
    (found : catalog.find? key = some objectClass) :
    ((chainAttributes catalog key).map Attribute.name).Nodup ∧
    (∀ attr ∈ chainAttributes catalog key, attr.name ≠ "id" →
      catalog.visibleAttribute? key attr.name = some attr) ∧
    ∃ declaration ∈ declared,
      declaration.key = key ∧
      (∀ link, objectClass.link? = some link ↔
        ∃ target relationship,
          declaration.identityTarget = some (target, relationship) ∧
          link = declaration.completedLink target relationship) ∧
      objectClass.attributes =
        objectClass.link?.toList ++ declaration.attributes.map (Attribute.complete key) ++
          freeCopies catalog declaration := by
  have resolvedCatalog := resolved_of_build built
  refine ⟨resolvedCatalog.nodup_chainAttributes key, ?_, ?_⟩
  · intro attr isAttribute ordinary
    apply resolvedCatalog.visibleAttribute?_of_mem _ ordinary
    rw [mem_attributesOn_iff]
    exact List.mem_flatMap.mp isAttribute
  · rcases resolvedCatalog.exists_settled found with ⟨declaration, isDeclared, settled⟩
    rcases findClass?_eq_some isDeclared with ⟨inDeclared, rfl⟩
    refine ⟨declaration, inDeclared, rfl, ?_, ?_⟩
    · intro link
      cases isTarget : declaration.identityTarget with
      | none => simp [settled.resolvedTo.link?_eq_none isTarget]
      | some identity =>
          rw [settled.resolvedTo.link?_eq isTarget]
          constructor
          · rintro ⟨⟩
            exact ⟨identity.1, identity.2, rfl, rfl⟩
          · rintro ⟨_, _, ⟨⟩, rfl⟩
            rfl
    · rw [← settled.resolvedTo.ownAttributes_eq, resolvedCatalog.attributes_eq settled]

/-- Laureates are authors, who are persons with a pen name and a name of their own choice. -/
def academy : List ObjectClass :=
  [{ ObjectClass.declare "laureate" with
      extended := some "author"
      attributes := [Attribute.declare "prize" .string] },
    { ObjectClass.declare "novelist" with
      parent := some "author"
      attributes := [Attribute.declare "genre" .string] },
    { ObjectClass.declare "author" with
      mediated := some "person"
      attributes := [Attribute.declare "pen" .string, Attribute.declare "name" .string] },
    { ObjectClass.declare "person" with
      attributes := [Attribute.declare "name" .string, Attribute.declare "born" .datetime] }]

/-- A laureate shows the chosen name of the author, and when the person was born. -/
theorem laureate_attributes_unambiguous :
    ∃ catalog laureate,
      Catalog.build academy = .ok catalog ∧
      catalog.find? "laureate" = some laureate ∧
      ((chainAttributes catalog "laureate").map Attribute.name).Nodup ∧
      laureate.attributes.map Attribute.name = ["author", "prize", "pen", "name", "born"] ∧
      ∃ declaration ∈ academy,
        declaration.key = "laureate" ∧
        laureate.attributes =
          laureate.link?.toList ++ declaration.attributes.map (Attribute.complete "laureate") ++
            freeCopies catalog declaration := by
  have checked : ((Catalog.build academy).toOption.any fun catalog =>
      (catalog.find? "laureate").any fun laureate =>
        laureate.attributes.map Attribute.name == ["author", "prize", "pen", "name", "born"]) =
      true := by
    decide +kernel
  simp only [Option.any_eq_true, toOption_eq_some_iff, beq_iff_eq] at checked
  rcases checked with ⟨catalog, built, laureate, found, names⟩
  rcases attributes_unambiguous built found with
    ⟨distinct, _, declaration, isDeclared, isKey, _, parts⟩
  exact ⟨catalog, laureate, built, found, distinct, names, declaration, isDeclared, isKey, parts⟩

end ClassStore.Catalog
