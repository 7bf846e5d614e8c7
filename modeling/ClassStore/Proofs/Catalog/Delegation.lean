import ClassStore.Proofs.Catalog.Copies
import ClassStore.Proofs.Catalog.Visibility

/-!
# Delegated attributes and paths

A delegated attribute is a short cut.  Its name, and the path over the link to
the attribute that it stands for, mean one column and one type of values:
`delegation_coherent`.  The link and the copy are held by one class of the chain,
so both are visible wherever the copy is.  What is copied may be a copy itself;
its own column already begins with the links that lead further.
-/

namespace ClassStore.Catalog

/-- What a builder's class shows of its target can be searched. -/
theorem ResolvedTo.isSearchable_of_isDelegated
    {classes : List ObjectClass}
    {declared resolved : ObjectClass}
    (resolvedTo : ResolvedTo classes declared resolved)
    (wellDeclared : WellDeclared declared)
    {attr : Attribute}
    (isAttribute : attr ∈ resolved.attributes)
    (delegated : attr.isDelegated = true) :
    attr.isSearchable = true := by
  rcases resolvedTo.cases_attribute isAttribute with
    ⟨target, relationship, _, rfl⟩ | ⟨original, isDeclared, rfl⟩ | isCopy
  · rw [Attribute.isDelegated_complete] at delegated
    cases delegated
  · rw [Attribute.isDelegated_complete, Attribute.isDelegated,
      (wellDeclared.unresolved original isDeclared).1] at delegated
    cases delegated
  · rcases mem_delegatedCopies isCopy with ⟨_, relationship, _, _, _, isTarget, _, _, _, _, rfl⟩
    rw [Attribute.isSearchable_iff, Attribute.isCollection, beq_eq_false_iff_ne]
    exact ⟨rfl, fun same => ne_hasMany_of_identityTarget isTarget (Option.some.inj same)⟩

namespace WellNamed

variable
    {declared : List ObjectClass}
    {catalog : Catalog}
    (wellNamed : WellNamed declared catalog)

include wellNamed

/-- A path of one segment means the column of the attribute of that name. -/
theorem resolvePath?_name
    {key : String}
    {objectClass : ObjectClass}
    (found : catalog.find? key = some objectClass)
    {attr : Attribute}
    (isAttribute : attr ∈ attributesOn catalog key)
    (searchable : attr.isSearchable = true) :
    catalog.resolvePath? key attr.name = some ⟨attr.viewColumn, attr⟩ := by
  rcases wellNamed.visible_of_isSearchable isAttribute searchable with ⟨visible, undotted⟩
  have segments : pathSegments attr.name = [attr.name] := by
    simp [pathSegments, Text.fields, Text.fieldsFrom_of_not_mem undotted]
  rw [resolvePath?, found, Option.bind_some, segments, resolveSegments,
    (findClass?_eq_some found).2, visible]
  simp [searchable]

/-- A path of two segments means the column of the second attribute behind the name of the first. -/
theorem resolvePath?_through
    {key : String}
    {objectClass target : ObjectClass}
    (found : catalog.find? key = some objectClass)
    {link : Attribute}
    (isAttribute : link ∈ attributesOn catalog key)
    (searchable : link.isSearchable = true)
    {reference : Reference}
    (refers : link.reference = some reference)
    (foundTarget : catalog.find? reference.target = some target)
    {attr : Attribute}
    (ofTarget : attr ∈ attributesOn catalog reference.target)
    (targetSearchable : attr.isSearchable = true) :
    catalog.resolvePath? key (link.name ++ "." ++ attr.name) =
      some ⟨link.name ++ "__" ++ attr.viewColumn, attr⟩ := by
  rcases wellNamed.visible_of_isSearchable isAttribute searchable with ⟨visible, undotted⟩
  rcases wellNamed.visible_of_isSearchable ofTarget targetSearchable with
    ⟨targetVisible, targetUndotted⟩
  have segments : pathSegments (link.name ++ "." ++ attr.name) = [link.name, attr.name] := by
    have split :
        Text.fields '.' (String.intercalate (String.singleton '.') [link.name, attr.name]) =
          [link.name, attr.name] :=
      Text.fields_intercalate (List.cons_ne_nil _ _) (by simpa using ⟨undotted, targetUndotted⟩)
    exact split
  rw [resolvePath?, found, Option.bind_some, segments, resolveSegments,
    (findClass?_eq_some found).2, visible]
  · simp [searchable, refers, foundTarget, resolveSegments, (findClass?_eq_some foundTarget).2,
      targetVisible, targetSearchable]
  · simp

end WellNamed

/--
A delegated attribute means what the path over the link means.

On a catalog of declared classes in which no attribute has the name of the
identifier, let an attribute that is visible on a class be delegated.  Its name,
and the path from the class that it delegates to to the attribute as which it acts
there, are both paths of the class, with one column and one type of values.
-/
theorem delegation_coherent
    {declared : List ObjectClass}
    {catalog : Catalog}
    (built : Catalog.build declared = .ok catalog)
    (wellDeclared : ∀ objectClass ∈ declared, WellDeclared objectClass)
    (noIdentifier :
      ∀ objectClass ∈ catalog.classes, ∀ attr ∈ objectClass.attributes, attr.name ≠ "id")
    {key name : String}
    {attr : Attribute}
    (visible : catalog.visibleAttribute? key name = some attr)
    (delegated : attr.isDelegated = true) :
    ∃ target acted short long,
      attr.delegatesTo = some target ∧
      attr.actsAs = some acted ∧
      catalog.resolvePath? key attr.name = some short ∧
      catalog.resolvePath? key (target ++ "." ++ acted) = some long ∧
      short.attr = attr ∧
      short.column = long.column ∧
      short.attr.searchType = long.attr.searchType := by
  have settled := settled_of_build
    (fun objectClass isDeclared => (wellDeclared objectClass isDeclared).selfFree) built
  have wellNamed : WellNamed declared catalog := ⟨settled, wellDeclared, noIdentifier⟩
  rcases WellNamed.cases_visibleAttribute? visible with ⟨_, rfl⟩ | ⟨isAttribute, _⟩
  · cases delegated
  rcases mem_attributesOn_iff.mp isAttribute with ⟨owner, inChain, held⟩
  have copySearchable : attr.isSearchable = true := by
    rcases wellNamed.exists_settled (wellNamed.find?_of_mem_chain inChain) with
      ⟨declaration, isDeclared, settled⟩
    exact settled.resolvedTo.isSearchable_of_isDelegated
      (wellDeclared declaration (findClass?_eq_some isDeclared).1) held delegated
  rcases wellNamed.declared_or_isCopy inChain held delegated with
    ⟨original, isDeclared, _, isOriginal⟩ | ⟨target, link, original, isCopy⟩
  · rw [Attribute.isDelegated, ((wellDeclared original isDeclared).unresolved attr isOriginal).1]
      at delegated
    cases delegated
  · rcases isCopy.copied with ⟨relationship, rfl⟩
    rcases Bool.and_eq_true_iff.mp isCopy.copyable with ⟨searchable, single⟩
    have linkVisible : link ∈ attributesOn catalog key :=
      mem_attributesOn_iff.mpr ⟨owner, inChain, ObjectClass.mem_attributes_of_link? isCopy.isLink⟩
    have linkStored : link.isStored = true := by
      rcases wellNamed.exists_linksTo (wellNamed.find?_of_mem_chain inChain) isCopy.isLink with
        ⟨_, stored, _⟩
      exact stored
    cases found : catalog.find? key with
    | none => simp [attributesOn, chain, found] at isAttribute
    | some objectClass =>
        have short := wellNamed.resolvePath?_name found isAttribute copySearchable
        have long := wellNamed.resolvePath?_through found linkVisible
          (Attribute.isSearchable_of_isStored linkStored) isCopy.linksTo.refers
          isCopy.linksTo.found isCopy.visible searchable
        rw [isCopy.linksTo.name] at long
        have sameType :
            (original.delegatedCopy target.key relationship).searchType = original.searchType := by
          have noReference :
              (original.delegatedCopy target.key relationship).isReference = false := rfl
          rw [Bool.not_eq_true'] at single
          rw [Attribute.searchType, Attribute.searchType, noReference, single]
          rfl
        exact ⟨target.key, original.name, _, _, rfl, rfl, short, long, rfl, rfl, sameType⟩

theorem wellDeclared_academy :
    ∀ objectClass ∈ academy, WellDeclared objectClass := by
  simp only [academy, List.mem_cons, List.not_mem_nil, or_false]
  rintro objectClass (rfl | rfl | rfl | rfl)
  all_goals
    refine ⟨⟨?_, ?_, ?_, ?_⟩, ?_, ?_, ?_⟩ <;>
      simp [ObjectClass.declare, ObjectClass.blank, ObjectClass.identityTarget, Attribute.declare,
        Attribute.blank, Attribute.isReference]

/-- The birth of a laureate is that of the person behind the author behind the laureate. -/
theorem laureate_birth_coherent :
    ∃ catalog attr short long,
      Catalog.build academy = .ok catalog ∧
      catalog.visibleAttribute? "laureate" "born" = some attr ∧
      attr.delegatesTo = some "author" ∧
      catalog.resolvePath? "laureate" "born" = some short ∧
      catalog.resolvePath? "laureate" "author.born" = some long ∧
      short.column = "author__person__born" ∧
      short.column = long.column ∧
      short.attr.searchType = long.attr.searchType := by
  have checked : ((Catalog.build academy).toOption.any fun catalog =>
      catalog.classes.all (fun objectClass =>
        objectClass.attributes.all fun attr => attr.name != "id") &&
      (catalog.visibleAttribute? "laureate" "born").any fun attr =>
        attr.isDelegated && attr.name == "born" && attr.delegatesTo == some "author" &&
          attr.actsAs == some "born" &&
          (catalog.resolvePath? "laureate" "born").any fun short =>
            short.column == "author__person__born") = true := by
    decide +kernel
  simp only [Option.any_eq_true, toOption_eq_some_iff, Bool.and_eq_true, List.all_eq_true,
    bne_iff_ne, beq_iff_eq] at checked
  rcases checked with
    ⟨catalog, built, noIdentifier, attr, visible, ⟨⟨⟨delegated, isBorn⟩, toAuthor⟩, asBorn⟩, short,
      resolvesShort, isColumn⟩
  rcases delegation_coherent built wellDeclared_academy noIdentifier visible delegated with
    ⟨target, acted, own, long, isTarget, isActed, resolvesOwn, resolvesLong, _, sameColumn,
      sameType⟩
  cases toAuthor.symm.trans isTarget
  cases asBorn.symm.trans isActed
  rw [isBorn] at resolvesOwn
  cases resolvesShort.symm.trans resolvesOwn
  exact ⟨catalog, attr, short, long, built, visible, toAuthor, resolvesShort, resolvesLong,
    isColumn, sameColumn, sameType⟩

end ClassStore.Catalog
