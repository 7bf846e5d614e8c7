import ClassStore.Proofs.Catalog.Attributes
import ClassStore.Proofs.Catalog.Names

/-!
# Columns of views

The columns of a view are collected when a catalog is built; the columns of
paths are found by following references through the finished catalog.  Both
agree: a stored attribute is reached by its name, a column of a referenced view
through the reference, and a copied attribute stands for a column of the view
that its class is linked to.  `exists_resolvePath?_iff` puts the two ways
together along the order of dependencies.
-/

namespace ClassStore.Catalog

/-- A class as builders declare it, with names that can be the segments of a path. -/
structure WellDeclared (objectClass : ObjectClass) : Prop where
  selfFree : SelfFree objectClass
  unresolved :
    ∀ attr ∈ objectClass.attributes, attr.delegatesTo = none ∧ attr.viewColumn = ""
  undotted : ∀ attr ∈ objectClass.attributes, '.' ∉ attr.name.toList
  undottedTarget :
    ∀ target relationship,
      objectClass.identityTarget = some (target, relationship) → '.' ∉ target.toList

/-! ## Columns of single attributes -/

/-- A searchable attribute of a class is stored in its open column, or it is a copy. -/
theorem ResolvedTo.cases_searchable
    {classes : List ObjectClass}
    {declared resolved : ObjectClass}
    (resolvedTo : ResolvedTo classes declared resolved)
    (wellDeclared : WellDeclared declared)
    {attr : Attribute}
    (isAttribute : attr ∈ resolved.attributes)
    (searchable : attr.isSearchable = true) :
    (attr.isStored = true ∧ attr.viewColumn = attr.openColumn ∧ '.' ∉ attr.name.toList) ∨
    attr ∈ delegatedCopies classes declared := by
  rcases resolvedTo.cases_attribute isAttribute with
    ⟨target, relationship, isTarget, rfl⟩ | ⟨original, isDeclared, rfl⟩ | isCopy
  · left
    have unresolved : (linkAttribute target relationship).delegatesTo = none ∧
        (linkAttribute target relationship).viewColumn = "" :=
      ⟨rfl, rfl⟩
    rcases Attribute.complete_of_unresolved unresolved declared.key searchable with
      ⟨stored, column⟩
    refine ⟨stored, column, ?_⟩
    rw [Attribute.name_complete]
    exact wellDeclared.undottedTarget target relationship isTarget
  · left
    rcases Attribute.complete_of_unresolved (wellDeclared.unresolved original isDeclared)
      declared.key searchable with ⟨stored, column⟩
    refine ⟨stored, column, ?_⟩
    rw [Attribute.name_complete]
    exact wellDeclared.undotted original isDeclared
  · exact Or.inr isCopy

/-! ## Classes along a chain -/

theorem eq_or_mem_of_mem_ancestry
    {classes : List ObjectClass}
    {generations : Nat}
    {objectClass member : ObjectClass}
    (isMember : member ∈ ancestry classes generations objectClass) :
    member = objectClass ∨
    ∃ parent,
      parentOf? classes objectClass = some parent ∧
      member ∈ ancestry classes generations parent := by
  cases generations with
  | zero => exact Or.inl (List.mem_singleton.mp isMember)
  | succ generations =>
      rw [ancestry] at isMember
      rcases List.mem_cons.mp isMember with same | isAncestor
      · exact Or.inl same
      · cases isParent : parentOf? classes objectClass with
        | none => simp [isParent] at isAncestor
        | some parent =>
            simp only [isParent] at isAncestor
            exact Or.inr ⟨parent, rfl, mem_ancestry_mono (Nat.le_succ _) isAncestor⟩

namespace ResolvedCatalog

variable
    {declared : List ObjectClass}
    {catalog : Catalog}

theorem mem_chain_iff
    {key : String}
    {objectClass member : ObjectClass}
    (found : catalog.find? key = some objectClass) :
    member ∈ catalog.chain key ↔
      member ∈ ancestry catalog.classes catalog.classes.length objectClass := by
  rw [← List.mem_reverse, reverse_chain found]

/--
What passes to a class from the chains of all classes that it needs is true of
every class along a chain.
-/
theorem induction_chain
    (resolvedCatalog : ResolvedCatalog declared catalog)
    {motive : ObjectClass → Prop}
    (step :
      ∀ original objectClass,
        original ∈ declared →
        Settled catalog.classes catalog.columns catalog.order original objectClass →
        (∀ target, target ∈ original.prerequisites →
          ∀ member ∈ catalog.chain target, motive member) →
        motive objectClass)
    {key : String}
    {member : ObjectClass}
    (inChain : member ∈ catalog.chain key) :
    motive member := by
  cases found : catalog.find? key with
  | none => simp [chain, found] at inChain
  | some objectClass =>
      have everyMember : ∀ member ∈ catalog.chain key, motive member := by
        apply resolvedCatalog.induction (motive := fun key =>
          ∀ member ∈ catalog.chain key, motive member) _ found
        intro key original objectClass isDeclared found settled needs member inChain
        rcases findClass?_eq_some isDeclared with ⟨inDeclared, rfl⟩
        rcases eq_or_mem_of_mem_ancestry ((mem_chain_iff found).mp inChain) with
          rfl | ⟨parent, isParent, isAncestor⟩
        · exact step original member inDeclared settled needs
        · rcases Option.bind_eq_some_iff.mp isParent with ⟨target, isTarget, foundParent⟩
          have needed : target ∈ original.prerequisites := by
            apply settled.parent_mem_prerequisites
            rwa [← settled.resolvedTo.parent]
          exact needs target needed member ((mem_chain_iff foundParent).mpr isAncestor)
      exact everyMember member inChain

/-- Every class along a chain is a class of the catalog. -/
theorem find?_of_mem_chain
    (resolvedCatalog : ResolvedCatalog declared catalog)
    {key : String}
    {member : ObjectClass}
    (inChain : member ∈ catalog.chain key) :
    catalog.find? member.key = some member := by
  apply resolvedCatalog.induction_chain (motive := fun member =>
    catalog.find? member.key = some member) _ inChain
  intro original objectClass _ settled _
  rw [settled.resolvedTo.key]
  exact settled.found

end ResolvedCatalog

/-! ## Columns of a view -/

theorem mem_columnsOfAttribute_iff
    {catalog : Catalog}
    {attr : Attribute}
    {column : String} :
    column ∈ columnsOfAttribute catalog.columns attr ↔
      column = attr.viewColumn ∨
      ∃ reference inner,
        attr.reference = some reference ∧
        inner ∈ catalog.viewColumns reference.target ∧
        inner ≠ "id" ∧
        column = attr.name ++ "__" ++ inner := by
  rw [columnsOfAttribute]
  cases isReference : attr.reference with
  | none => simp
  | some reference =>
      simp only [List.mem_cons, List.mem_map, List.mem_filter, bne_iff_ne, Option.some.injEq,
        exists_and_left, exists_eq_left', viewColumns]
      constructor
      · rintro (same | ⟨inner, ⟨isColumn, ordinary⟩, rfl⟩)
        · exact Or.inl same
        · exact Or.inr ⟨inner, isColumn, ordinary, rfl⟩
      · rintro (same | ⟨inner, isColumn, ordinary, rfl⟩)
        · exact Or.inl same
        · exact Or.inr ⟨inner, ⟨isColumn, ordinary⟩, rfl⟩

/-- The columns collected for a view are the identifier and those of the attributes stored. -/
theorem mem_flattenColumns_iff
    {catalog : Catalog}
    {columns : List (String × List String)}
    {key : String}
    {objectClass : ObjectClass}
    (found : catalog.find? key = some objectClass)
    {column : String} :
    column ∈ flattenColumns catalog.classes columns objectClass ↔
      column = "id" ∨
      ∃ attr ∈ attributesOn catalog key,
        attr.isStored = true ∧ column ∈ columnsOfAttribute columns attr := by
  have sameChain : catalog.chain key = chainOf catalog.classes objectClass := by
    rw [chain, found]
  rw [flattenColumns, List.mem_cons, List.mem_flatMap, ← sameChain]
  simp only [List.mem_flatMap, ObjectClass.stored, List.mem_filter, mem_attributesOn_iff]
  constructor
  · rintro (same | ⟨attr, ⟨member, inChain, isAttribute, stored⟩, ofAttribute⟩)
    · exact Or.inl same
    · exact Or.inr ⟨attr, ⟨member, inChain, isAttribute⟩, stored, ofAttribute⟩
  · rintro (same | ⟨attr, ⟨member, inChain, isAttribute⟩, stored, ofAttribute⟩)
    · exact Or.inl same
    · exact Or.inr ⟨attr, ⟨member, inChain, isAttribute, stored⟩, ofAttribute⟩

namespace ResolvedCatalog

variable
    {declared : List ObjectClass}
    {catalog : Catalog}

/-- The column of every attribute stored along a chain is one of the view. -/
theorem mem_viewColumns_of_isStored
    (resolvedCatalog : ResolvedCatalog declared catalog)
    {key : String}
    {attr : Attribute}
    (isAttribute : attr ∈ attributesOn catalog key)
    (stored : attr.isStored = true) :
    attr.viewColumn ∈ catalog.viewColumns key := by
  cases found : catalog.find? key with
  | none => simp [attributesOn, chain, found] at isAttribute
  | some objectClass =>
      rcases resolvedCatalog.exists_settled found with ⟨original, isDeclared, settled⟩
      rcases settled.columns with ⟨known, isKnown, _⟩
      rw [(findClass?_eq_some isDeclared).2] at isKnown
      rw [viewColumns, isKnown, Option.getD_some, mem_flattenColumns_iff found]
      exact Or.inr ⟨attr, isAttribute, stored, List.mem_cons_self⟩

theorem known_iff
    (resolvedCatalog : ResolvedCatalog declared catalog)
    {key : String} :
    (catalog.find? key).isSome ↔ (findClass? declared key).isSome := by
  rw [Catalog.find?, isSome_findClass?, isSome_findClass?, resolvedCatalog.resolving.sameKeys]

theorem viewColumns_eq_nil_of_unknown
    (resolvedCatalog : ResolvedCatalog declared catalog)
    {key : String}
    (unknown : catalog.find? key = none) :
    catalog.viewColumns key = [] := by
  have outside : key ∉ catalog.order := by
    intro inOrder
    have known := resolvedCatalog.known_iff.mpr (resolvedCatalog.isOrdered.known key inOrder)
    rw [unknown] at known
    cases known
  rw [viewColumns, resolvedCatalog.resolving.blank key outside]
  rfl

end ResolvedCatalog

namespace SettledCatalog

variable
    {declared : List ObjectClass}
    {catalog : Catalog}

/-- The columns of a view are those that are collected from the finished catalog. -/
theorem viewColumns_eq
    (settledCatalog : SettledCatalog declared catalog)
    {key : String}
    {objectClass : ObjectClass}
    (found : catalog.find? key = some objectClass) :
    catalog.viewColumns key = flattenColumns catalog.classes catalog.columns objectClass := by
  rcases settledCatalog.exists_settled found with ⟨original, isDeclared, settled⟩
  rcases findClass?_eq_some isDeclared with ⟨inDeclared, sameKey⟩
  rcases settled.columns with ⟨known, isKnown, current⟩
  rw [sameKey, current (settledCatalog.selfFree original inDeclared)] at isKnown
  rw [viewColumns, isKnown, Option.getD_some]

/-- The columns of a view are the identifier and those of the attributes stored along a chain. -/
theorem mem_viewColumns_iff
    (settledCatalog : SettledCatalog declared catalog)
    {key : String}
    {objectClass : ObjectClass}
    (found : catalog.find? key = some objectClass)
    {column : String} :
    column ∈ catalog.viewColumns key ↔
      column = "id" ∨
      ∃ attr ∈ attributesOn catalog key,
        attr.isStored = true ∧ column ∈ columnsOfAttribute catalog.columns attr := by
  rw [settledCatalog.viewColumns_eq found, mem_flattenColumns_iff found]

/-- What passes to a class from the targets of its stored references is true of every class. -/
theorem induction_references
    (settledCatalog : SettledCatalog declared catalog)
    {motive : String → Prop}
    (step :
      ∀ key,
        (∀ member ∈ catalog.chain key, ∀ attr ∈ member.attributes, attr.isStored = true →
          ∀ reference, attr.reference = some reference → motive reference.target) →
        motive key)
    (key : String) :
    motive key := by
  apply step key
  intro member inChain
  apply settledCatalog.induction_chain (motive := fun member =>
    ∀ attr ∈ member.attributes, attr.isStored = true →
      ∀ reference, attr.reference = some reference → motive reference.target) _ inChain
  intro original resolved inDeclared settled needs attr isAttribute stored reference isReference
  have within := (settledCatalog.selfFree original inDeclared).within fun _ => id
  have needed : reference.target ∈ original.prerequisites :=
    (settled.resolvedTo.within within).references attr isAttribute
      (isReference_of_isStored stored isReference) reference isReference
  exact step reference.target (needs reference.target needed)

/-- The columns of a view that a stored attribute refers to are columns behind its name. -/
theorem append_mem_viewColumns
    (settledCatalog : SettledCatalog declared catalog)
    {key : String}
    {objectClass : ObjectClass}
    (found : catalog.find? key = some objectClass)
    {attr : Attribute}
    (isAttribute : attr ∈ catalog.attributesOn key)
    (stored : attr.isStored = true)
    {reference : Reference}
    (isReference : attr.reference = some reference)
    (viewColumn : attr.viewColumn = attr.name ++ "__id")
    {inner : String}
    (isColumn : inner ∈ catalog.viewColumns reference.target) :
    attr.name ++ "__" ++ inner ∈ catalog.viewColumns key := by
  rw [settledCatalog.mem_viewColumns_iff found]
  refine Or.inr ⟨attr, isAttribute, stored, ?_⟩
  rw [mem_columnsOfAttribute_iff]
  by_cases identifier : inner = "id"
  · left
    rw [viewColumn, identifier, String.append_assoc]
    rfl
  · exact Or.inr ⟨reference, inner, isReference, isColumn, identifier, rfl⟩

end SettledCatalog

/-- A catalog of well declared classes in which no attribute has the name of the identifier. -/
structure WellNamed (declared : List ObjectClass) (catalog : Catalog) : Prop
    extends SettledCatalog declared catalog where
  wellDeclared : ∀ objectClass ∈ declared, WellDeclared objectClass
  noIdentifier :
    ∀ objectClass ∈ catalog.classes, ∀ attr ∈ objectClass.attributes, attr.name ≠ "id"

namespace WellNamed

variable
    {declared : List ObjectClass}
    {catalog : Catalog}

theorem joined_ne_id (front back : String) : front ++ "__" ++ back ≠ "id" := by
  intro same
  have characters := congrArg (fun text => '_' ∈ text.toList) same
  simp at characters

/-- No attribute that can be copied has the column of the identifier. -/
theorem viewColumn_ne_id
    (wellNamed : WellNamed declared catalog)
    {key : String}
    {objectClass : ObjectClass}
    (found : catalog.find? key = some objectClass)
    {attr : Attribute}
    (isAttribute : attr ∈ objectClass.attributes)
    (copyable : attr.isCopyable = true) :
    attr.viewColumn ≠ "id" := by
  rcases wellNamed.exists_settled found with ⟨original, isDeclared, settled⟩
  have resolvedTo := settled.resolvedTo
  simp only [Attribute.isCopyable, Bool.and_eq_true, Bool.not_eq_true'] at copyable
  have wellDeclared := wellNamed.wellDeclared original (findClass?_eq_some isDeclared).1
  rcases resolvedTo.cases_searchable wellDeclared isAttribute copyable.1 with
    ⟨stored, column, _⟩ | isCopy
  · have noReference : attr.reference = none := by
      have single := (Attribute.isSearchable_iff.mp copyable.1).2
      simpa [Attribute.isReference, single] using copyable.2
    rw [column, Attribute.openColumn, noReference]
    exact wellNamed.noIdentifier objectClass (findClass?_eq_some found).1 attr isAttribute
  · rcases mem_delegatedCopies isCopy with ⟨target, _, _, _, copied, _, _, _, _, _, rfl⟩
    exact joined_ne_id target copied.viewColumn

/-- The column of a searchable attribute is one of those that its class adds to views. -/
theorem viewColumn_mem_columnsOfAttribute
    (wellNamed : WellNamed declared catalog)
    {key : String}
    {member : ObjectClass}
    (inChain : member ∈ catalog.chain key) :
    ∀ attr ∈ member.attributes, attr.isSearchable = true →
      ∃ stored ∈ member.attributes,
        stored.isStored = true ∧
        attr.viewColumn ∈ columnsOfAttribute catalog.columns stored := by
  apply wellNamed.induction_chain (motive := fun member =>
    ∀ attr ∈ member.attributes, attr.isSearchable = true →
      ∃ stored ∈ member.attributes,
        stored.isStored = true ∧
        attr.viewColumn ∈ columnsOfAttribute catalog.columns stored) _ inChain
  intro original objectClass inDeclared settled needs attr isAttribute searchable
  have resolvedTo := settled.resolvedTo
  rcases resolvedTo.cases_searchable (wellNamed.wellDeclared original inDeclared) isAttribute
      searchable with
    ⟨stored, _, _⟩ | isCopy
  · exact ⟨attr, isAttribute, stored, List.mem_cons_self⟩
  · rcases mem_delegatedCopies isCopy with
      ⟨target, relationship, targetClass, owner, copied, isTarget, found, inTargetChain,
        ofOwner, copyable, rfl⟩
    have needed : target ∈ original.prerequisites :=
      ((wellNamed.selfFree original inDeclared).within fun _ => id).identityTarget
        target relationship isTarget
    have foundTarget : catalog.find? target = some targetClass := found
    have inChain : owner ∈ catalog.chain target := by
      rw [chain, foundTarget]
      exact inTargetChain
    have copiedSearchable : copied.isSearchable = true := by
      simp only [Attribute.isCopyable, Bool.and_eq_true] at copyable
      exact copyable.1
    have isColumn : copied.viewColumn ∈ catalog.viewColumns target := by
      rcases needs target needed owner inChain copied ofOwner copiedSearchable with
        ⟨stored, isStoredAttribute, stored', column⟩
      rw [wellNamed.mem_viewColumns_iff foundTarget]
      exact Or.inr ⟨stored, mem_attributesOn_iff.mpr ⟨owner, inChain, isStoredAttribute⟩,
        stored', column⟩
    have ordinary := wellNamed.viewColumn_ne_id
      (wellNamed.find?_of_mem_chain inChain) ofOwner copyable
    rcases resolvedTo.exists_link isTarget with
      ⟨link, isLink, stored, name, reference, isReference, sameTarget⟩
    refine ⟨link, isLink, stored, ?_⟩
    rw [mem_columnsOfAttribute_iff]
    right
    refine ⟨reference, copied.viewColumn, isReference, ?_, ordinary, ?_⟩
    · rwa [sameTarget]
    · rw [name]
      rfl

/-- Every searchable attribute that is visible on a class has a column of its view. -/
theorem viewColumn_mem_viewColumns
    (wellNamed : WellNamed declared catalog)
    {key : String}
    {objectClass : ObjectClass}
    (found : catalog.find? key = some objectClass)
    {attr : Attribute}
    (isAttribute : attr ∈ attributesOn catalog key)
    (searchable : attr.isSearchable = true) :
    attr.viewColumn ∈ catalog.viewColumns key := by
  rcases mem_attributesOn_iff.mp isAttribute with ⟨member, inChain, ofMember⟩
  rcases wellNamed.viewColumn_mem_columnsOfAttribute inChain attr
      ofMember searchable with
    ⟨stored, isStoredAttribute, isStored, column⟩
  rw [wellNamed.mem_viewColumns_iff found]
  exact Or.inr ⟨stored, mem_attributesOn_iff.mpr ⟨member, inChain, isStoredAttribute⟩, isStored,
    column⟩

/-! ## From paths to columns -/

theorem cases_visibleAttribute?
    {key name : String}
    {attr : Attribute}
    (visible : catalog.visibleAttribute? key name = some attr) :
    (name = "id" ∧ attr = Attribute.identifier) ∨
    (attr ∈ attributesOn catalog key ∧ attr.name = name) := by
  by_cases identifier : name = "id"
  · left
    rw [visibleAttribute?, if_pos identifier, Option.map_eq_some_iff] at visible
    rcases visible with ⟨_, _, same⟩
    exact ⟨identifier, same.symm⟩
  · right
    rw [ResolvedCatalog.visibleAttribute?_eq_find? catalog key identifier] at visible
    exact ⟨List.mem_of_find?_eq_some visible, by simpa using List.find?_some visible⟩

/-- A searchable attribute with a reference is no copy, so it has its open column. -/
theorem viewColumn_of_reference
    (wellNamed : WellNamed declared catalog)
    {key : String}
    {attr : Attribute}
    (isAttribute : attr ∈ attributesOn catalog key)
    (searchable : attr.isSearchable = true)
    {reference : Reference}
    (isReference : attr.reference = some reference) :
    attr.isStored = true ∧ attr.viewColumn = attr.name ++ "__id" := by
  rcases mem_attributesOn_iff.mp isAttribute with ⟨member, inChain, ofMember⟩
  rcases wellNamed.exists_settled (wellNamed.find?_of_mem_chain inChain) with
    ⟨original, isDeclared, settled⟩
  rcases settled.resolvedTo.cases_searchable
      (wellNamed.wellDeclared original (findClass?_eq_some isDeclared).1) ofMember searchable with
    ⟨stored, column, _⟩ | isCopy
  · refine ⟨stored, ?_⟩
    rw [column, Attribute.openColumn, isReference]
    rfl
  · rcases mem_delegatedCopies isCopy with ⟨_, _, _, _, _, _, _, _, _, _, rfl⟩
    cases isReference

/-- The columns of a view that an attribute refers to are columns behind its name. -/
theorem append_mem_viewColumns
    (wellNamed : WellNamed declared catalog)
    {objectClass : ObjectClass}
    (found : catalog.find? objectClass.key = some objectClass)
    {attr : Attribute}
    (isAttribute : attr ∈ catalog.attributesOn objectClass.key)
    (searchable : attr.isSearchable = true)
    {reference : Reference}
    (isReference : attr.reference = some reference)
    {inner : String}
    (isColumn : inner ∈ catalog.viewColumns reference.target) :
    attr.name ++ "__" ++ inner ∈ catalog.viewColumns objectClass.key := by
  rcases wellNamed.viewColumn_of_reference isAttribute searchable isReference with
    ⟨stored, viewColumn⟩
  exact wellNamed.toSettledCatalog.append_mem_viewColumns found isAttribute stored isReference
    viewColumn isColumn

/-- The segments of a path lead to a column of the view, behind what is in front already. -/
theorem exists_mem_viewColumns
    (wellNamed : WellNamed declared catalog)
    {front : String}
    {objectClass : ObjectClass}
    (found : catalog.find? objectClass.key = some objectClass)
    {segments : List String}
    {resolved : ResolvedPath}
    (resolves : catalog.resolveSegments front objectClass segments = some resolved) :
    ∃ column ∈ catalog.viewColumns objectClass.key, resolved.column = front ++ column := by
  induction segments generalizing front objectClass with
  | nil => cases resolves
  | cons segment segments inductionHypothesis =>
      cases segments with
      | nil =>
          rw [resolveSegments] at resolves
          rcases Option.bind_eq_some_iff.mp resolves with ⟨attr, visible, last⟩
          split at last
          · next searchable =>
              cases last
              refine ⟨attr.viewColumn, ?_, rfl⟩
              rcases cases_visibleAttribute? visible with ⟨_, rfl⟩ | ⟨isAttribute, _⟩
              · exact (wellNamed.mem_viewColumns_iff found).mpr (Or.inl rfl)
              · exact wellNamed.viewColumn_mem_viewColumns found
                  isAttribute searchable
          · cases last
      | cons following segments =>
          rw [resolveSegments] at resolves
          · rcases Option.bind_eq_some_iff.mp resolves with ⟨attr, visible, rest⟩
            split at rest
            · next searchable =>
                rcases Option.bind_eq_some_iff.mp rest with ⟨reference, isReference, rest⟩
                rcases Option.bind_eq_some_iff.mp rest with ⟨target, foundTarget, rest⟩
                have sameKey : target.key = reference.target :=
                  (findClass?_eq_some foundTarget).2
                rcases inductionHypothesis (by rw [sameKey]; exact foundTarget) rest with
                  ⟨inner, isColumn, column⟩
                rcases cases_visibleAttribute? visible with ⟨_, rfl⟩ | ⟨isAttribute, _⟩
                · cases isReference
                · rw [sameKey] at isColumn
                  refine ⟨attr.name ++ "__" ++ inner, ?_, ?_⟩
                  · exact wellNamed.append_mem_viewColumns found isAttribute searchable isReference
                      isColumn
                  · rw [column]
                    simp [String.append_assoc]
            · cases rest
          · simp

/-! ## From columns to paths -/

/-- Some segments without points lead from the class under a key to the column. -/
def Reaches (catalog : Catalog) (key column : String) : Prop :=
  ∃ objectClass segments,
    catalog.find? key = some objectClass ∧
    segments ≠ [] ∧
    (∀ segment ∈ segments, '.' ∉ segment.toList) ∧
    ∀ front, ∃ attr,
      catalog.resolveSegments front objectClass segments = some ⟨front ++ column, attr⟩

theorem reaches_identifier
    {key : String}
    {objectClass : ObjectClass}
    (found : catalog.find? key = some objectClass) :
    Reaches catalog key "id" := by
  refine ⟨objectClass, ["id"], found, List.cons_ne_nil _ _, by decide, ?_⟩
  intro front
  have sameKey : objectClass.key = key := (findClass?_eq_some found).2
  have visible : catalog.visibleAttribute? objectClass.key "id" = some .identifier := by
    rw [visibleAttribute?, if_pos rfl, sameKey, found]
    rfl
  refine ⟨.identifier, ?_⟩
  rw [resolveSegments, visible]
  rfl

/-- The name of a searchable attribute has no point, also where the attribute is a copy. -/
theorem undotted_of_mem_chain
    (wellNamed : WellNamed declared catalog)
    {key : String}
    {member : ObjectClass}
    (inChain : member ∈ catalog.chain key) :
    ∀ attr ∈ member.attributes, attr.isSearchable = true → '.' ∉ attr.name.toList := by
  apply wellNamed.induction_chain (motive := fun member =>
    ∀ attr ∈ member.attributes, attr.isSearchable = true → '.' ∉ attr.name.toList) _ inChain
  intro original objectClass inDeclared settled needs attr isAttribute searchable
  rcases settled.resolvedTo.cases_searchable (wellNamed.wellDeclared original inDeclared)
      isAttribute searchable with
    ⟨_, _, undotted⟩ | isCopy
  · exact undotted
  · rcases mem_delegatedCopies isCopy with
      ⟨target, relationship, targetClass, owner, copied, isTarget, found, inTargetChain, ofOwner,
        copyable, rfl⟩
    have needed : target ∈ original.prerequisites :=
      ((wellNamed.selfFree original inDeclared).within fun _ => id).identityTarget
        target relationship isTarget
    have inChain : owner ∈ catalog.chain target := by
      rw [chain, Catalog.find?, found]
      exact inTargetChain
    exact needs target needed owner inChain copied ofOwner (Bool.and_eq_true_iff.mp copyable).1

/-- A searchable attribute along the chain of a class is visible and can be named in a path. -/
theorem visible_of_isSearchable
    (wellNamed : WellNamed declared catalog)
    {key : String}
    {attr : Attribute}
    (isAttribute : attr ∈ attributesOn catalog key)
    (searchable : attr.isSearchable = true) :
    catalog.visibleAttribute? key attr.name = some attr ∧ '.' ∉ attr.name.toList := by
  rcases mem_attributesOn_iff.mp isAttribute with ⟨member, inChain, ofMember⟩
  have isClass := (findClass?_eq_some (wellNamed.find?_of_mem_chain inChain)).1
  exact ⟨wellNamed.visibleAttribute?_of_mem isAttribute
      (wellNamed.noIdentifier member isClass attr ofMember),
    wellNamed.undotted_of_mem_chain inChain attr ofMember searchable⟩

/-- A stored attribute is reached by its name. -/
theorem reaches_viewColumn
    (wellNamed : WellNamed declared catalog)
    {key : String}
    {objectClass : ObjectClass}
    (found : catalog.find? key = some objectClass)
    {attr : Attribute}
    (isAttribute : attr ∈ attributesOn catalog key)
    (stored : attr.isStored = true) :
    Reaches catalog key attr.viewColumn := by
  rcases wellNamed.visible_of_isSearchable isAttribute
      (Attribute.isSearchable_of_isStored stored) with
    ⟨visible, undotted⟩
  refine ⟨objectClass, [attr.name], found, List.cons_ne_nil _ _, by simpa using undotted, ?_⟩
  intro front
  refine ⟨attr, ?_⟩
  rw [resolveSegments, (findClass?_eq_some found).2, visible]
  exact if_pos (Attribute.isSearchable_of_isStored stored)

/-- What is reached from a referenced class is reached through the reference. -/
theorem reaches_inner
    (wellNamed : WellNamed declared catalog)
    {key : String}
    {objectClass : ObjectClass}
    (found : catalog.find? key = some objectClass)
    {attr : Attribute}
    (isAttribute : attr ∈ attributesOn catalog key)
    (stored : attr.isStored = true)
    {reference : Reference}
    (isReference : attr.reference = some reference)
    {inner : String}
    (reaches : Reaches catalog reference.target inner) :
    Reaches catalog key (attr.name ++ "__" ++ inner) := by
  rcases wellNamed.visible_of_isSearchable isAttribute
      (Attribute.isSearchable_of_isStored stored) with
    ⟨visible, undotted⟩
  rcases reaches with ⟨target, segments, foundTarget, nonempty, undottedSegments, resolves⟩
  refine ⟨objectClass, attr.name :: segments, found, List.cons_ne_nil _ _, ?_, ?_⟩
  · intro segment isSegment
    rcases List.mem_cons.mp isSegment with rfl | later
    · exact undotted
    · exact undottedSegments segment later
  · intro front
    rcases resolves (front ++ attr.name ++ "__") with ⟨last, resolved⟩
    refine ⟨last, ?_⟩
    rw [resolveSegments, (findClass?_eq_some found).2, visible]
    · simp only [Option.bind_eq_bind, Option.bind_some,
        Attribute.isSearchable_of_isStored stored, if_true, isReference, foundTarget, resolved]
      simp [String.append_assoc]
    · exact nonempty

/-- Every column of a referenced view is reached from the referenced class. -/
theorem reaches_of_reference
    (wellNamed : WellNamed declared catalog)
    {key : String}
    {objectClass : ObjectClass}
    (found : catalog.find? key = some objectClass)
    (referenced :
      ∀ member ∈ catalog.chain key, ∀ attr ∈ member.attributes, attr.isStored = true →
        ∀ reference, attr.reference = some reference →
          ∀ column ∈ catalog.viewColumns reference.target,
            Reaches catalog reference.target column)
    {column : String}
    (isColumn : column ∈ catalog.viewColumns key) :
    Reaches catalog key column := by
  rcases (wellNamed.mem_viewColumns_iff found).mp isColumn with
    rfl | ⟨attr, isAttribute, stored, ofAttribute⟩
  · exact reaches_identifier found
  · rcases mem_columnsOfAttribute_iff.mp ofAttribute with
      rfl | ⟨reference, inner, isReference, isInner, _, rfl⟩
    · exact wellNamed.reaches_viewColumn found isAttribute stored
    · rcases mem_attributesOn_iff.mp isAttribute with ⟨member, inChain, ofMember⟩
      exact wellNamed.reaches_inner found isAttribute stored
        isReference (referenced member inChain attr ofMember stored reference isReference inner
          isInner)

/-- Every column of a view is reached from its class. -/
theorem reaches_of_mem_viewColumns
    (wellNamed : WellNamed declared catalog)
    {key column : String}
    (isColumn : column ∈ catalog.viewColumns key) :
    Reaches catalog key column := by
  apply wellNamed.induction_references (motive := fun key =>
    ∀ column ∈ catalog.viewColumns key, Reaches catalog key column) _ key column isColumn
  intro key referenced column isColumn
  cases found : catalog.find? key with
  | none =>
      rw [wellNamed.viewColumns_eq_nil_of_unknown found] at isColumn
      cases isColumn
  | some objectClass => exact wellNamed.reaches_of_reference found referenced isColumn

/-- The columns of the paths on a class are the columns of its view. -/
theorem exists_resolvePath?_iff
    (wellNamed : WellNamed declared catalog)
    (key column : String) :
    (∃ path resolved,
      catalog.resolvePath? key path = some resolved ∧ resolved.column = column) ↔
    column ∈ catalog.viewColumns key := by
  constructor
  · rintro ⟨path, resolved, resolves, rfl⟩
    rcases Option.bind_eq_some_iff.mp resolves with ⟨objectClass, found, segments⟩
    have sameKey : objectClass.key = key := (findClass?_eq_some found).2
    rcases wellNamed.exists_mem_viewColumns
        (by rw [sameKey]; exact found) segments with
      ⟨column, isColumn, same⟩
    rw [same, String.empty_append, ← sameKey]
    exact isColumn
  · intro isColumn
    rcases wellNamed.reaches_of_mem_viewColumns isColumn with
      ⟨objectClass, segments, found, nonempty, undotted, resolves⟩
    rcases resolves "" with ⟨attr, resolved⟩
    refine ⟨String.intercalate "." segments, ⟨column, attr⟩, ?_, rfl⟩
    have split : pathSegments (String.intercalate "." segments) = segments :=
      Text.fields_intercalate nonempty undotted
    rw [resolvePath?, found, Option.bind_some, split, resolved, String.empty_append]

end WellNamed

/-- Books are written by authors, and an author is a person with a pen name. -/
def library : List ObjectClass :=
  [{ ObjectClass.declare "book" with
      attributes :=
        [Attribute.declare "title" .string, Attribute.declare "printed" .datetime,
          (Attribute.declare "author" .whole).referringTo "author" .restrict] },
    { ObjectClass.declare "author" with
      extended := some "person"
      attributes := [Attribute.declare "pen" .string] },
    { ObjectClass.declare "person" with
      attributes := [Attribute.declare "name" .string] }]

theorem wellDeclared_library :
    ∀ objectClass ∈ library, WellDeclared objectClass := by
  simp only [library, List.mem_cons, List.not_mem_nil, or_false]
  rintro objectClass (rfl | rfl | rfl)
  · constructor
    · constructor <;> simp [ObjectClass.declare, ObjectClass.blank, Attribute.declare,
        Attribute.blank, Attribute.referringTo]
    · simp [Attribute.declare, Attribute.blank, Attribute.referringTo]
    · simp [Attribute.declare, Attribute.referringTo]
    · simp [ObjectClass.declare, ObjectClass.blank, ObjectClass.identityTarget]
  · constructor
    · constructor <;> simp [ObjectClass.declare, ObjectClass.blank, Attribute.declare,
        Attribute.blank, Attribute.isReference]
    · simp [Attribute.declare, Attribute.blank]
    · simp [Attribute.declare]
    · simp [ObjectClass.identityTarget]
  · constructor
    · constructor <;> simp [ObjectClass.declare, ObjectClass.blank, Attribute.declare,
        Attribute.blank, Attribute.isReference]
    · simp [Attribute.declare, Attribute.blank]
    · simp [Attribute.declare]
    · simp [ObjectClass.declare, ObjectClass.blank, ObjectClass.identityTarget]

/-- The library is a catalog whose classes can be searched by all columns of their views. -/
theorem exists_wellNamed_library :
    ∃ catalog,
      Catalog.build library = .ok catalog ∧
      WellNamed library catalog ∧
      catalog.viewColumns "book" =
        ["id", "title", "printed", "author__id", "author__person__id", "author__person__name",
          "author__pen"] := by
  have checked : (match Catalog.build library with
      | .ok catalog =>
          catalog.classes.all (fun objectClass =>
            objectClass.attributes.all fun attr => attr.name != "id") &&
          catalog.viewColumns "book" ==
            ["id", "title", "printed", "author__id", "author__person__id",
              "author__person__name", "author__pen"]
      | .error _ => false) = true := by
    decide +kernel
  cases built : Catalog.build library with
  | error error =>
      rw [built] at checked
      cases checked
  | ok catalog =>
      rw [built] at checked
      simp only [Bool.and_eq_true, List.all_eq_true, bne_iff_ne, beq_iff_eq] at checked
      have settled := settled_of_build
        (fun objectClass isDeclared => (wellDeclared_library objectClass isDeclared).selfFree) built
      exact ⟨catalog, rfl, ⟨settled, wellDeclared_library, checked.1⟩, checked.2⟩

end ClassStore.Catalog
