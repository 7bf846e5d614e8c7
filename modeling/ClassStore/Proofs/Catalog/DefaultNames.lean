import ClassStore.Proofs.Catalog.Chains

/-!
# Default names

A declaration may leave the names of its table, its view, its columns and its
junction tables open.  `DefaultNames` says what these names are in the catalog.
-/

namespace ClassStore.Catalog

/-- The declaration leaves all names open. -/
structure LeavesNames (objectClass : ObjectClass) : Prop where
  table : objectClass.table = ""
  view : objectClass.view = ""
  attributes : ∀ attr ∈ objectClass.attributes, attr.column = none ∧ attr.junction = none

instance (objectClass : ObjectClass) : Decidable (LeavesNames objectClass) :=
  decidable_of_iff
    (objectClass.table = "" ∧ objectClass.view = "" ∧
      ∀ attr ∈ objectClass.attributes, attr.column = none ∧ attr.junction = none)
    ⟨fun ⟨table, view, attributes⟩ => ⟨table, view, attributes⟩,
      fun leavesNames => ⟨leavesNames.table, leavesNames.view, leavesNames.attributes⟩⟩

/-- The junction tables of the class, each with the name of its collection. -/
def ObjectClass.junctions (objectClass : ObjectClass) : List (String × Junction) :=
  objectClass.collections.filterMap fun attr => attr.junction.map fun junction =>
    (attr.name, junction)

theorem ObjectClass.mem_junctions_iff
    {objectClass : ObjectClass}
    {name : String}
    {junction : Junction} :
    (name, junction) ∈ objectClass.junctions ↔
      ∃ attr ∈ objectClass.attributes,
        attr.isCollection = true ∧ attr.name = name ∧ attr.junction = some junction := by
  simp [junctions, collections, and_assoc, and_comm (a := _ = name)]

/-- The names of the collections that are kept in junction tables. -/
def ObjectClass.collectionNames (objectClass : ObjectClass) : List String :=
  objectClass.junctions.map Prod.fst

theorem ObjectClass.collectionNames_sublist (objectClass : ObjectClass) :
    objectClass.collectionNames.Sublist (objectClass.collections.map Attribute.name) := by
  rw [collectionNames, junctions]
  induction objectClass.collections with
  | nil => exact .slnil
  | cons attr collections inductionHypothesis =>
      cases isJunction : attr.junction with
      | none => simpa [isJunction] using inductionHypothesis.cons attr.name
      | some junction => simpa [isJunction] using inductionHypothesis.cons_cons attr.name

/-- The names of a class are those that are chosen for it where none is given. -/
structure DefaultNames (classes : List ObjectClass) (objectClass : ObjectClass) : Prop where
  view : objectClass.view = objectClass.key
  table : objectClass.table = defaultTable (parentOf? classes objectClass) objectClass.key
  reference :
    ∀ attr ∈ objectClass.stored, attr.reference.isSome →
      attr.storageColumn = attr.name ++ "_id"
  junction :
    ∀ name junction, (name, junction) ∈ objectClass.junctions →
      ∃ member, junction = defaultJunction objectClass.key member name
  distinct : objectClass.collectionNames.Nodup

namespace Attribute

theorem column_fixUuid (attr : Attribute) : attr.fixUuid.column = attr.column := by
  rw [fixUuid]
  split <;> rfl

theorem junction_fixUuid (attr : Attribute) : attr.fixUuid.junction = attr.junction := by
  rw [fixUuid]
  split <;> rfl

theorem name_fixUuid (attr : Attribute) : attr.fixUuid.name = attr.name := by
  rw [fixUuid]
  split <;> rfl

/-- The stored column of a reference is named after it. -/
theorem storageColumn_complete
    {attr : Attribute}
    (isOpen : attr.column = none)
    (owner : String)
    (stored : (attr.complete owner).isStored = true)
    (isReference : (attr.complete owner).reference.isSome) :
    (attr.complete owner).storageColumn = attr.name ++ "_id" := by
  rw [complete] at stored isReference ⊢
  split at stored
  · simp [isStored, isOpen] at stored
  · next own =>
      rw [if_neg own] at isReference ⊢
      rw [← column_fixUuid] at isOpen
      rw [← name_fixUuid]
      generalize attr.fixUuid = fixed at isOpen stored isReference ⊢
      cases refers : fixed.reference with
      | none => simp [nameColumns, refers] at isReference
      | some reference =>
          simp only [nameColumns, refers] at stored ⊢
          split at stored
          · simp [isStored] at stored
          · next single =>
              have persistent : fixed.flags.persistent = true := by
                simp only [isStored, Bool.and_eq_true] at stored
                exact stored.1.1
              simp [single, storageColumn, columnOr, persistent, isOpen]

theorem junction_complete
    {attr : Attribute}
    (isOpen : attr.junction = none)
    {owner : String}
    {junction : Junction}
    (isJunction : (attr.complete owner).junction = some junction) :
    ∃ member, junction = defaultJunction owner member attr.name := by
  rw [complete] at isJunction
  split at isJunction
  · simp [isOpen] at isJunction
  · rw [← junction_fixUuid] at isOpen
    rw [← name_fixUuid]
    generalize attr.fixUuid = fixed at isOpen isJunction ⊢
    rw [nameColumns] at isJunction
    split at isJunction
    · simp [isOpen] at isJunction
    · next reference _ =>
        split at isJunction
        · simp only [isOpen, Option.getD_none, Option.some.injEq] at isJunction
          exact ⟨reference.target, isJunction.symm⟩
        · simp [isOpen] at isJunction

end Attribute

/-- What a class is resolved to has the default names if the declaration leaves them open. -/
theorem ResolvedTo.defaultNames
    {classes : List ObjectClass}
    {declared resolved : ObjectClass}
    (resolvedTo : ResolvedTo classes declared resolved)
    (leavesNames : LeavesNames declared) :
    DefaultNames classes resolved := by
  have fromOpen : ∀ attr ∈ resolved.attributes,
      (∃ original : Attribute,
        original.column = none ∧ original.junction = none ∧
          attr = original.complete resolved.key) ∨
      attr.column = none ∧ attr.junction = none := by
    intro attr isAttribute
    rw [resolvedTo.key]
    rcases resolvedTo.cases_attribute isAttribute with
      ⟨target, relationship, _, rfl⟩ | ⟨original, isDeclared, rfl⟩ | isCopy
    · exact .inl ⟨linkAttribute target relationship, rfl, rfl, rfl⟩
    · rcases leavesNames.attributes original isDeclared with ⟨noColumn, noJunction⟩
      exact .inl ⟨original, noColumn, noJunction, rfl⟩
    · rcases mem_delegatedCopies isCopy with ⟨_, _, _, _, _, _, _, _, _, _, rfl⟩
      exact .inr ⟨rfl, rfl⟩
  constructor
  · rw [resolvedTo.view, resolvedTo.key]
    simp [ObjectClass.nameRelations, leavesNames.view]
  · have sameParent : parentOf? classes resolved = parentOf? classes declared := by
      rw [parentOf?, parentOf?, resolvedTo.parent]
    rw [resolvedTo.table, head?_ancestors, resolvedTo.key, sameParent]
    simp [ObjectClass.nameRelations, leavesNames.table]
  · intro attr isStored isReference
    rcases List.mem_filter.mp isStored with ⟨isAttribute, stored⟩
    rcases fromOpen attr isAttribute with ⟨original, noColumn, _, rfl⟩ | ⟨noColumn, _⟩
    · rw [Attribute.storageColumn_complete noColumn resolved.key stored isReference,
        Attribute.name_complete]
    · simp [Attribute.isStored, noColumn] at stored
  · intro name junction isJunction
    rcases ObjectClass.mem_junctions_iff.mp isJunction with
      ⟨attr, isAttribute, _, rfl, hasJunction⟩
    rcases fromOpen attr isAttribute with ⟨original, _, noJunction, rfl⟩ | ⟨_, noJunction⟩
    · rw [Attribute.name_complete]
      exact Attribute.junction_complete noJunction hasJunction
    · simp [noJunction] at hasJunction
  · exact (resolved.collectionNames_sublist.trans (List.filter_sublist.map _)).nodup
      resolvedTo.nodup_names

namespace ResolvedCatalog

variable
    {declared : List ObjectClass}
    {catalog : Catalog}
    (resolvedCatalog : ResolvedCatalog declared catalog)
    (leavesNames : ∀ objectClass ∈ declared, LeavesNames objectClass)

include resolvedCatalog leavesNames

theorem defaultNames
    {key : String}
    {objectClass : ObjectClass}
    (found : catalog.find? key = some objectClass) :
    DefaultNames catalog.classes objectClass := by
  rcases resolvedCatalog.exists_settled found with ⟨declaration, isDeclared, settled⟩
  exact settled.resolvedTo.defaultNames (leavesNames declaration (findClass?_eq_some isDeclared).1)

end ResolvedCatalog

end ClassStore.Catalog
