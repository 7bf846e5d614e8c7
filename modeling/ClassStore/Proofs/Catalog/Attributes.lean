import ClassStore.Proofs.Catalog.Resolved

/-!
# Attributes of resolved classes

Completing an attribute names its columns and leaves the rest as it is, so a
searchable attribute of a class itself is stored.  A class that extends or
mediates another one holds its link as the first of its attributes.
-/

namespace ClassStore.Catalog

/-! ## Completed attributes -/

namespace Attribute

/-- The column of a view that an attribute has if its declaration leaves it open. -/
def openColumn (attr : Attribute) : String :=
  if attr.reference.isSome then attr.name ++ "__id" else attr.name

theorem isSearchable_iff {attr : Attribute} :
    attr.isSearchable = true ↔ attr.flags.persistent = true ∧ attr.isCollection = false := by
  rw [isSearchable, Bool.and_eq_true, Bool.not_eq_true']

theorem isSearchable_of_isStored
    {attr : Attribute}
    (stored : attr.isStored = true) :
    attr.isSearchable = true := by
  simp only [isStored, Bool.and_eq_true, Bool.not_eq_true'] at stored
  exact isSearchable_iff.mpr ⟨stored.1.1, stored.2⟩

@[simp]
theorem isSearchable_complete (owner : String) (attr : Attribute) :
    (attr.complete owner).isSearchable = attr.isSearchable := by
  simp [isSearchable, isCollection]

@[simp]
theorem isSearchable_fixUuid (attr : Attribute) :
    attr.fixUuid.isSearchable = attr.isSearchable := by
  rw [fixUuid]
  split
  · rfl
  · rfl

@[simp]
theorem viewColumn_fixUuid (attr : Attribute) : attr.fixUuid.viewColumn = attr.viewColumn := by
  rw [fixUuid]
  split
  · rfl
  · rfl

theorem isStored_nameColumns
    {attr : Attribute}
    (searchable : attr.isSearchable = true)
    (owner : String) :
    (attr.nameColumns owner).isStored = true := by
  rcases isSearchable_iff.mp searchable with ⟨persistent, single⟩
  have stored : ∀ default viewColumn,
      { attr with column := attr.columnOr default, viewColumn := viewColumn }.isStored = true := by
    intro default viewColumn
    have named : (attr.columnOr default).isSome = true := by
      rw [columnOr, if_pos persistent, Option.isSome_some]
    have noCollection : (!attr.isCollection) = true := by
      rw [single, Bool.not_false]
    exact Bool.and_eq_true_iff.mpr ⟨Bool.and_eq_true_iff.mpr ⟨persistent, named⟩, noCollection⟩
  cases isReference : attr.reference with
  | none =>
      simp only [nameColumns, isReference]
      exact isReference ▸ stored _ _
  | some reference =>
      simp only [nameColumns, isReference, single, Bool.false_eq_true, if_false]
      exact isReference ▸ stored _ _

theorem viewColumn_nameColumns
    {attr : Attribute}
    (openColumn : attr.viewColumn = "")
    (single : attr.isCollection = false)
    (owner : String) :
    (attr.nameColumns owner).viewColumn = (attr.nameColumns owner).openColumn := by
  cases isReference : attr.reference with
  | none => simp [nameColumns, isReference, openColumn, Attribute.openColumn]
  | some reference => simp [nameColumns, isReference, single, Attribute.openColumn]

/-- A searchable attribute of a class itself is stored once it is completed. -/
theorem isStored_complete
    {attr : Attribute}
    (isOwn : attr.isDelegated = false)
    (searchable : attr.isSearchable = true)
    (owner : String) :
    (attr.complete owner).isStored = true := by
  simp only [complete, isOwn, Bool.false_eq_true, if_false]
  exact isStored_nameColumns (by rwa [isSearchable_fixUuid]) owner

/-- A searchable attribute is stored in the open column once it is completed. -/
theorem complete_of_unresolved
    {attr : Attribute}
    (unresolved : attr.delegatesTo = none ∧ attr.viewColumn = "")
    (owner : String)
    (searchable : (attr.complete owner).isSearchable = true) :
    (attr.complete owner).isStored = true ∧
    (attr.complete owner).viewColumn = (attr.complete owner).openColumn := by
  rw [isSearchable_complete] at searchable
  have isOwn : attr.isDelegated = false := by
    simp [isDelegated, unresolved.1]
  have fixedIsSingle : attr.fixUuid.isCollection = false := by
    rw [← isSearchable_fixUuid] at searchable
    exact (isSearchable_iff.mp searchable).2
  constructor
  · exact isStored_complete isOwn searchable owner
  · simp only [complete, isOwn, Bool.false_eq_true, if_false]
    exact viewColumn_nameColumns (by rw [viewColumn_fixUuid, unresolved.2]) fixedIsSingle owner

@[simp]
theorem isDelegated_complete (owner : String) (attr : Attribute) :
    (attr.complete owner).isDelegated = attr.isDelegated := by
  rw [complete, nameColumns, fixUuid]
  repeat' split
  all_goals rfl

@[simp]
theorem type_complete (owner : String) (attr : Attribute) :
    (attr.complete owner).type = attr.type := by
  rw [complete, nameColumns, fixUuid]
  repeat' split
  all_goals rfl

@[simp]
theorem initial_complete (owner : String) (attr : Attribute) :
    (attr.complete owner).initial = attr.initial := by
  rw [complete, nameColumns, fixUuid]
  repeat' split
  all_goals rfl

theorem complete_of_isDelegated
    {attr : Attribute}
    (delegated : attr.isDelegated = true)
    (owner : String) :
    attr.complete owner = attr := by
  rw [complete, if_pos delegated]

end Attribute

theorem mem_storedValues_iff
    {objectClass : ObjectClass}
    {attr : Attribute} :
    attr ∈ objectClass.storedValues ↔
      attr ∈ objectClass.stored ∧ attr.isReference = false := by
  rw [ObjectClass.storedValues, List.mem_filter, Bool.not_eq_true']

/-! ## Links -/

theorem ne_hasMany_of_identityTarget
    {objectClass : ObjectClass}
    {target : String}
    {relationship : Relationship}
    (isTarget : objectClass.identityTarget = some (target, relationship)) :
    relationship ≠ .hasMany := by
  rw [ObjectClass.identityTarget] at isTarget
  split at isTarget
  · cases isTarget
    simp
  · cases isTarget
    simp
  · cases isTarget

/-- The link of a class as the class holds it. -/
def ObjectClass.completedLink (objectClass : ObjectClass) (target : String)
    (relationship : Relationship) : Attribute :=
  (linkAttribute target relationship).complete objectClass.key

namespace ObjectClass

variable
    {objectClass : ObjectClass}
    {target : String}
    {relationship : Relationship}

theorem name_completedLink :
    (objectClass.completedLink target relationship).name = target :=
  Attribute.name_complete _ _

theorem reference_completedLink :
    (objectClass.completedLink target relationship).reference = some ⟨target, .cascade⟩ :=
  Attribute.reference_complete _ _

theorem isDelegated_completedLink :
    (objectClass.completedLink target relationship).isDelegated = false :=
  Attribute.isDelegated_complete _ _

theorem isSearchable_completedLink
    (isTarget : objectClass.identityTarget = some (target, relationship)) :
    (objectClass.completedLink target relationship).isSearchable = true := by
  have single := ne_hasMany_of_identityTarget isTarget
  rw [completedLink, Attribute.isSearchable_iff, Attribute.persistent_complete,
    Attribute.isCollection, Attribute.relationship_complete, beq_eq_false_iff_ne]
  exact ⟨rfl, fun same => single (Option.some.inj same)⟩

theorem isStored_completedLink
    (isTarget : objectClass.identityTarget = some (target, relationship)) :
    (objectClass.completedLink target relationship).isStored = true :=
  (Attribute.complete_of_unresolved ⟨rfl, rfl⟩ objectClass.key
    (isSearchable_completedLink isTarget)).1

theorem viewColumn_completedLink
    (isTarget : objectClass.identityTarget = some (target, relationship)) :
    (objectClass.completedLink target relationship).viewColumn = target ++ "__id" := by
  have column := (Attribute.complete_of_unresolved ⟨rfl, rfl⟩ objectClass.key
    (isSearchable_completedLink isTarget)).2
  rw [completedLink, column, Attribute.openColumn, Attribute.name_complete,
    Attribute.reference_complete]
  rfl

theorem isReference_completedLink
    (isTarget : objectClass.identityTarget = some (target, relationship)) :
    (objectClass.completedLink target relationship).isReference = true := by
  have single := (Attribute.isSearchable_iff.mp (isSearchable_completedLink isTarget)).2
  rw [Attribute.isReference, reference_completedLink, single]
  rfl

end ObjectClass

/-- The link of a class is the first of its attributes. -/
theorem ResolvedTo.link?_eq
    {classes : List ObjectClass}
    {declared resolved : ObjectClass}
    (resolvedTo : ResolvedTo classes declared resolved)
    {target : String}
    {relationship : Relationship}
    (isTarget : declared.identityTarget = some (target, relationship)) :
    resolved.link? = some (declared.completedLink target relationship) := by
  rcases resolvedTo.attributes with ⟨_, _, attributes⟩
  have isLink : ObjectClass.isLinkTo target (declared.completedLink target relationship) = true := by
    rw [ObjectClass.isLinkTo, ObjectClass.isDelegated_completedLink,
      ObjectClass.isReference_completedLink isTarget, ObjectClass.name_completedLink,
      beq_self_eq_true]
    rfl
  have first : declared.ownAttributes =
      declared.completedLink target relationship ::
        declared.attributes.map (Attribute.complete declared.key) := by
    simp [ObjectClass.ownAttributes, ObjectClass.links, isTarget, ObjectClass.completedLink]
  rw [ObjectClass.link?, resolvedTo.identityTarget, isTarget, Option.bind_some, attributes, first,
    List.cons_append]
  exact List.find?_cons_of_pos isLink

theorem ResolvedTo.link?_eq_none
    {classes : List ObjectClass}
    {declared resolved : ObjectClass}
    (resolvedTo : ResolvedTo classes declared resolved)
    (noTarget : declared.identityTarget = none) :
    resolved.link? = none := by
  rw [ObjectClass.link?, resolvedTo.identityTarget, noTarget, Option.bind_none]

/-- The link of a class is stored, has the name of its target and refers to it. -/
theorem ResolvedTo.exists_link
    {classes : List ObjectClass}
    {declared resolved : ObjectClass}
    (resolvedTo : ResolvedTo classes declared resolved)
    {target : String}
    {relationship : Relationship}
    (isTarget : declared.identityTarget = some (target, relationship)) :
    ∃ link ∈ resolved.attributes,
      link.isStored = true ∧ link.name = target ∧
      ∃ reference, link.reference = some reference ∧ reference.target = target := by
  refine ⟨declared.completedLink target relationship, ?_,
    ObjectClass.isStored_completedLink isTarget, ObjectClass.name_completedLink,
    ⟨target, .cascade⟩, ObjectClass.reference_completedLink, rfl⟩
  have isLink := resolvedTo.link?_eq isTarget
  rw [ObjectClass.link?, resolvedTo.identityTarget, isTarget, Option.bind_some] at isLink
  exact List.mem_of_find?_eq_some isLink

end ClassStore.Catalog
