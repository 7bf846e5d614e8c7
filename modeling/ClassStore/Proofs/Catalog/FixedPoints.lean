import ClassStore.Proofs.Catalog.Attributes

/-!
# Resolving a resolved class

What resolution fills in is not filled in again: names of columns, junction tables, tables
and views that have been chosen are kept, and completing an attribute twice is completing
it once (`complete_complete`).  A class that shares the identity of no other one is
therefore a fixed point of its own resolution (`resolveClass_eq_self`).

The link is the one step that is not repeated.  A class that has its link is refused one
more, before anything else of it is looked at (`resolveClass_eq_error`).
-/

namespace ClassStore.Catalog

/-! ## Attributes -/

namespace Attribute

variable
    {attr : Attribute}

/-- A column that has been chosen is chosen again. -/
theorem columnOr_of_columnOr
    {named : Attribute}
    {default : String}
    (persistent : named.flags.persistent = attr.flags.persistent)
    (column : named.column = attr.columnOr default) :
    named.columnOr default = attr.columnOr default := by
  rw [columnOr, columnOr, persistent, column, columnOr]
  split <;> simp

/-- Columns and a junction table that have been chosen are kept. -/
theorem nameColumns_nameColumns (owner : String) (attr : Attribute) :
    (attr.nameColumns owner).nameColumns owner = attr.nameColumns owner := by
  cases isReference : attr.reference with
  | none =>
      simp only [nameColumns, isReference, mk.injEq, true_and, and_true]
      constructor
      · exact columnOr_of_columnOr rfl rfl
      · split <;> simp_all
  | some reference =>
      cases collects : attr.relationship == some .hasMany with
      | true =>
          simp only [nameColumns, isReference, isCollection, collects, if_true, Option.getD_some]
      | false =>
          simp only [nameColumns, isReference, isCollection, collects, Bool.false_eq_true, if_false,
            mk.injEq, true_and, and_true]
          exact columnOr_of_columnOr rfl rfl

theorem fixUuid_of_once
    (fixed : attr.type = .uuid → attr.flags.once = true) :
    attr.fixUuid = attr := by
  rw [fixUuid]
  split
  · next isUuid =>
      have same : { attr.flags with once := true } = attr.flags := by
        rw [← fixed isUuid]
      rw [once, same]
  · rfl

theorem complete_of_isOwn
    (isOwn : attr.isDelegated = false)
    (owner : String) :
    attr.complete owner = attr.fixUuid.nameColumns owner := by
  rw [complete, isOwn]
  rfl

/-- A completed number of the class itself is set once. -/
theorem once_complete
    (isOwn : attr.isDelegated = false)
    (owner : String)
    (isUuid : (attr.complete owner).type = .uuid) :
    (attr.complete owner).flags.once = true := by
  rw [type_complete] at isUuid
  rw [complete_of_isOwn isOwn, nameColumns, fixUuid, if_pos isUuid]
  repeat' split
  all_goals rfl

/-- Completing an attribute leaves nothing to complete. -/
theorem complete_complete (owner : String) (attr : Attribute) :
    (attr.complete owner).complete owner = attr.complete owner := by
  cases delegated : attr.isDelegated with
  | true => rw [complete_of_isDelegated delegated, complete_of_isDelegated delegated]
  | false =>
      have stillOwn : (attr.complete owner).isDelegated = false :=
        (isDelegated_complete owner attr).trans delegated
      rw [complete_of_isOwn stillOwn, fixUuid_of_once (once_complete delegated owner),
        complete_of_isOwn delegated, nameColumns_nameColumns]

end Attribute

/-! ## Classes -/

namespace ObjectClass

/-- New objects get their numbers as the place of the class in the hierarchy demands. -/
def HasFittingKeys (objectClass : ObjectClass) : Prop :=
  objectClass.keySource = if objectClass.parent.isNone then .rootSequence else .inherited

theorem defaultTable_ne_empty (parent : Option ObjectClass) (key : String) :
    defaultTable parent key ≠ "" := by
  cases parent <;> simp [defaultTable]

theorem map_complete_ownAttributes (objectClass : ObjectClass) :
    objectClass.ownAttributes.map (Attribute.complete objectClass.key) =
      objectClass.ownAttributes := by
  rw [ownAttributes, List.map_map]
  apply List.map_congr_left
  intro attr _
  exact Attribute.complete_complete objectClass.key attr

end ObjectClass

theorem hasFittingKeys_of_resolveClass
    {classes : List ObjectClass}
    {declared resolved : ObjectClass}
    (outcome : resolveClass classes declared = .ok resolved) :
    resolved.HasFittingKeys := by
  simp only [resolveClass] at outcome
  rcases exists_of_bind_eq_ok outcome with ⟨linked, linking, completing⟩
  have isLinked := addLink_eq_ok linking
  split at completing
  · cases completing
  · rcases exists_of_bind_eq_ok completing with ⟨_, _, completed⟩
    cases completed
    rw [isLinked]
    rfl

namespace ResolvedTo

variable
    {classes : List ObjectClass}
    {declared resolved : ObjectClass}

theorem table_ne_empty
    (resolvedTo : ResolvedTo classes declared resolved) :
    resolved.table ≠ "" := by
  rw [resolvedTo.table, ObjectClass.nameRelations]
  show (if declared.table.isEmpty then _ else declared.table) ≠ ""
  split
  · exact ObjectClass.defaultTable_ne_empty _ _
  · next given => simpa using given

/-- A class whose view has no name has none either. -/
theorem view_eq_key_of_isEmpty
    (resolvedTo : ResolvedTo classes declared resolved)
    (unnamed : resolved.view.isEmpty = true) :
    resolved.view = resolved.key := by
  have isView : resolved.view =
      if declared.view.isEmpty then declared.key else declared.view := resolvedTo.view
  rw [resolvedTo.key, isView]
  split
  · rfl
  · next given =>
      rw [isView, if_neg given] at unnamed
      exact absurd unnamed given

/-- The table and the view that a class has been given are kept. -/
theorem nameRelations_eq_self
    (resolvedTo : ResolvedTo classes declared resolved)
    (fitting : resolved.HasFittingKeys)
    (parent : Option ObjectClass) :
    resolved.nameRelations parent = resolved := by
  have table : (if resolved.table.isEmpty then defaultTable parent resolved.key
      else resolved.table) = resolved.table :=
    if_neg (by simpa using resolvedTo.table_ne_empty)
  have view : (if resolved.view.isEmpty then resolved.key else resolved.view) = resolved.view := by
    split
    · next unnamed => exact (resolvedTo.view_eq_key_of_isEmpty unnamed).symm
    · rfl
  rw [ObjectClass.nameRelations, ← fitting, table, view]

/-- A class without a link has the attributes that are declared, completed. -/
theorem attributes_of_noTarget
    (resolvedTo : ResolvedTo classes declared resolved)
    (noTarget : declared.identityTarget = none) :
    resolved.attributes = declared.ownAttributes := by
  rcases resolvedTo.attributes with ⟨_, _, attributes⟩
  rw [attributes, delegatedCopies, noTarget, admitCopies, List.append_nil]

/-- A class that shares no identity is what it is resolved to. -/
theorem resolveClass_eq_self
    (resolvedTo : ResolvedTo classes declared resolved)
    (fitting : resolved.HasFittingKeys)
    (noTarget : declared.identityTarget = none) :
    resolveClass classes resolved = .ok resolved := by
  have own := resolvedTo.attributes_of_noTarget noTarget
  have stillNoTarget : resolved.identityTarget = none :=
    resolvedTo.identityTarget.trans noTarget
  have linked : resolved.addLink = .ok resolved := by
    rw [ObjectClass.addLink, stillNoTarget]
  have completed : resolved.completeAttributes = resolved := by
    have attributes : resolved.attributes.map (Attribute.complete resolved.key) =
        resolved.attributes := by
      rw [own, resolvedTo.key, declared.map_complete_ownAttributes]
    rw [ObjectClass.completeAttributes, attributes]
  have distinct : firstRepeated [] (resolved.attributes.map Attribute.name) = none := by
    rw [own]
    exact resolvedTo.distinct
  obtain ⟨taken, claimed⟩ :
      ∃ taken, claimInherited resolved.key (resolved.attributes.map Attribute.name)
        (ancestors classes resolved) = .ok taken := by
    obtain ⟨taken, claimed, _⟩ := resolvedTo.attributes
    rw [own, resolvedTo.key, ancestors, ancestry_congr_parent classes resolvedTo.parent]
    exact ⟨taken, claimed⟩
  have noCopies : delegatedCopies classes resolved = [] := by
    rw [delegatedCopies, stillNoTarget]
  rw [ancestors] at claimed
  rw [resolveClass, resolvedTo.nameRelations_eq_self fitting, linked]
  simp only [bind, Except.bind, completed, distinct, claimed, noCopies, admitCopies,
    List.append_nil]

/-- A class that has its link is refused one more. -/
theorem resolveClass_eq_error
    (resolvedTo : ResolvedTo classes declared resolved)
    {target : String}
    {relationship : Relationship}
    (isTarget : declared.identityTarget = some (target, relationship)) :
    resolveClass classes resolved = .error (.duplicateAttribute resolved.key target) := by
  have isLinked : (resolved.ownAttribute? target).isSome = true := by
    obtain ⟨link, isAttribute, _, name, _⟩ := resolvedTo.exists_link isTarget
    rw [ObjectClass.ownAttribute?, List.find?_isSome]
    exact ⟨link, isAttribute, by simp [name]⟩
  have refused : ∀ parent, (resolved.nameRelations parent).addLink =
      .error (.duplicateAttribute resolved.key target) := by
    intro parent
    have stillTarget : (resolved.nameRelations parent).identityTarget =
        some (target, relationship) :=
      resolvedTo.identityTarget.trans isTarget
    rw [ObjectClass.addLink, stillTarget]
    exact if_pos isLinked
  rw [resolveClass, refused]
  rfl

end ResolvedTo

end ClassStore.Catalog
