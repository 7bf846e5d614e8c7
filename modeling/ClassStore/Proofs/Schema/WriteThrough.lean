import ClassStore.Proofs.Schema.Writes

/-!
# Writing copied attributes through

The view of a class shows copies of what can be searched on the class that it
extends or mediates.  A write to the view passes the new value of a copy on to the
view of that class under two conditions: the class holds the copy itself, and the
column that is copied belongs to an attribute stored along the chain of the other
class.  So a copy that a class inherits is not passed on, and neither is the copy
of a copy, unless a stored attribute shares its column.
-/

namespace ClassStore.Schema

open ClassStore.Catalog

/-! ## What a write does -/

namespace ViewWrite

/-- The write makes the assignment to the linked object, in the view of its class. -/
def Amends (write : ViewWrite) (target : ObjectClass) (link : Attribute)
    (assignment : Assignment) : Prop :=
  ∃ assignments,
    WriteStatement.update target.view assignments (.new link.viewColumn) ∈ write.statements ∧
    assignment ∈ assignments

/-- The write begins with a new object in the view of the class, which gets the assignment. -/
def Creates (write : ViewWrite) (target : ObjectClass) (assignment : Assignment) : Prop :=
  ∃ statement,
    write.statements.head? = some statement ∧
    statement.AddsRowTo target.view ∧
    assignment ∈ statement.assignments

/-- The new value of the column goes nowhere. -/
def Drops (write : ViewWrite) (column : String) : Prop :=
  ∀ statement ∈ write.statements, ∀ value ∈ statement.values, value.reads? ≠ some column

instance (write : ViewWrite) (column : String) : Decidable (write.Drops column) :=
  inferInstanceAs (Decidable (∀ statement ∈ write.statements,
    ∀ value ∈ statement.values, value.reads? ≠ some column))

end ViewWrite

/-- The column shows an attribute that is stored along the chain of the class. -/
def IsStoredColumn (catalog : Catalog) (target : ObjectClass) (column : String) : Prop :=
  ∃ attr ∈ attributesOn catalog target.key, attr.isStored = true ∧ attr.viewColumn = column

/-- Where values depend on the columns only, a column gets its value if it is written at all. -/
theorem mem_assignments_iff
    (value : Attribute → Expression)
    (byColumn : ∀ first second : Attribute,
      first.viewColumn = second.viewColumn → value first = value second)
    (catalog : Catalog)
    (target : ObjectClass)
    (original : Attribute) :
    (⟨original.viewColumn, value original⟩ : Assignment) ∈
        (writableAttributes catalog target.key).map (fun attr => ⟨attr.viewColumn, value attr⟩) ↔
      IsStoredColumn catalog target original.viewColumn := by
  simp only [List.mem_map, Assignment.mk.injEq, mem_writableAttributes_iff]
  constructor
  · rintro ⟨attr, ⟨isAttribute, stored⟩, sameColumn, _⟩
    exact ⟨attr, isAttribute, stored, sameColumn⟩
  · rintro ⟨attr, isAttribute, stored, sameColumn⟩
    exact ⟨attr, ⟨isAttribute, stored⟩, sameColumn, byColumn attr original sameColumn⟩

/-! ## Writes to the linked object -/

namespace ClassSetting

variable
    {setting : ClassSetting}

theorem not_update_new_mem_updateRows
    (setting : ClassSetting)
    (relation column : String)
    (assignments : List Assignment) :
    WriteStatement.update relation assignments (.new column) ∉ setting.updateRows := by
  simp [updateRows]

theorem not_update_mem_insertRows
    (setting : ClassSetting)
    (linked : Option Expression)
    (relation : String)
    (assignments : List Assignment)
    (id : Expression) :
    WriteStatement.update relation assignments id ∉ setting.insertRows linked := by
  rw [insertRows]
  split
  · simp
  · simp [insertRow]

/-- A class without a link of its own changes no linked object. -/
theorem exists_update_of_noLink
    (noLink : setting.objectClass.link? = none) :
    ∃ write,
      setting.updates = .ok write ∧
      ∀ target link assignment, ¬ write.Amends target link assignment := by
  rcases updates_of_noLink noLink with ⟨write, outcome, _, _, statements⟩
  refine ⟨write, outcome, ?_⟩
  rintro target link assignment ⟨assignments, isStatement, _⟩
  rw [statements] at isStatement
  exact not_update_new_mem_updateRows setting _ _ _ isStatement

/-- A class with a link of its own changes the object that it links to and no other. -/
theorem exists_update_of_linksTo
    {link : Attribute}
    {target : ObjectClass}
    (isLink : setting.objectClass.link? = some link)
    (linksTo : LinksTo setting.catalog link target) :
    ∃ write,
      setting.updates = .ok write ∧
      ∀ other through assignment,
        write.Amends other through assignment ↔
          other.view = target.view ∧ through.viewColumn = link.viewColumn ∧
          assignment ∈ (updateTarget setting.catalog target link).assignments := by
  rcases updates_of_linksTo isLink linksTo with ⟨write, outcome, _, _, statements⟩
  refine ⟨write, outcome, ?_⟩
  intro other through assignment
  rw [ViewWrite.Amends, statements]
  constructor
  · rintro ⟨assignments, isStatement, isAssignment⟩
    rcases List.mem_append.mp isStatement with isRow | isLast
    · exact absurd isRow (not_update_new_mem_updateRows setting _ _ _)
    · rw [List.mem_singleton, updateTarget] at isLast
      injection isLast with sameView sameAssignments sameId
      injection sameId with sameColumn
      rw [sameAssignments] at isAssignment
      exact ⟨sameView, sameColumn, isAssignment⟩
  · rintro ⟨sameView, sameColumn, isAssignment⟩
    refine ⟨(updateTarget setting.catalog target link).assignments, ?_, isAssignment⟩
    apply List.mem_append_right
    rw [sameView, sameColumn]
    exact List.mem_singleton_self _

/-- A class with a link of its own creates the linked object or changes it. -/
theorem exists_inserts_of_linksTo
    {link : Attribute}
    {target : ObjectClass}
    (isLink : setting.objectClass.link? = some link)
    (linksTo : LinksTo setting.catalog link target) :
    ∃ creating linking,
      setting.inserts = .ok [creating, linking] ∧
      (∀ assignment,
        creating.Creates target assignment ↔
          assignment ∈ (createTarget setting.catalog target link).assignments) ∧
      ∀ assignment,
        linking.Amends target link assignment ↔
          assignment ∈ (amendTarget setting.catalog target link).assignments := by
  refine ⟨_, _, inserts_of_linksTo isLink linksTo, ?_, ?_⟩
  · intro assignment
    constructor
    · rintro ⟨statement, isFirst, _, isAssignment⟩
      cases isFirst
      exact isAssignment
    · intro isAssignment
      exact ⟨_, rfl, ⟨_, _, rfl⟩, isAssignment⟩
  · intro assignment
    constructor
    · rintro ⟨assignments, isStatement, isAssignment⟩
      rcases List.mem_cons.mp isStatement with isFirst | isRow
      · cases isFirst
        exact isAssignment
      · exact absurd isRow (not_update_mem_insertRows setting _ _ _ _)
    · intro isAssignment
      exact ⟨_, List.mem_cons_self, isAssignment⟩

end ClassSetting

/-! ## Copies -/

theorem viewColumn_of_isCopy
    {catalog : Catalog}
    {owner target : ObjectClass}
    {link original copy : Attribute}
    (isCopy : IsCopy catalog owner target link original copy) :
    copy.viewColumn = linkedColumn link original := by
  rcases isCopy.copied with ⟨relationship, rfl⟩
  rw [linkedColumn, isCopy.linksTo.name]
  rfl

/-- How the writes of a class treat a copy that a class of its chain holds. -/
structure WritesCopy (setting : ClassSetting) (owner target : ObjectClass)
    (link original copy : Attribute) : Prop where
  /-- What is stored along the chain of the target is shown by its view. -/
  shown :
    ∀ column, IsStoredColumn setting.catalog target column →
      column ∈ setting.catalog.viewColumns target.key
  /-- What is not delegated by the target is stored along its chain. -/
  direct :
    original.isDelegated = false →
      IsStoredColumn setting.catalog target original.viewColumn
  /-- An update passes the value on if the class holds the copy itself, of a stored column. -/
  update :
    ∃ write,
      setting.updates = .ok write ∧
      (write.Amends target link ⟨original.viewColumn, .new copy.viewColumn⟩ ↔
        owner = setting.objectClass ∧
        IsStoredColumn setting.catalog target original.viewColumn)
  /-- If the class holds the copy itself, both inserts pass on the value of a stored column. -/
  insert :
    owner = setting.objectClass →
      ∃ creating linking,
        setting.inserts = .ok [creating, linking] ∧
        (creating.Creates target ⟨original.viewColumn, .new copy.viewColumn⟩ ↔
          IsStoredColumn setting.catalog target original.viewColumn) ∧
        (linking.Amends target link
            ⟨original.viewColumn, .newOrKept copy.viewColumn original.viewColumn⟩ ↔
          IsStoredColumn setting.catalog target original.viewColumn)

namespace WritesCopy

variable
    {declared : List ObjectClass}
    {setting : ClassSetting}
    {key : String}
    {owner target : ObjectClass}
    {link original copy : Attribute}

theorem updates_iff
    (resolvedCatalog : ResolvedCatalog declared setting.catalog)
    (found : setting.catalog.find? key = some setting.objectClass)
    (inChain : owner ∈ setting.catalog.chain key)
    (isCopy : IsCopy setting.catalog owner target link original copy) :
    ∃ write,
      setting.updates = .ok write ∧
      (write.Amends target link ⟨original.viewColumn, .new copy.viewColumn⟩ ↔
        owner = setting.objectClass ∧
        IsStoredColumn setting.catalog target original.viewColumn) := by
  by_cases holds : owner = setting.objectClass
  · have isLink := holds ▸ isCopy.isLink
    rcases ClassSetting.exists_update_of_linksTo isLink isCopy.linksTo with ⟨write, outcome, amends⟩
    refine ⟨write, outcome, ?_⟩
    have isAssigned := mem_assignments_iff (fun attr => .new (linkedColumn link attr))
      (fun first second same => by simp only [linkedColumn, same])
      setting.catalog target original
    simp only [amends, viewColumn_of_isCopy isCopy, holds, true_and]
    exact isAssigned
  -- A class that inherits the copy has no link, or one through another column.
  · cases isOwn : setting.objectClass.link? with
    | none =>
        rcases ClassSetting.exists_update_of_noLink isOwn with ⟨write, outcome, amendsNothing⟩
        refine ⟨write, outcome, ?_⟩
        simp [holds, amendsNothing]
    | some own =>
        rcases resolvedCatalog.exists_linksTo found isOwn with ⟨ownTarget, _, ownLinks⟩
        rcases ClassSetting.exists_update_of_linksTo isOwn ownLinks with ⟨write, outcome, amends⟩
        have different := resolvedCatalog.viewColumn_link_ne found inChain holds isOwn
          isCopy.isLink ownLinks isCopy.linksTo
        refine ⟨write, outcome, ?_⟩
        simp [holds, amends, different.symm]

theorem inserts_iff
    (isCopy : IsCopy setting.catalog owner target link original copy)
    (holds : owner = setting.objectClass) :
    ∃ creating linking,
      setting.inserts = .ok [creating, linking] ∧
      (creating.Creates target ⟨original.viewColumn, .new copy.viewColumn⟩ ↔
        IsStoredColumn setting.catalog target original.viewColumn) ∧
      (linking.Amends target link
          ⟨original.viewColumn, .newOrKept copy.viewColumn original.viewColumn⟩ ↔
        IsStoredColumn setting.catalog target original.viewColumn) := by
  rcases ClassSetting.exists_inserts_of_linksTo (holds ▸ isCopy.isLink) isCopy.linksTo with
    ⟨creating, linking, outcome, creates, amends⟩
  refine ⟨creating, linking, outcome, ?_, ?_⟩
  · rw [creates, assignments_createTarget, viewColumn_of_isCopy isCopy]
    exact mem_assignments_iff (fun attr => .new (linkedColumn link attr))
      (fun first second same => by simp only [linkedColumn, same])
      setting.catalog target original
  · rw [amends, viewColumn_of_isCopy isCopy]
    exact mem_assignments_iff
      (fun attr => .newOrKept (linkedColumn link attr) attr.viewColumn)
      (fun first second same => by simp only [linkedColumn, same])
      setting.catalog target original

theorem of_isCopy
    (resolvedCatalog : ResolvedCatalog declared setting.catalog)
    (found : setting.catalog.find? key = some setting.objectClass)
    (inChain : owner ∈ setting.catalog.chain key)
    (isCopy : IsCopy setting.catalog owner target link original copy) :
    WritesCopy setting owner target link original copy := by
  constructor
  · rintro _ ⟨attr, isAttribute, stored, rfl⟩
    exact resolvedCatalog.mem_viewColumns_of_isStored isAttribute stored
  · intro notDelegated
    have stored := resolvedCatalog.isStored_of_isCopyable isCopy.visible isCopy.copyable
      notDelegated
    exact ⟨original, isCopy.visible, stored, rfl⟩
  · exact updates_iff resolvedCatalog found inChain isCopy
  · exact inserts_iff isCopy

end WritesCopy

/--
What happens to the new values of delegated attributes.

A delegated attribute that is visible on a class of a catalog has been declared
so, or a class of the chain holds it as the copy of an attribute that is visible
on the class that it links to.  An update of the class passes the new value of a
copy on to the column that is copied, if the class holds the copy itself and the
column belongs to an attribute stored along the chain of the other class; the
inserts do so under the second condition.  That condition is met by everything
that the other class does not delegate in turn.  Other copies are not passed on.
-/
theorem copies_written_through
    {declared : List ObjectClass}
    {catalog : Catalog}
    (built : Catalog.build declared = .ok catalog)
    {config : Config}
    {key name : String}
    {setting : ClassSetting}
    (isSetting : ClassSetting.ofKey config catalog key = .ok setting)
    {copy : Attribute}
    (visible : catalog.visibleAttribute? key name = some copy)
    (delegated : copy.isDelegated = true) :
    ∃ owner ∈ setting.chain,
      copy ∈ owner.attributes ∧
      ((∃ declaration ∈ declared,
          declaration.key = owner.key ∧ copy ∈ declaration.attributes) ∨
        ∃ target link original,
          IsCopy catalog owner target link original copy ∧
          WritesCopy setting owner target link original copy) := by
  have resolvedCatalog := resolved_of_build built
  rcases ClassSetting.ofKey_eq_ok isSetting with ⟨rfl, sameChain, found⟩
  have held : ∃ owner ∈ setting.catalog.chain key, copy ∈ owner.attributes := by
    rw [Catalog.visibleAttribute?] at visible
    split at visible
    · rcases Option.map_eq_some_iff.mp visible with ⟨_, _, rfl⟩
      cases delegated
    · rcases List.exists_of_findSome?_eq_some visible with ⟨owner, isMember, isFirst⟩
      exact ⟨owner, List.mem_reverse.mp isMember, List.mem_of_find?_eq_some isFirst⟩
  rcases held with ⟨owner, inChain, isAttribute⟩
  refine ⟨owner, sameChain ▸ inChain, isAttribute, ?_⟩
  rcases resolvedCatalog.declared_or_isCopy inChain isAttribute delegated with
    isDeclared | ⟨target, link, original, isCopy⟩
  · exact Or.inl isDeclared
  · exact Or.inr ⟨target, link, original, isCopy,
      WritesCopy.of_isCopy resolvedCatalog found inChain isCopy⟩

/-- Authors are persons, so what is written as the name of an author names the person. -/
theorem names_written_through_on_library :
    ∃ catalog setting copy,
      Catalog.build library = .ok catalog ∧
      ClassSetting.ofKey .standard catalog "author" = .ok setting ∧
      catalog.visibleAttribute? "author" "name" = some copy ∧
      copy.isDelegated = true ∧
      ∃ person link,
        (∃ write,
          setting.updates = .ok write ∧
          write.Amends person link ⟨"name", .new "person__name"⟩) ∧
        ∃ creating linking,
          setting.inserts = .ok [creating, linking] ∧
          creating.Creates person ⟨"name", .new "person__name"⟩ ∧
          linking.Amends person link ⟨"name", .newOrKept "person__name" "name"⟩ := by
  have checked : ((Catalog.build library).toOption.any fun catalog =>
      (ClassSetting.ofKey .standard catalog "author").toOption.any fun setting =>
        (catalog.visibleAttribute? "author" "name").any fun copy =>
          copy.isDelegated && setting.chain == [setting.objectClass] &&
            copy.delegatesTo == some "person" && copy.viewColumn == "person__name" &&
            (attributesOn catalog "person").all fun attr =>
              !attr.isDelegated && attr.viewColumn == "name") = true := by
    decide +kernel
  simp only [Option.any_eq_true, toOption_eq_some_iff, Bool.and_eq_true, beq_iff_eq,
    List.all_eq_true, Bool.not_eq_true'] at checked
  rcases checked with ⟨catalog, built, setting, isSetting, copy, visible,
    ⟨⟨⟨delegated, alone⟩, delegatesTo⟩, column⟩, names⟩
  refine ⟨catalog, setting, copy, built, isSetting, visible, delegated, ?_⟩
  rcases copies_written_through built isSetting visible delegated with
    ⟨owner, inChain, _, ⟨declaration, isDeclared, _, isAttribute⟩ |
      ⟨target, link, original, isCopy, written⟩⟩
  · have notDelegated :=
      ((wellDeclared_library declaration isDeclared).unresolved copy isAttribute).1
    rw [delegatesTo] at notDelegated
    cases notDelegated
  · have holds : owner = setting.objectClass := by
      rw [alone] at inChain
      exact List.mem_singleton.mp inChain
    have isPerson : target.key = "person" := by
      rcases isCopy.copied with ⟨_, rfl⟩
      exact Option.some.inj delegatesTo
    rcases names original (isPerson ▸ isCopy.visible) with ⟨direct, name⟩
    have isStored := written.direct direct
    rcases written.update with ⟨write, updated, amends⟩
    rcases written.insert holds with ⟨creating, linking, inserted, creates, amendsToo⟩
    rw [name] at isStored amends creates amendsToo
    rw [column] at amends creates amendsToo
    exact ⟨target, link, ⟨write, updated, amends.mpr ⟨holds, isStored⟩⟩,
      creating, linking, inserted, creates.mpr isStored, amendsToo.mpr isStored⟩

/-- The library with laureates, who extend authors, and novelists, who are authors. -/
def academy : List ObjectClass :=
  library ++
    [{ ObjectClass.declare "laureate" with extended := some "author" },
      { ObjectClass.declare "novelist" with parent := some "author" }]

/--
Laureates copy the name of a person from authors, and novelists inherit the copy.
Both show the name as a delegated attribute, and no write passes it on.
-/
theorem exists_dropped_copies :
    ∃ catalog,
      Catalog.build academy = .ok catalog ∧
      ∀ backend, ∀ key ∈ ["laureate", "novelist"],
        ∃ setting copy update inserts,
          ClassSetting.ofKey ⟨backend, none⟩ catalog key = .ok setting ∧
          catalog.visibleAttribute? key "name" = some copy ∧
          copy.isDelegated = true ∧
          setting.updates = .ok update ∧
          setting.inserts = .ok inserts ∧
          update.Drops copy.viewColumn ∧
          ∀ insert ∈ inserts, insert.Drops copy.viewColumn := by
  have checked : ((Catalog.build academy).toOption.any fun catalog =>
      Backend.all.all fun backend => ["laureate", "novelist"].all fun key =>
        (ClassSetting.ofKey ⟨backend, none⟩ catalog key).toOption.any fun setting =>
          (catalog.visibleAttribute? key "name").any fun copy =>
            copy.isDelegated &&
              setting.updates.toOption.any (fun update => update.Drops copy.viewColumn) &&
              setting.inserts.toOption.any fun inserts =>
                inserts.all fun insert => insert.Drops copy.viewColumn) = true := by
    decide +kernel
  simp only [Option.any_eq_true, toOption_eq_some_iff, Bool.and_eq_true, List.all_eq_true,
    decide_eq_true_eq] at checked
  rcases checked with ⟨catalog, built, ofBackend⟩
  refine ⟨catalog, built, ?_⟩
  intro backend key isKey
  have isBackend : backend ∈ Backend.all := by
    cases backend <;> simp [Backend.all]
  rcases ofBackend backend isBackend key isKey with
    ⟨setting, isSetting, copy, visible, ⟨delegated, update, updated, dropped⟩,
      inserts, inserted, allDropped⟩
  exact ⟨setting, copy, update, inserts, isSetting, visible, delegated, updated, inserted, dropped,
    allDropped⟩

end ClassStore.Schema
