import ClassStore.Proofs.Schema.Writes

/-!
# Columns of writes

A write to the view of a class reads columns of that view and writes to the tables
of the chain and to the view of the linked class.  The names of the columns are put
together by prefixing, apart from those of the views, but they agree:
`writes_name_columns`.  The key is that every column of the view of the linked class
is shown behind the name of the link.
-/

namespace ClassStore.Schema

open ClassStore.Catalog

/-- In a write to the view of the class the value reads columns of the view, or the old number. -/
structure Expression.ReadsView (value : Expression) (setting : ClassSetting) : Prop where
  new :
    ∀ column, value.reads? = some column →
      column ∈ setting.catalog.viewColumns setting.objectClass.key
  old : ∀ column, value.readsOld? = some column → column = "id"

namespace WriteStatement

/-- The statement writes the row that an object has in the table of the class. -/
structure WritesRow (statement : WriteStatement) (owner : ObjectClass) : Prop where
  relation : statement.target = owner.table
  columns :
    ∀ column ∈ statement.columns,
      column = "id" ∨ ∃ attr ∈ owner.stored, column = attr.storageColumn
  kept : ∀ value ∈ statement.values, value.keeps? = none

/-- The statement writes to the view of the class and keeps values of its columns only. -/
structure WritesView (statement : WriteStatement) (catalog : Catalog) (target : ObjectClass) :
    Prop where
  relation : statement.target = target.view
  columns : ∀ column ∈ statement.columns, column ∈ catalog.viewColumns target.key
  kept :
    ∀ value ∈ statement.values, ∀ column, value.keeps? = some column →
      column ∈ catalog.viewColumns target.key

/--
In a write to the view of a class the statement reads columns of the view, and it
writes a row of the chain, or to the view of the class that is extended or mediated.
-/
structure NamesColumns (statement : WriteStatement) (setting : ClassSetting) : Prop where
  reads : ∀ value ∈ statement.values, value.ReadsView setting
  writes :
    (∃ owner ∈ setting.chain, statement.WritesRow owner) ∨
    ∃ link target,
      setting.objectClass.link? = some link ∧
      LinksTo setting.catalog link target ∧
      statement.WritesView setting.catalog target

end WriteStatement

/-- The write is one to the view of the class and names columns that exist. -/
structure ViewWrite.NamesColumns (write : ViewWrite) (setting : ClassSetting) : Prop where
  view : write.view = setting.objectClass.view
  condition :
    ∀ condition, write.condition = some condition →
      condition.column ∈ setting.catalog.viewColumns setting.objectClass.key
  statements : ∀ statement ∈ write.statements, statement.NamesColumns setting

theorem Expression.ReadsNothing.readsView
    {value : Expression}
    (readsNothing : value.ReadsNothing)
    (setting : ClassSetting) :
    value.ReadsView setting := by
  constructor
  · intro column reads
    rw [readsNothing.new] at reads
    cases reads
  · intro column reads
    rw [readsNothing.old] at reads
    cases reads

namespace ClassSetting

variable
    {declared : List ObjectClass}
    {setting : ClassSetting}

theorem readsView_old_id (setting : ClassSetting) :
    (Expression.old "id").ReadsView setting :=
  ⟨nofun, fun _ reads => (Option.some.inj reads).symm⟩

/-! ## Rows of the chain -/

section Rows

variable
    (resolvedCatalog : ResolvedCatalog declared setting.catalog)
    (sameChain : setting.chain = setting.catalog.chain setting.objectClass.key)
    {owner : ObjectClass}
    (inChain : owner ∈ setting.chain)

include inChain

theorem namesColumns_delete :
    (WriteStatement.delete owner.table).NamesColumns setting := by
  constructor
  · intro value isValue
    rw [List.mem_singleton.mp isValue]
    exact readsView_old_id setting
  · exact .inl ⟨owner, inChain, rfl, nofun, List.forall_mem_singleton.mpr rfl⟩

include resolvedCatalog sameChain

/-- What is stored in a row of the chain is shown by the view. -/
theorem viewColumn_mem_viewColumns
    {attr : Attribute}
    (isStored : attr ∈ owner.stored) :
    attr.viewColumn ∈ setting.catalog.viewColumns setting.objectClass.key := by
  rcases List.mem_filter.mp isStored with ⟨isAttribute, stored⟩
  apply resolvedCatalog.mem_viewColumns_of_isStored _ stored
  exact mem_attributesOn_iff.mpr ⟨owner, sameChain ▸ inChain, isAttribute⟩

theorem namesColumns_insertRow
    {linked number : Option Expression}
    (isLinked : ∀ value ∈ linked, value.ReadsNothing)
    (isNumber : number ∈ [setting.rootNumber?, some setting.inheritedNumber]) :
    (setting.insertRow linked number owner).NamesColumns setting := by
  have inserted : ∀ attr,
      setting.insertedValue linked owner attr = setting.config.newValue attr ∨
      (setting.insertedValue linked owner attr).ReadsNothing := fun attr =>
    (setting.insertedValue_eq_or linked owner attr).imp id fun given => isLinked _ given.2
  constructor
  · intro value isValue
    rcases mem_values_insertRow_iff.mp isValue with isGiven | ⟨attr, isStored, rfl⟩
    · exact (readsNothing_number isNumber isGiven).readsView setting
    · rcases inserted attr with isNew | nothing
      · rw [isNew]
        constructor
        · intro column reads
          rw [reads?_newValue] at reads
          cases reads
          exact viewColumn_mem_viewColumns resolvedCatalog sameChain inChain isStored
        · intro column reads
          rw [readsOld?_newValue] at reads
          cases reads
      · exact nothing.readsView setting
  · refine .inl ⟨owner, inChain, rfl, ?_, ?_⟩
    · intro column isColumn
      rcases mem_columns_insertRow_iff.mp isColumn with ⟨_, rfl⟩ | isStored
      · exact .inl rfl
      · exact .inr isStored
    · intro value isValue
      rcases mem_values_insertRow_iff.mp isValue with isGiven | ⟨attr, _, rfl⟩
      · exact (readsNothing_number isNumber isGiven).kept
      · rcases inserted attr with isNew | nothing
        · rw [isNew, keeps?_newValue]
        · exact nothing.kept

theorem namesColumns_updateRow :
    (WriteStatement.update owner.table
      (owner.stored.map fun attr => ⟨attr.storageColumn, .new attr.viewColumn⟩)
      (.old "id")).NamesColumns setting := by
  constructor
  · intro value isValue
    rcases List.mem_cons.mp isValue with rfl | isAssigned
    · exact readsView_old_id setting
    · rcases List.mem_map.mp isAssigned with ⟨assignment, isAssignment, rfl⟩
      rcases List.mem_map.mp isAssignment with ⟨attr, isStored, rfl⟩
      refine ⟨?_, nofun⟩
      rintro column ⟨⟩
      exact viewColumn_mem_viewColumns resolvedCatalog sameChain inChain isStored
  · refine .inl ⟨owner, inChain, rfl, ?_, ?_⟩
    · intro column isColumn
      rcases List.mem_map.mp isColumn with ⟨assignment, isAssignment, rfl⟩
      rcases List.mem_map.mp isAssignment with ⟨attr, isStored, rfl⟩
      exact .inr ⟨attr, isStored, rfl⟩
    · intro value isValue
      rcases List.mem_cons.mp isValue with rfl | isAssigned
      · rfl
      · rcases List.mem_map.mp isAssigned with ⟨assignment, isAssignment, rfl⟩
        rcases List.mem_map.mp isAssignment with ⟨attr, _, rfl⟩
        rfl

end Rows

/-! ## The view of the linked class -/

section Link

variable
    (settledCatalog : SettledCatalog declared setting.catalog)
    (sameChain : setting.chain = setting.catalog.chain setting.objectClass.key)
    (found : setting.catalog.find? setting.objectClass.key = some setting.objectClass)
    {link : Attribute}
    {target : ObjectClass}
    (isLink : setting.objectClass.link? = some link)
    (linksTo : LinksTo setting.catalog link target)

include found isLink in
theorem link_mem_attributesOn :
    link ∈ attributesOn setting.catalog setting.objectClass.key := by
  exact mem_attributesOn_iff.mpr
    ⟨setting.objectClass, self_mem_chain found, ObjectClass.mem_attributes_of_link? isLink⟩

include settledCatalog found isLink

theorem viewColumn_link_mem_viewColumns :
    link.viewColumn ∈ setting.catalog.viewColumns setting.objectClass.key := by
  rcases settledCatalog.exists_linksTo found isLink with ⟨_, stored, _⟩
  exact settledCatalog.mem_viewColumns_of_isStored (link_mem_attributesOn found isLink) stored

include linksTo

/-- What the view of the linked class accepts is shown behind the name of the link. -/
theorem linkedColumn_mem_viewColumns
    {attr : Attribute}
    (isWritable : attr ∈ writableAttributes setting.catalog target.key) :
    linkedColumn link attr ∈ setting.catalog.viewColumns setting.objectClass.key := by
  rcases settledCatalog.exists_linksTo found isLink with ⟨_, stored, _⟩
  rcases mem_writableAttributes_iff.mp isWritable with ⟨isAttribute, attrStored⟩
  apply settledCatalog.append_mem_viewColumns found (link_mem_attributesOn found isLink) stored
    linksTo.refers
  · rw [linksTo.column, linksTo.name]
  · exact settledCatalog.mem_viewColumns_of_isStored isAttribute attrStored

/-- A statement that passes new values on names columns that exist. -/
theorem namesColumns_of_passesOn
    {statement : WriteStatement}
    (passesOn : statement.PassesOn setting.catalog target link) :
    statement.NamesColumns setting := by
  have shown : ∀ attr ∈ writableAttributes setting.catalog target.key,
      attr.viewColumn ∈ setting.catalog.viewColumns target.key := by
    intro attr isWritable
    rcases mem_writableAttributes_iff.mp isWritable with ⟨isAttribute, stored⟩
    exact settledCatalog.mem_viewColumns_of_isStored isAttribute stored
  constructor
  · intro value isValue
    rcases passesOn.values value isValue with rfl | isAssigned
    · refine ⟨?_, nofun⟩
      rintro column ⟨⟩
      exact viewColumn_link_mem_viewColumns settledCatalog found isLink
    · rcases List.mem_map.mp isAssigned with ⟨assignment, isAssignment, rfl⟩
      rcases passesOn.assigns assignment isAssignment with ⟨attr, isWritable, _, isValue⟩
      have linked := linkedColumn_mem_viewColumns settledCatalog found isLink linksTo isWritable
      simp only [List.mem_cons, List.not_mem_nil, or_false] at isValue
      rcases isValue with isNew | isKept
      · rw [isNew]
        refine ⟨?_, nofun⟩
        rintro column ⟨⟩
        exact linked
      · rw [isKept]
        refine ⟨?_, nofun⟩
        rintro column ⟨⟩
        exact linked
  · refine .inr ⟨link, target, isLink, linksTo, passesOn.relation, ?_, ?_⟩
    · intro column isColumn
      rcases List.mem_map.mp (passesOn.columns column isColumn) with
        ⟨assignment, isAssignment, rfl⟩
      rcases passesOn.assigns assignment isAssignment with ⟨attr, isWritable, column, _⟩
      rw [column]
      exact shown attr isWritable
    · intro value isValue column keeps
      rcases passesOn.values value isValue with rfl | isAssigned
      · cases keeps
      · rcases List.mem_map.mp isAssigned with ⟨assignment, isAssignment, rfl⟩
        rcases passesOn.assigns assignment isAssignment with ⟨attr, isWritable, _, isValue⟩
        simp only [List.mem_cons, List.not_mem_nil, or_false] at isValue
        rcases isValue with isNew | isKept
        · rw [isNew] at keeps
          cases keeps
        · rw [isKept] at keeps
          cases keeps
          exact shown attr isWritable

end Link

/-! ## The writes of a class -/

section Writes

variable
    (settledCatalog : SettledCatalog declared setting.catalog)
    (sameChain : setting.chain = setting.catalog.chain setting.objectClass.key)
    (found : setting.catalog.find? setting.objectClass.key = some setting.objectClass)

include settledCatalog sameChain

theorem namesColumns_of_mem_insertRows
    {linked : Option Expression}
    (isLinked : ∀ value ∈ linked, value.ReadsNothing)
    {statement : WriteStatement}
    (isRow : statement ∈ setting.insertRows linked) :
    statement.NamesColumns setting := by
  rw [insertRows_eq] at isRow
  rcases mem_rowsFor isRow with ⟨owner, inChain, number, isNumber, rfl⟩
  exact namesColumns_insertRow settledCatalog.toResolvedCatalog sameChain inChain isLinked isNumber

include found

theorem namesColumns_inserts :
    ∃ inserts,
      setting.inserts = .ok inserts ∧ ∀ write ∈ inserts, write.NamesColumns setting := by
  have unlinked : ∀ statement ∈ setting.insertRows none, statement.NamesColumns setting := by
    intro statement isRow
    exact namesColumns_of_mem_insertRows settledCatalog sameChain (by simp) isRow
  cases isLink : setting.objectClass.link? with
  | none =>
      refine ⟨_, inserts_of_noLink isLink, ?_⟩
      intro write isWrite
      rw [List.mem_singleton.mp isWrite]
      exact ⟨rfl, nofun, unlinked⟩
  | some link =>
      rcases settledCatalog.exists_linksTo found isLink with ⟨target, _, linksTo⟩
      refine ⟨_, inserts_of_linksTo isLink linksTo, ?_⟩
      have condition := viewColumn_link_mem_viewColumns settledCatalog found isLink
      intro write isWrite
      simp only [List.mem_cons, List.not_mem_nil, or_false] at isWrite
      rcases isWrite with rfl | rfl
      · refine ⟨rfl, ?_, ?_⟩
        · rintro _ ⟨⟩
          exact condition
        · intro statement isStatement
          rcases List.mem_cons.mp isStatement with rfl | isRow
          · exact namesColumns_of_passesOn settledCatalog found isLink linksTo
              (passesOn_createTarget _ _ _)
          · refine namesColumns_of_mem_insertRows settledCatalog sameChain ?_ isRow
            rintro value ⟨⟩
            exact readsNothing_lastNumber _ _
      · refine ⟨rfl, ?_, ?_⟩
        · rintro _ ⟨⟩
          exact condition
        · intro statement isStatement
          rcases List.mem_cons.mp isStatement with rfl | isRow
          · exact namesColumns_of_passesOn settledCatalog found isLink linksTo
              (passesOn_amendTarget _ _ _)
          · exact unlinked statement isRow

theorem namesColumns_updates :
    ∃ update, setting.updates = .ok update ∧ update.NamesColumns setting := by
  have rows : ∀ statement ∈ setting.updateRows, statement.NamesColumns setting := by
    intro statement isRow
    rcases List.mem_map.mp isRow with ⟨owner, isOwner, rfl⟩
    exact namesColumns_updateRow settledCatalog.toResolvedCatalog sameChain
      (List.mem_filter.mp isOwner).1
  cases isLink : setting.objectClass.link? with
  | none =>
      rcases updates_of_noLink isLink with ⟨update, updated, view, always, statements⟩
      refine ⟨update, updated, view, by simp [always], ?_⟩
      rwa [statements]
  | some link =>
      rcases settledCatalog.exists_linksTo found isLink with ⟨target, _, linksTo⟩
      rcases updates_of_linksTo isLink linksTo with ⟨update, updated, view, always, statements⟩
      refine ⟨update, updated, view, by simp [always], ?_⟩
      intro statement isStatement
      rw [statements] at isStatement
      rcases List.mem_append.mp isStatement with isRow | isLast
      · exact rows statement isRow
      · rw [List.mem_singleton.mp isLast]
        exact namesColumns_of_passesOn settledCatalog found isLink linksTo
          (passesOn_updateTarget _ _ _)

end Writes

theorem namesColumns_deletes (setting : ClassSetting) :
    setting.deletes.NamesColumns setting := by
  refine ⟨rfl, nofun, ?_⟩
  intro statement isStatement
  rcases List.mem_map.mp isStatement with ⟨owner, inChain, rfl⟩
  exact namesColumns_delete (List.mem_reverse.mp inChain)

end ClassSetting

/--
The writes of a class name columns that exist.

In a catalog of classes that do not need themselves every class has its writes.  A
new value is read from a column of the view of the class, and the only old value
is the number.  Each statement writes a row of the chain, where it assigns to the
number and to columns of attributes stored in that row, or it writes to the view of
the class that is extended or mediated, where all its columns are columns of that
view.
-/
theorem writes_name_columns
    {declared : List ObjectClass}
    {catalog : Catalog}
    (built : Catalog.build declared = .ok catalog)
    (selfFree : ∀ objectClass ∈ declared, SelfFree objectClass)
    {config : Config}
    {key : String}
    {setting : ClassSetting}
    (isSetting : ClassSetting.ofKey config catalog key = .ok setting) :
    ∃ inserts update,
      setting.inserts = .ok inserts ∧
      setting.updates = .ok update ∧
      ∀ write ∈ inserts ++ [update, setting.deletes], write.NamesColumns setting := by
  have settledCatalog := settled_of_build selfFree built
  rcases ClassSetting.ofKey_eq_ok isSetting with ⟨rfl, sameChain, found⟩
  cases (findClass?_eq_some found).2
  rcases ClassSetting.namesColumns_inserts settledCatalog sameChain found with
    ⟨inserts, inserted, ofInserts⟩
  rcases ClassSetting.namesColumns_updates settledCatalog sameChain found with
    ⟨update, updated, ofUpdate⟩
  refine ⟨inserts, update, inserted, updated, ?_⟩
  intro write isWrite
  simp only [List.mem_append, List.mem_cons, List.not_mem_nil, or_false] at isWrite
  rcases isWrite with isInsert | rfl | rfl
  · exact ofInserts write isInsert
  · exact ofUpdate
  · exact setting.namesColumns_deletes

/-- Authors are persons, so what is written to their view is written to the view of persons. -/
theorem writes_name_columns_on_library :
    ∃ catalog setting inserts update,
      Catalog.build library = .ok catalog ∧
      ClassSetting.ofKey .standard catalog "author" = .ok setting ∧
      setting.inserts = .ok inserts ∧
      setting.updates = .ok update ∧
      setting.catalog.viewColumns setting.objectClass.key =
        ["id", "person__id", "person__name", "pen"] ∧
      ∀ write ∈ inserts ++ [update, setting.deletes], write.NamesColumns setting := by
  have checked : ((Catalog.build library).toOption.any fun catalog =>
      (ClassSetting.ofKey .standard catalog "author").toOption.any fun setting =>
        setting.catalog.viewColumns setting.objectClass.key ==
          ["id", "person__id", "person__name", "pen"]) = true := by
    decide +kernel
  simp only [Option.any_eq_true, toOption_eq_some_iff, beq_iff_eq] at checked
  rcases checked with ⟨catalog, built, setting, isSetting, columns⟩
  rcases writes_name_columns built
      (fun objectClass isDeclared => (wellDeclared_library objectClass isDeclared).selfFree)
      isSetting with
    ⟨inserts, update, inserted, updated, named⟩
  exact ⟨catalog, setting, inserts, update, built, isSetting, inserted, updated, columns, named⟩

end ClassStore.Schema
