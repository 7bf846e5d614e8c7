import ClassStore.Proofs.Schema.Groups
import ClassStore.Proofs.Schema.Writes

/-!
# Filled writes

A database reads an insert or an update only if it has a column to write to, and a
trigger only if it has something to run.  The columns of a write are those of the
attributes stored in a table or along the chain of the linked class, and there may be
none of them.  `writes_filled_iff` says for which classes the writes are filled: the
number of a new object fills an insert, except in the root table of SQLite, an update
leaves out the tables of a chain without columns, and nothing is left out that is
passed on to a linked class.
-/

namespace ClassStore.Schema

open ClassStore.Catalog

namespace WriteStatement

/-- The statement has a column to write to, if it writes to columns. -/
def IsFilled : WriteStatement → Prop
  | .insert _ columns _ => columns ≠ []
  | .update _ assignments _ => assignments ≠ []
  | .delete _ => True

/-- An insert has as many values as columns, and so has its text. -/
def IsWrittenAligned (backend : Backend) (statement : WriteStatement) : Prop :=
  ∀ relation columns values, statement = .insert relation columns values →
    columns.length = values.length ∧
    statement.sql backend =
      "INSERT INTO " ++ relation ++ " (" ++ String.intercalate ", " columns ++
        ")\nVALUES (" ++ String.intercalate ", " (values.map (Expression.sql backend)) ++ ")"

theorem IsAligned.isWrittenAligned
    {statement : WriteStatement}
    (aligned : statement.IsAligned)
    (backend : Backend) :
    statement.IsWrittenAligned backend := by
  rintro relation columns values rfl
  exact ⟨aligned, rfl⟩

end WriteStatement

/-- The write has something to run, and all of it is filled. -/
structure ViewWrite.IsFilled (write : ViewWrite) : Prop where
  nonempty : write.statements ≠ []
  filled : ∀ statement ∈ write.statements, statement.IsFilled

/-- The class that is extended or mediated stores something along its chain. -/
def TargetStores (catalog : Catalog) (objectClass : ObjectClass) : Prop :=
  ∀ target relationship,
    objectClass.identityTarget = some (target, relationship) →
      writableAttributes catalog target ≠ []

/-! ## Rows of a chain -/

namespace ClassSetting

variable
    {setting : ClassSetting}

theorem isFilled_insertRow_iff
    {linked number : Option Expression}
    {owner : ObjectClass} :
    (setting.insertRow linked number owner).IsFilled ↔ number ≠ none ∨ owner.stored ≠ [] := by
  cases number <;> simp [insertRow, WriteStatement.IsFilled]

theorem rootNumber?_ne_none_iff :
    setting.rootNumber? ≠ none ↔ setting.backend = .postgres := by
  rw [rootNumber?]
  cases setting.backend <;> simp

/-- All rows below the root get a number, and so does the root in PostgreSQL. -/
theorem filled_insertRows_iff
    {root : ObjectClass}
    {descendants : List ObjectClass}
    (isChain : setting.chain = root :: descendants)
    (linked : Option Expression) :
    (∀ statement ∈ setting.insertRows linked, statement.IsFilled) ↔
      setting.backend = .postgres ∨ root.stored ≠ [] := by
  rw [insertRows, isChain, List.forall_mem_cons, isFilled_insertRow_iff,
    rootNumber?_ne_none_iff, and_iff_left_iff_imp]
  intro _ statement isRow
  rcases List.mem_map.mp isRow with ⟨owner, _, rfl⟩
  exact isFilled_insertRow_iff.mpr (.inl (Option.some_ne_none _))

/-- Tables without columns are left out of an update. -/
theorem filled_updateRows :
    ∀ statement ∈ setting.updateRows, statement.IsFilled := by
  intro statement isRow
  rcases List.mem_map.mp isRow with ⟨owner, isOwner, rfl⟩
  simpa [WriteStatement.IsFilled] using (List.mem_filter.mp isOwner).2

theorem updateRows_ne_nil_iff :
    setting.updateRows ≠ [] ↔ ∃ member ∈ setting.chain, member.stored ≠ [] := by
  simp [updateRows]

/-- A delete has a statement for each class of the chain, and none of them needs a column. -/
theorem isFilled_deletes
    (nonempty : setting.chain ≠ []) :
    setting.deletes.IsFilled := by
  constructor
  · simpa [deletes] using nonempty
  · intro statement isStatement
    rcases List.mem_map.mp isStatement with ⟨_, _, rfl⟩
    trivial

/-! ## Writes with and without a link -/

section Unlinked

variable
    (noTarget : setting.objectClass.identityTarget = none)

include noTarget

theorem link?_eq_none_of_noTarget :
    setting.objectClass.link? = none := by
  rw [ObjectClass.link?, noTarget, Option.bind_none]

theorem targetStores_of_noTarget :
    TargetStores setting.catalog setting.objectClass := by
  intro target relationship isTarget
  rw [noTarget] at isTarget
  cases isTarget

end Unlinked

section Linked

variable
    {target : ObjectClass}
    {relationship : Relationship}
    (isTarget : setting.objectClass.identityTarget = some (target.key, relationship))

include isTarget

theorem targetStores_iff :
    TargetStores setting.catalog setting.objectClass ↔
      writableAttributes setting.catalog target.key ≠ [] := by
  constructor
  · intro stores
    exact stores target.key relationship isTarget
  · intro stores other otherRelationship isOther
    cases isTarget.symm.trans isOther
    exact stores

/-- What is passed on to the linked class is filled if that class stores something. -/
theorem isFilled_passing_iff
    (link : Attribute)
    {statement : WriteStatement}
    (isPassing :
      statement ∈ [createTarget setting.catalog target link,
        amendTarget setting.catalog target link, updateTarget setting.catalog target link]) :
    statement.IsFilled ↔ TargetStores setting.catalog setting.objectClass := by
  rw [targetStores_iff isTarget]
  simp only [List.mem_cons, List.not_mem_nil, or_false] at isPassing
  rcases isPassing with rfl | rfl | rfl <;>
    simp [createTarget, amendTarget, updateTarget, WriteStatement.IsFilled]

end Linked

section Placed

variable
    {declared : List ObjectClass}
    (resolvedCatalog : ResolvedCatalog declared setting.catalog)
    (found : setting.catalog.find? setting.objectClass.key = some setting.objectClass)

include resolvedCatalog found

/-- An insert adds its rows behind what it passes on. -/
theorem isFilled_insert_iff
    {root : ObjectClass}
    {descendants : List ObjectClass}
    (isChain : setting.chain = root :: descendants)
    {inserts : List ViewWrite}
    (areInserts : setting.inserts = .ok inserts)
    {write : ViewWrite}
    (isWrite : write ∈ inserts) :
    write.statements ≠ [] ∧
    (write.IsFilled ↔
      (setting.backend = .postgres ∨ root.stored ≠ []) ∧
        TargetStores setting.catalog setting.objectClass) := by
  have rowsNonempty : ∀ linked, setting.insertRows linked ≠ [] := by
    intro linked
    simp [insertRows, isChain]
  cases isTarget : setting.objectClass.identityTarget with
  | none =>
      rw [inserts_of_noLink (link?_eq_none_of_noTarget isTarget)] at areInserts
      cases areInserts
      cases List.mem_singleton.mp isWrite
      refine ⟨rowsNonempty none, ?_⟩
      rw [← filled_insertRows_iff isChain none, and_iff_left (targetStores_of_noTarget isTarget)]
      exact ⟨fun isFilled => isFilled.filled, fun filled => ⟨rowsNonempty none, filled⟩⟩
  | some identity =>
      rcases identity with ⟨key, relationship⟩
      rcases resolvedCatalog.exists_link found isTarget with
        ⟨link, target, isLink, _, linksTo, rfl⟩
      rw [inserts_of_linksTo isLink linksTo] at areInserts
      cases areInserts
      have passing {statement : WriteStatement}
          (isPassing : statement ∈ [createTarget setting.catalog target link,
            amendTarget setting.catalog target link, updateTarget setting.catalog target link]) :
          statement.IsFilled ↔ TargetStores setting.catalog setting.objectClass :=
        isFilled_passing_iff isTarget link isPassing
      have filledBehind : ∀ {first : WriteStatement} {linked : Option Expression},
          write.statements = first :: setting.insertRows linked →
          (first.IsFilled ↔ TargetStores setting.catalog setting.objectClass) →
          write.statements ≠ [] ∧
          (write.IsFilled ↔
            (setting.backend = .postgres ∨ root.stored ≠ []) ∧
              TargetStores setting.catalog setting.objectClass) := by
        intro first linked statements firstFilled
        have nonempty : write.statements ≠ [] := by
          rw [statements]
          exact List.cons_ne_nil _ _
        refine ⟨nonempty, ?_⟩
        rw [← filled_insertRows_iff isChain linked, ← firstFilled, and_comm,
          ← List.forall_mem_cons, ← statements]
        exact ⟨fun isFilled => isFilled.filled, fun filled => ⟨nonempty, filled⟩⟩
      simp only [List.mem_cons, List.not_mem_nil, or_false] at isWrite
      rcases isWrite with rfl | rfl
      · exact filledBehind rfl (passing (by simp))
      · exact filledBehind rfl (passing (by simp))

/-- An update changes the tables that have columns, and then passes values on. -/
theorem isFilled_update_iff
    (self : setting.objectClass ∈ setting.chain)
    {update : ViewWrite}
    (isUpdate : setting.updates = .ok update) :
    update.IsFilled ↔
      (∃ member ∈ setting.chain, member.stored ≠ []) ∧
        TargetStores setting.catalog setting.objectClass := by
  cases isTarget : setting.objectClass.identityTarget with
  | none =>
      rcases updates_of_noLink (link?_eq_none_of_noTarget isTarget) with
        ⟨other, isOther, _, _, statements⟩
      cases isUpdate.symm.trans isOther
      rw [and_iff_left (targetStores_of_noTarget isTarget), ← updateRows_ne_nil_iff, ← statements]
      refine ⟨fun isFilled => isFilled.nonempty, fun nonempty => ⟨nonempty, ?_⟩⟩
      rw [statements]
      exact filled_updateRows
  | some identity =>
      rcases identity with ⟨key, relationship⟩
      rcases resolvedCatalog.exists_link found isTarget with
        ⟨link, target, isLink, linkStored, linksTo, rfl⟩
      rcases updates_of_linksTo isLink linksTo with ⟨other, isOther, _, _, statements⟩
      cases isUpdate.symm.trans isOther
      have stores : ∃ member ∈ setting.chain, member.stored ≠ [] := by
        refine ⟨setting.objectClass, self, List.ne_nil_of_mem (a := link) ?_⟩
        exact List.mem_filter.mpr ⟨ObjectClass.mem_attributes_of_link? isLink, linkStored⟩
      have passing : (updateTarget setting.catalog target link).IsFilled ↔
          TargetStores setting.catalog setting.objectClass :=
        isFilled_passing_iff isTarget link (by simp)
      rw [and_iff_right stores, ← passing]
      constructor
      · intro isFilled
        apply isFilled.filled
        rw [statements]
        exact List.mem_append_right _ (List.mem_singleton_self _)
      · intro filled
        refine ⟨by simp [statements], ?_⟩
        rw [statements]
        intro statement isStatement
        rcases List.mem_append.mp isStatement with isRow | isLast
        · exact filled_updateRows statement isRow
        · rwa [List.mem_singleton.mp isLast]

end Placed

end ClassSetting

/--
Which writes of a schema are filled.

Every insert has something to run and as many values as columns, and every delete is
filled.  The inserts are filled if the backend is PostgreSQL or the root of the class
stores something, the update is filled if some class of the chain stores something, and
both need a linked class that stores something if there is one.
-/
theorem writes_filled_iff
    {declared : List ObjectClass}
    {catalog : Catalog}
    (built : Catalog.build declared = .ok catalog)
    {config : Config}
    {key : String}
    {objectClass : ObjectClass}
    (found : catalog.find? key = some objectClass)
    {schema : ClassSchema}
    (generated : classSchema config catalog key = .ok schema) :
    ∃ root inserts update delete,
      catalog.root? key = some root ∧
      schema.insert = inserts.map Statement.write ∧
      schema.update = [.write update] ∧
      schema.delete = [.write delete] ∧
      inserts ≠ [] ∧
      (∀ write ∈ inserts,
        write.statements ≠ [] ∧
        (∀ statement ∈ write.statements, statement.IsWrittenAligned config.backend) ∧
        (write.IsFilled ↔
          (config.backend = .postgres ∨ root.stored ≠ []) ∧ TargetStores catalog objectClass)) ∧
      (update.IsFilled ↔
        (∃ member ∈ catalog.chain key, member.stored ≠ []) ∧ TargetStores catalog objectClass) ∧
      delete.IsFilled := by
  have resolvedCatalog := resolved_of_build built
  rcases findClass?_eq_some found with ⟨_, rfl⟩
  rcases resolvedCatalog.exists_root found with ⟨root, isRoot, _, _⟩
  rcases List.head?_eq_some_iff.mp isRoot with ⟨descendants, isChain⟩
  rcases ClassSetting.writes_of_schema (schema_of_classSchema generated found) with
    ⟨inserts, update, areInserts, isUpdate, insert, updates, delete⟩
  refine ⟨root, inserts, update, _, isRoot, insert, updates, delete,
    ClassSetting.ne_nil_of_inserts areInserts, ?_, ?_, ?_⟩
  · intro write isWrite
    rcases ClassSetting.isFilled_insert_iff resolvedCatalog found isChain areInserts isWrite with
      ⟨nonempty, isFilled⟩
    have aligned := ClassSetting.isAligned_of_mem_inserts areInserts isWrite
    exact ⟨nonempty, fun statement isStatement =>
      (aligned statement isStatement).isWrittenAligned config.backend, isFilled⟩
  · exact ClassSetting.isFilled_update_iff resolvedCatalog found (self_mem_chain found) isUpdate
  · apply ClassSetting.isFilled_deletes
    exact List.ne_nil_of_mem (self_mem_chain found)

/-- An author is a person and writes through to it, so that all writes have columns. -/
theorem writes_of_author_filled :
    ∃ catalog schema, ∃ (inserts : List ViewWrite) (update delete : ViewWrite),
      Catalog.build library = .ok catalog ∧
      classSchema ⟨.sqlite, none⟩ catalog "author" = .ok schema ∧
      schema.insert = inserts.map Statement.write ∧
      schema.update = [.write update] ∧
      schema.delete = [.write delete] ∧
      inserts.length = 2 ∧
      (∀ write ∈ inserts, write.IsFilled) ∧ update.IsFilled ∧ delete.IsFilled := by
  have checked : ((Catalog.build library).toOption.any fun catalog =>
      (catalog.find? "author").any fun author =>
        (classSchema ⟨.sqlite, none⟩ catalog "author").toOption.any fun schema =>
          decide (schema.insert.length = 2) &&
          decide (catalog.chain "author" = [author]) && decide (author.stored ≠ []) &&
          decide (author.identityTarget = some ("person", .extending)) &&
          decide (writableAttributes catalog "person" ≠ [])) = true := by
    decide +kernel
  simp only [Option.any_eq_true, toOption_eq_some_iff, Bool.and_eq_true, decide_eq_true_eq]
    at checked
  rcases checked with
    ⟨catalog, built, author, found, schema, generated, ⟨⟨⟨two, isChain⟩, stores⟩, isTarget⟩,
      targetStores⟩
  rcases writes_filled_iff built found generated with
    ⟨root, inserts, update, delete, isRoot, insert, updates, deletes, _, ofInserts, ofUpdate,
      deleteFilled⟩
  have passes : TargetStores catalog author := by
    intro target relationship isOther
    cases isTarget.symm.trans isOther
    exact targetStores
  have sameRoot : root = author := by
    rw [Catalog.root?, isChain] at isRoot
    exact (Option.some.inj isRoot).symm
  refine ⟨catalog, schema, inserts, update, delete, built, generated, insert, updates, deletes,
    ?_, ?_, ?_, deleteFilled⟩
  · rw [← two, insert, List.length_map]
  · intro write isWrite
    exact (ofInserts write isWrite).2.2.mpr ⟨.inr (sameRoot ▸ stores), passes⟩
  · apply ofUpdate.mpr
    exact ⟨⟨author, by rw [isChain]; exact List.mem_singleton_self _, stores⟩, passes⟩

/-! ## Classes without values -/

/-- A stamp extends a mark, and neither of them has values of its own. -/
def blankStamps : List ObjectClass :=
  [ObjectClass.declare "mark",
    { ObjectClass.declare "stamp" with extended := some "mark" }]

/-- The insert of a mark in SQLite names no column. -/
def insertMark : ViewWrite :=
  ⟨"insert_mark", .insert, "mark", none, [.insert "_mark" [] []]⟩

/-- The update of a mark has nothing to run. -/
def updateMark : ViewWrite :=
  ⟨"update_mark", .update, "mark", none, []⟩

/-- The insert of a stamp for an existing mark changes no column of the mark. -/
def extendStamp : ViewWrite :=
  ⟨"extend_stamp", .insert, "stamp", some ⟨"mark__id", false⟩,
    [.update "mark" [] (.new "mark__id"),
      .insert "_stamp" ["id", "mark_id"] [.nextNumber "seq_stamp", .new "mark__id"]]⟩

/-- Marks and stamps are accepted, and their writes are not filled. -/
theorem exists_unfilled_writes :
    ∃ catalog mark stamp,
      Catalog.build blankStamps = .ok catalog ∧
      classSchema ⟨.sqlite, none⟩ catalog "mark" = .ok mark ∧
      classSchema ⟨.postgres, none⟩ catalog "stamp" = .ok stamp ∧
      mark.insert = [.write insertMark] ∧
      mark.update = [.write updateMark] ∧
      .write extendStamp ∈ stamp.insert ∧
      ¬ insertMark.IsFilled ∧ ¬ updateMark.IsFilled ∧ ¬ extendStamp.IsFilled ∧
      insertMark.sql .sqlite =
        "CREATE TRIGGER insert_mark\nINSTEAD OF INSERT ON mark\nFOR EACH ROW\nBEGIN\n" ++
          "  INSERT INTO _mark ()\n  VALUES ();\nEND;" := by
  have checked : ((Catalog.build blankStamps).toOption.any fun catalog =>
      (classSchema ⟨.sqlite, none⟩ catalog "mark").toOption.any fun mark =>
        (classSchema ⟨.postgres, none⟩ catalog "stamp").toOption.any fun stamp =>
          decide (mark.insert = [.write insertMark]) &&
          decide (mark.update = [.write updateMark]) &&
          decide (.write extendStamp ∈ stamp.insert)) = true := by
    decide +kernel
  simp only [Option.any_eq_true, toOption_eq_some_iff, Bool.and_eq_true, decide_eq_true_eq]
    at checked
  rcases checked with
    ⟨catalog, built, mark, ofMark, stamp, ofStamp, ⟨inserts, updates⟩, extension⟩
  refine ⟨catalog, mark, stamp, built, ofMark, ofStamp, inserts, updates, extension, ?_, ?_, ?_, ?_⟩
  · intro isFilled
    exact isFilled.filled _ List.mem_cons_self rfl
  · intro isFilled
    exact isFilled.nonempty rfl
  · intro isFilled
    exact isFilled.filled _ List.mem_cons_self rfl
  · decide +kernel

end ClassStore.Schema
