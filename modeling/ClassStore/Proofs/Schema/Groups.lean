import ClassStore.Proofs.Schema.Setting
import ClassStore.Schema.Script

/-!
# Groups of statements

A schema that is generated for a class consists of parts that are generated one by
one: the table, the foreign keys, the collections with their members, the view and
the writes.  `exists_madeOf` gives the parts with the groups that are made of them,
and for each part there is a lemma about what the catalog says of it.
-/

namespace ClassStore.Schema

open ClassStore.Catalog

/-- What the statements for a class are made of. -/
structure SchemaParts where
  table : Table
  parentKeys : List ForeignKey
  referenceKeys : List ForeignKey
  memberships : List ClassSetting.Membership
  view : View
  inserts : List ViewWrite
  update : ViewWrite

namespace SchemaParts

variable
    (parts : SchemaParts)
    (setting : ClassSetting)

/-- The foreign keys of the class, those of its collections last. -/
def keys : List ForeignKey :=
  parts.parentKeys ++ parts.referenceKeys ++ parts.memberships.flatMap setting.junctionKeys

/-- The sequence and the tables of the class. -/
def tableStatements : List Statement :=
  setting.sequenceStatements ++
    .table parts.table ::
      parts.memberships.map fun membership => .junctionTable membership.junction

/-- The indexes of the tables. -/
def indexStatements : List Statement :=
  setting.indexes.map Statement.index ++
    parts.memberships.flatMap fun membership =>
      (junctionIndexes membership.junction).map Statement.index

/-- What works on the tables: indexes, constraints and procedures. -/
def ruleStatements : List Statement :=
  parts.indexStatements setting ++ setting.constraintStatements (parts.keys setting) ++
    parts.memberships.flatMap setting.procedureStatements

/-- The view of the class and those of its collections. -/
def viewStatements : List Statement :=
  .view parts.view ::
    parts.memberships.map fun membership =>
      .junctionView membership.junction membership.member.view

/-- What makes the view of the class writable. -/
def writeStatements : List Statement :=
  parts.inserts.map Statement.write ++ [.write parts.update, .write setting.deletes] ++
    setting.extraStatements

end SchemaParts

/-- The parts are those that are generated for the class, and the schema is made of them. -/
structure MadeOf (setting : ClassSetting) (schema : ClassSchema) (parts : SchemaParts) :
    Prop where
  table : setting.table = .ok parts.table
  parentKeys : setting.parentKeys = .ok parts.parentKeys
  referenceKeys : setting.referenceKeys setting.objectClass.stored = .ok parts.referenceKeys
  memberships : setting.memberships setting.objectClass.collections = .ok parts.memberships
  view : setting.view = .ok parts.view
  inserts : setting.inserts = .ok parts.inserts
  update : setting.updates = .ok parts.update
  statements :
    schema.statements =
      parts.tableStatements setting ++
        (parts.ruleStatements setting ++ (parts.viewStatements ++ parts.writeStatements setting))

namespace ClassSetting

variable
    {setting : ClassSetting}

theorem exists_madeOf
    {schema : ClassSchema}
    (outcome : setting.schema = .ok schema) :
    ∃ parts, MadeOf setting schema parts := by
  rcases exists_of_bind_eq_ok outcome with ⟨_, _, outcome⟩
  rcases exists_of_bind_eq_ok outcome with ⟨table, isTable, outcome⟩
  rcases exists_of_bind_eq_ok outcome with ⟨parentKeys, areParentKeys, outcome⟩
  rcases exists_of_bind_eq_ok outcome with ⟨referenceKeys, areReferenceKeys, outcome⟩
  rcases exists_of_bind_eq_ok outcome with ⟨memberships, areMemberships, outcome⟩
  rcases exists_of_bind_eq_ok outcome with ⟨view, isView, outcome⟩
  rcases exists_of_bind_eq_ok outcome with ⟨inserts, areInserts, outcome⟩
  rcases exists_of_bind_eq_ok outcome with ⟨update, isUpdate, outcome⟩
  cases outcome
  refine ⟨⟨table, parentKeys, referenceKeys, memberships, view, inserts, update⟩, isTable,
    areParentKeys, areReferenceKeys, areMemberships, isView, areInserts, isUpdate, ?_⟩
  simp [ClassSchema.statements, ClassSchema.groups, SchemaParts.keys, SchemaParts.tableStatements,
    SchemaParts.indexStatements, SchemaParts.ruleStatements, SchemaParts.viewStatements,
    SchemaParts.writeStatements]

/-- The tables and the inserts of a schema, after the defaults have been tested. -/
theorem tables_and_insert_of_schema
    {schema : ClassSchema}
    (outcome : setting.schema = .ok schema) :
    setting.checkDefaults setting.objectClass.storedValues = .ok () ∧
    ∃ table memberships inserts,
      setting.table = .ok table ∧
      setting.memberships setting.objectClass.collections = .ok memberships ∧
      setting.inserts = .ok inserts ∧
      schema.tables =
        .table table :: memberships.map (fun membership => .junctionTable membership.junction) ∧
      schema.insert = inserts.map Statement.write := by
  rcases exists_of_bind_eq_ok outcome with ⟨⟨⟩, tested, outcome⟩
  rcases exists_of_bind_eq_ok outcome with ⟨table, isTable, outcome⟩
  rcases exists_of_bind_eq_ok outcome with ⟨_, _, outcome⟩
  rcases exists_of_bind_eq_ok outcome with ⟨_, _, outcome⟩
  rcases exists_of_bind_eq_ok outcome with ⟨memberships, areMemberships, outcome⟩
  rcases exists_of_bind_eq_ok outcome with ⟨_, _, outcome⟩
  rcases exists_of_bind_eq_ok outcome with ⟨inserts, areInserts, outcome⟩
  rcases exists_of_bind_eq_ok outcome with ⟨_, _, outcome⟩
  cases outcome
  exact ⟨tested, table, memberships, inserts, isTable, areMemberships, areInserts, rfl, rfl⟩

/-- What a schema does in place of writes to the view of its class. -/
theorem writes_of_schema
    {schema : ClassSchema}
    (outcome : setting.schema = .ok schema) :
    ∃ inserts update,
      setting.inserts = .ok inserts ∧
      setting.updates = .ok update ∧
      schema.insert = inserts.map Statement.write ∧
      schema.update = [.write update] ∧
      schema.delete = [.write setting.deletes] := by
  rcases exists_of_bind_eq_ok outcome with ⟨_, _, outcome⟩
  rcases exists_of_bind_eq_ok outcome with ⟨_, _, outcome⟩
  rcases exists_of_bind_eq_ok outcome with ⟨_, _, outcome⟩
  rcases exists_of_bind_eq_ok outcome with ⟨_, _, outcome⟩
  rcases exists_of_bind_eq_ok outcome with ⟨_, _, outcome⟩
  rcases exists_of_bind_eq_ok outcome with ⟨_, _, outcome⟩
  rcases exists_of_bind_eq_ok outcome with ⟨inserts, areInserts, outcome⟩
  rcases exists_of_bind_eq_ok outcome with ⟨update, isUpdate, outcome⟩
  cases outcome
  exact ⟨inserts, update, areInserts, isUpdate, rfl, rfl, rfl⟩

/-! ## Tables and keys -/

theorem table_of_eq_ok
    {table : Table}
    (outcome : setting.table = .ok table) :
    table.name = setting.objectClass.table ∧ table.id = setting.idColumn := by
  rcases exists_of_bind_eq_ok outcome with ⟨columns, _, same⟩
  cases same
  exact ⟨rfl, rfl⟩

theorem column_of_eq_ok
    {attr : Attribute}
    {column : Column}
    (outcome : setting.columnFor attr = .ok column) :
    column.name = attr.storageColumn ∧
    column.required = attr.flags.required ∧
    column.default = setting.config.default? attr := by
  rw [columnFor] at outcome
  split at outcome
  · cases outcome
    exact ⟨rfl, rfl, rfl⟩
  · cases outcome

/-- Each attribute has its column, in the order of the attributes. -/
theorem columnsFor_eq_ok_iff
    {attributes : List Attribute}
    {columns : List Column} :
    setting.columnsFor attributes = .ok columns ↔
      attributes.map setting.columnFor = columns.map Except.ok := by
  induction attributes generalizing columns with
  | nil => simp [columnsFor, eq_comm (a := [])]
  | cons attr attributes inductionHypothesis =>
      rw [columnsFor, List.map_cons, eq_comm (b := columns.map Except.ok), List.map_eq_cons_iff]
      simp only [eq_comm (b := attributes.map setting.columnFor), ← inductionHypothesis]
      constructor
      · intro outcome
        rcases exists_of_bind_eq_ok outcome with ⟨column, isColumn, outcome⟩
        rcases exists_of_bind_eq_ok outcome with ⟨others, areOthers, same⟩
        cases same
        exact ⟨column, others, rfl, isColumn.symm, areOthers⟩
      · rintro ⟨column, others, rfl, isColumn, areOthers⟩
        rw [← isColumn, areOthers]
        rfl

section Columns

variable
    {table : Table}
    (outcome : setting.table = .ok table)

include outcome

theorem map_columnFor_stored :
    setting.objectClass.stored.map setting.columnFor = table.columns.map Except.ok := by
  rcases exists_of_bind_eq_ok outcome with ⟨columns, areColumns, same⟩
  cases same
  exact columnsFor_eq_ok_iff.mp areColumns

/-- The columns behind the number are called like those of the attributes. -/
theorem columnNames_of_eq_ok :
    table.columnNames = "id" :: setting.objectClass.stored.map Attribute.storageColumn := by
  have ofColumns : ∀ {attributes : List Attribute} {columns : List Column},
      attributes.map setting.columnFor = columns.map Except.ok →
        columns.map Column.name = attributes.map Attribute.storageColumn := by
    intro attributes columns same
    induction attributes generalizing columns with
    | nil =>
        rw [List.map_nil, eq_comm, List.map_eq_nil_iff] at same
        rw [same, List.map_nil, List.map_nil]
    | cons attr attributes inductionHypothesis =>
        rcases List.map_eq_cons_iff.mp same.symm with ⟨column, others, rfl, isColumn, areOthers⟩
        rw [List.map_cons, List.map_cons, (column_of_eq_ok isColumn.symm).1,
          inductionHypothesis areOthers.symm]
  rw [Table.columnNames, ofColumns (map_columnFor_stored outcome)]

/-- Every column of a table is one of a stored attribute. -/
theorem exists_stored_of_mem_columns
    {column : Column}
    (isColumn : column ∈ table.columns) :
    ∃ attr ∈ setting.objectClass.stored, setting.columnFor attr = .ok column := by
  have among := List.mem_map_of_mem (f := (.ok : Column → Except SchemaError Column)) isColumn
  rwa [← map_columnFor_stored outcome, List.mem_map] at among

/-- Every stored attribute has a column in the table. -/
theorem exists_column_of_mem_stored
    {attr : Attribute}
    (isStored : attr ∈ setting.objectClass.stored) :
    ∃ column ∈ table.columns, setting.columnFor attr = .ok column := by
  have among := List.mem_map_of_mem (f := setting.columnFor) isStored
  rw [map_columnFor_stored outcome, List.mem_map] at among
  simpa only [eq_comm] using among

end Columns

/-- The row of an object refers to its row in the table of the parent. -/
theorem parentKey_of_eq_ok
    {keys : List ForeignKey}
    (outcome : setting.parentKeys = .ok keys)
    {key : ForeignKey}
    (isKey : key ∈ keys) :
    key.table = setting.objectClass.table ∧
    ∃ parent target,
      setting.objectClass.parent = some parent ∧
      setting.catalog.find? parent = some target ∧
      key.target = target.table := by
  rw [parentKeys] at outcome
  split at outcome
  · cases outcome
    cases isKey
  · next parent isParent =>
      rcases exists_of_bind_eq_ok outcome with ⟨target, found, same⟩
      cases same
      rw [List.mem_singleton.mp isKey]
      exact ⟨rfl, parent, target, isParent, findClass_eq_ok_iff.mp found, rfl⟩

/-- A reference of a class is a key to the table of the other class. -/
theorem referenceKey_of_eq_ok
    {attributes : List Attribute}
    {keys : List ForeignKey}
    (outcome : setting.referenceKeys attributes = .ok keys)
    {key : ForeignKey}
    (isKey : key ∈ keys) :
    key.table = setting.objectClass.table ∧
    ∃ attr ∈ attributes, ∃ reference target,
      attr.reference = some reference ∧
      setting.catalog.find? reference.target = some target ∧
      key.target = target.table := by
  induction attributes generalizing keys with
  | nil =>
      cases outcome
      cases isKey
  | cons attr attributes inductionHypothesis =>
      rw [List.exists_mem_cons_iff]
      rw [referenceKeys] at outcome
      split at outcome
      · exact (inductionHypothesis outcome isKey).imp id .inr
      · next reference isReference =>
          rcases exists_of_bind_eq_ok outcome with ⟨target, found, outcome⟩
          rcases exists_of_bind_eq_ok outcome with ⟨others, ofOthers, same⟩
          cases same
          rcases List.mem_cons.mp isKey with rfl | isOther
          · exact ⟨rfl, .inl ⟨reference, target, isReference, findClass_eq_ok_iff.mp found, rfl⟩⟩
          · exact (inductionHypothesis ofOthers isOther).imp id .inr

/-- The members of a collection are objects of the class that the attribute refers to. -/
theorem membership_of_eq_ok
    {attributes : List Attribute}
    {memberships : List Membership}
    (outcome : setting.memberships attributes = .ok memberships)
    {membership : Membership}
    (isMembership : membership ∈ memberships) :
    ∃ attr ∈ attributes, ∃ reference,
      attr.junction = some membership.junction ∧
      attr.reference = some reference ∧
      setting.catalog.find? reference.target = some membership.member := by
  induction attributes generalizing memberships with
  | nil =>
      cases outcome
      cases isMembership
  | cons attr attributes inductionHypothesis =>
      rw [List.exists_mem_cons_iff]
      rw [ClassSetting.memberships] at outcome
      split at outcome
      · exact .inr (inductionHypothesis outcome isMembership)
      · next junction isJunction =>
          rcases exists_of_bind_eq_ok outcome with ⟨member, isMember, outcome⟩
          rcases exists_of_bind_eq_ok outcome with ⟨others, ofOthers, same⟩
          cases same
          rcases List.mem_cons.mp isMembership with rfl | isOther
          · rw [memberClass] at isMember
            split at isMember
            · cases isMember
            · next reference isReference =>
                exact .inl
                  ⟨reference, isJunction, isReference, findClass_eq_ok_iff.mp isMember⟩
          · exact .inr (inductionHypothesis ofOthers isOther)

/-- Every collection with a junction table has its members. -/
theorem exists_membership
    {attributes : List Attribute}
    {memberships : List Membership}
    (outcome : setting.memberships attributes = .ok memberships)
    {attr : Attribute}
    (isAttribute : attr ∈ attributes)
    {junction : Junction}
    (isJunction : attr.junction = some junction) :
    ∃ membership ∈ memberships, membership.junction = junction := by
  induction attributes generalizing memberships with
  | nil => cases isAttribute
  | cons first attributes inductionHypothesis =>
      rw [ClassSetting.memberships] at outcome
      rcases List.mem_cons.mp isAttribute with rfl | isOther
      · rw [isJunction] at outcome
        rcases exists_of_bind_eq_ok outcome with ⟨member, _, outcome⟩
        rcases exists_of_bind_eq_ok outcome with ⟨others, _, same⟩
        cases same
        exact ⟨_, List.mem_cons_self, rfl⟩
      · split at outcome
        · exact inductionHypothesis outcome isOther
        · rcases exists_of_bind_eq_ok outcome with ⟨member, _, outcome⟩
          rcases exists_of_bind_eq_ok outcome with ⟨others, ofOthers, same⟩
          cases same
          rcases inductionHypothesis ofOthers isOther with ⟨membership, isMembership, sameJunction⟩
          exact ⟨membership, List.mem_cons_of_mem _ isMembership, sameJunction⟩

/-! ## Indexes and rules -/

theorem table_of_mem_indexes
    {index : Index}
    (isIndex : index ∈ setting.indexes) :
    index.table = setting.objectClass.table := by
  rcases List.mem_filterMap.mp isIndex with ⟨attr, _, isFor⟩
  rw [indexFor?] at isFor
  repeat' split at isFor
  all_goals cases isFor
  all_goals rfl

theorem table_of_mem_junctionIndexes
    {junction : Junction}
    {index : Index}
    (isIndex : index ∈ junctionIndexes junction) :
    index.table = junction.table := by
  simp only [junctionIndexes, List.mem_cons, List.not_mem_nil, or_false] at isIndex
  rcases isIndex with rfl | rfl <;> rfl

/-- A rule for live objects looks up the state in the table of a class of the chain. -/
theorem tables_of_mem_softUniques
    {rule : SoftUnique}
    (isRule : rule ∈ setting.softUniques) :
    rule.table = setting.objectClass.table ∧
    ∃ holder ∈ setting.chain, rule.stateTable = holder.table := by
  rw [softUniques] at isRule
  split at isRule
  · cases isRule
  · next holder state isState =>
      split at isRule
      · cases isRule
      · rcases List.mem_map.mp isRule with ⟨attr, _, rfl⟩
        rcases List.exists_of_findSome?_eq_some isState with ⟨member, inChain, isHolder⟩
        rcases Option.map_eq_some_iff.mp isHolder with ⟨_, _, same⟩
        cases same
        exact ⟨rfl, holder, inChain, rfl⟩

/-! ## The view -/

theorem view_of_eq_ok
    {view : View}
    (outcome : setting.view = .ok view) :
    view.name = setting.objectClass.view ∧
    view.root = setting.root.table ∧
    chainJoins setting.catalog setting.root.key setting.chain = .ok view.joins := by
  rcases exists_of_bind_eq_ok outcome with ⟨joins, isJoins, same⟩
  cases same
  exact ⟨rfl, rfl, isJoins⟩

end ClassSetting

/-! ## The schema of a key -/

section Key

variable
    {config : Config}
    {catalog : Catalog}
    {key : String}
    {schema : ClassSchema}
    (generated : classSchema config catalog key = .ok schema)

include generated

/-- A schema that is generated for a key is that of the class with the key. -/
theorem exists_class_of_classSchema :
    ∃ objectClass,
      catalog.find? key = some objectClass ∧
      ClassSetting.schema ⟨config, catalog, objectClass, catalog.chain key⟩ = .ok schema := by
  rcases exists_of_bind_eq_ok generated with ⟨setting, isSetting, outcome⟩
  rcases exists_of_bind_eq_ok isSetting with ⟨objectClass, found, same⟩
  cases same
  exact ⟨objectClass, findClass_eq_ok_iff.mp found, outcome⟩

theorem schema_of_classSchema
    {objectClass : ObjectClass}
    (found : catalog.find? key = some objectClass) :
    ClassSetting.schema ⟨config, catalog, objectClass, catalog.chain key⟩ = .ok schema := by
  rcases exists_class_of_classSchema generated with ⟨other, otherFound, outcome⟩
  rw [found] at otherFound
  cases otherFound
  exact outcome

end Key

end ClassStore.Schema
