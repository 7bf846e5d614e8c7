import ClassStore.Proofs.Schema.DistinctNames
import ClassStore.Proofs.Schema.FirstFault
import ClassStore.Proofs.Schema.Groups

/-!
# Distinct columns

The attributes of a class have different names, but the columns of its table are named
by a rule: a reference adds an ending, and the number of the object has a column of its
own.  `nodup_columnNames_iff` says which names meet under this rule.  The columns of a
junction table are named after the two classes, where a special name tells the owner
from the member in a class that collects its own objects; `nodup_junctionColumns_iff`
says for which class that name does not help.
-/

namespace ClassStore.Catalog

/-! ## Columns of stored attributes -/

/-- The declaration leaves the columns of the table open. -/
def LeavesColumns (objectClass : ObjectClass) : Prop :=
  ∀ attr ∈ objectClass.attributes, attr.column = none

instance (objectClass : ObjectClass) : Decidable (LeavesColumns objectClass) := by
  unfold LeavesColumns
  infer_instance

namespace Attribute

/-- The column of the table that an attribute has if its declaration leaves it open. -/
def openStorage (attr : Attribute) : String :=
  if attr.reference.isSome then attr.name ++ "_id" else attr.name

theorem isReference_of_isStored
    {attr : Attribute}
    (stored : attr.isStored = true) :
    attr.isReference = attr.reference.isSome := by
  simp only [isStored, Bool.and_eq_true] at stored
  rw [isReference, stored.2, Bool.and_true]

theorem storageColumn_complete_eq
    {attr : Attribute}
    (isOpen : attr.column = none)
    (owner : String)
    (stored : (attr.complete owner).isStored = true) :
    (attr.complete owner).storageColumn = (attr.complete owner).openStorage := by
  rw [openStorage, name_complete]
  split
  · next isReference => exact storageColumn_complete isOpen owner stored isReference
  · next noReference =>
      rw [reference_complete, Option.not_isSome_iff_eq_none] at noReference
      rw [complete] at stored ⊢
      split at stored
      · simp [isStored, isOpen] at stored
      · next own =>
          rw [if_neg own]
          rw [← column_fixUuid] at isOpen
          rw [← reference_fixUuid] at noReference
          rw [← name_fixUuid]
          generalize attr.fixUuid = fixed at isOpen stored noReference ⊢
          have persistent : fixed.flags.persistent = true := by
            simp only [nameColumns, noReference, isStored, Bool.and_eq_true] at stored
            exact stored.1.1
          simp [nameColumns, noReference, storageColumn, columnOr, persistent, isOpen]

end Attribute

/-- The columns of the table of a class, the number first. -/
def ObjectClass.tableColumns (objectClass : ObjectClass) : List String :=
  "id" :: objectClass.stored.map Attribute.storageColumn

/-- No value of the class is called like the number or like the column of a reference. -/
structure ColumnsApart (objectClass : ObjectClass) : Prop where
  number : ∀ attr ∈ objectClass.storedValues, attr.name ≠ "id"
  reference :
    ∀ attr ∈ objectClass.storedValues, ∀ reference ∈ objectClass.stored,
      reference.isReference = true → attr.name ≠ reference.name ++ "_id"

/-- The column of a reference is never that of the number. -/
theorem append_id_ne_id (name : String) : name ++ "_id" ≠ "id" := by
  intro same
  have length := congrArg String.length same
  have ending : "_id".length = 3 := by
    rfl
  have whole : "id".length = 2 := by
    rfl
  rw [String.length_append] at length
  omega

namespace ResolvedTo

variable
    {classes : List ObjectClass}
    {declared resolved : ObjectClass}
    (resolvedTo : ResolvedTo classes declared resolved)

include resolvedTo

theorem nodup_stored : resolved.stored.Nodup :=
  resolvedTo.nodup_names.of_map.filter _

theorem eq_of_name_eq
    {attr other : Attribute}
    (isStored : attr ∈ resolved.stored)
    (otherStored : other ∈ resolved.stored)
    (sameName : attr.name = other.name) :
    attr = other :=
  List.inj_on_of_nodup_map resolvedTo.nodup_names (List.mem_filter.mp isStored).1
    (List.mem_filter.mp otherStored).1 sameName

variable
    (leavesColumns : LeavesColumns declared)

include leavesColumns

theorem storageColumn_eq
    {attr : Attribute}
    (isStored : attr ∈ resolved.stored) :
    attr.storageColumn = attr.openStorage := by
  have stored := (List.mem_filter.mp isStored).2
  rcases resolvedTo.cases_stored isStored with
    ⟨target, relationship, _, rfl⟩ | ⟨original, isDeclared, rfl⟩
  · exact Attribute.storageColumn_complete_eq rfl _ stored
  · exact Attribute.storageColumn_complete_eq (leavesColumns original isDeclared) _ stored

theorem storageColumn_of_value
    {attr : Attribute}
    (isStored : attr ∈ resolved.stored)
    (noReference : attr.isReference = false) :
    attr.storageColumn = attr.name := by
  rw [Attribute.isReference_of_isStored (List.mem_filter.mp isStored).2] at noReference
  simp [resolvedTo.storageColumn_eq leavesColumns isStored, Attribute.openStorage, noReference]

theorem storageColumn_of_reference
    {attr : Attribute}
    (isStored : attr ∈ resolved.stored)
    (isReference : attr.isReference = true) :
    attr.storageColumn = attr.name ++ "_id" := by
  rw [Attribute.isReference_of_isStored (List.mem_filter.mp isStored).2] at isReference
  simp [resolvedTo.storageColumn_eq leavesColumns isStored, Attribute.openStorage, isReference]

theorem columnsApart_of_nodup
    (distinct : resolved.tableColumns.Nodup) :
    ColumnsApart resolved := by
  rw [ObjectClass.tableColumns, List.nodup_cons] at distinct
  rcases distinct with ⟨noNumber, distinct⟩
  constructor
  · intro attr isValue isNumber
    rcases mem_storedValues_iff.mp isValue with ⟨isStored, noReference⟩
    apply noNumber
    rw [← isNumber, ← resolvedTo.storageColumn_of_value leavesColumns isStored noReference]
    exact List.mem_map_of_mem isStored
  · intro attr isValue reference refStored isReference sameName
    rcases mem_storedValues_iff.mp isValue with ⟨isStored, noReference⟩
    have sameColumn : attr.storageColumn = reference.storageColumn := by
      rw [resolvedTo.storageColumn_of_value leavesColumns isStored noReference,
        resolvedTo.storageColumn_of_reference leavesColumns refStored isReference, sameName]
    rw [List.inj_on_of_nodup_map distinct isStored refStored sameColumn, isReference]
      at noReference
    cases noReference

/-- Two values have different names, and so have two references, whose columns end alike. -/
theorem nodup_of_columnsApart
    (apart : ColumnsApart resolved) :
    resolved.tableColumns.Nodup := by
  have ofValue : ∀ {attr : Attribute}, attr ∈ resolved.stored → attr.isReference = false →
      attr.storageColumn = attr.name :=
    resolvedTo.storageColumn_of_value leavesColumns
  have ofReference : ∀ {attr : Attribute}, attr ∈ resolved.stored → attr.isReference = true →
      attr.storageColumn = attr.name ++ "_id" :=
    resolvedTo.storageColumn_of_reference leavesColumns
  rw [ObjectClass.tableColumns, List.nodup_cons,
    List.nodup_map_iff_inj_on resolvedTo.nodup_stored]
  constructor
  · intro isColumn
    rcases List.mem_map.mp isColumn with ⟨attr, isStored, isNumber⟩
    cases isReference : attr.isReference with
    | true =>
        rw [ofReference isStored isReference] at isNumber
        exact append_id_ne_id attr.name isNumber
    | false =>
        rw [ofValue isStored isReference] at isNumber
        exact apart.number attr (mem_storedValues_iff.mpr ⟨isStored, isReference⟩) isNumber
  -- The names are distinct, so only a value and a reference can meet.
  · intro attr isStored other otherStored sameColumn
    cases isReference : attr.isReference <;> cases otherReference : other.isReference
    · rw [ofValue isStored isReference, ofValue otherStored otherReference] at sameColumn
      exact resolvedTo.eq_of_name_eq isStored otherStored sameColumn
    · rw [ofValue isStored isReference, ofReference otherStored otherReference] at sameColumn
      exact absurd sameColumn (apart.reference attr
        (mem_storedValues_iff.mpr ⟨isStored, isReference⟩) other otherStored otherReference)
    · rw [ofReference isStored isReference, ofValue otherStored otherReference] at sameColumn
      exact absurd sameColumn.symm (apart.reference other
        (mem_storedValues_iff.mpr ⟨otherStored, otherReference⟩) attr isStored isReference)
    · rw [ofReference isStored isReference, ofReference otherStored otherReference] at sameColumn
      exact resolvedTo.eq_of_name_eq isStored otherStored
        ((String.append_left_inj _).mp sameColumn)

end ResolvedTo

/-! ## Junction tables -/

/-- The declaration leaves the junction tables of collections of its own open. -/
def LeavesJunctions (objectClass : ObjectClass) : Prop :=
  ∀ attr ∈ objectClass.attributes, attr.junction = none ∧ attr.delegatesTo = none

instance (objectClass : ObjectClass) : Decidable (LeavesJunctions objectClass) := by
  unfold LeavesJunctions
  infer_instance

/-- A collection of the class itself gets the default junction table. -/
theorem Attribute.junction_complete_eq
    {attr : Attribute}
    (isOpen : attr.junction = none)
    (isOwn : attr.delegatesTo = none)
    (isCollection : attr.isCollection = true)
    {reference : Reference}
    (isReference : attr.reference = some reference)
    (owner : String) :
    (attr.complete owner).junction =
      some (defaultJunction owner reference.target attr.name) := by
  have own : ¬ attr.isDelegated = true := by
    simp [isDelegated, isOwn]
  have sameCollection : attr.fixUuid.isCollection = true := by
    rw [fixUuid]
    split <;> exact isCollection
  rw [complete, if_neg own]
  rw [← junction_fixUuid] at isOpen
  rw [← reference_fixUuid] at isReference
  rw [← name_fixUuid]
  simp [nameColumns, isReference, sameCollection, isOpen]

/-- Every collection of a class that leaves junction tables open has the default one. -/
theorem ResolvedTo.junction_eq
    {classes : List ObjectClass}
    {declared resolved : ObjectClass}
    (resolvedTo : ResolvedTo classes declared resolved)
    (leavesJunctions : LeavesJunctions declared)
    {attr : Attribute}
    (isCollection : attr ∈ resolved.collections)
    {reference : Reference}
    (isReference : attr.reference = some reference) :
    attr.junction = some (defaultJunction resolved.key reference.target attr.name) := by
  rcases List.mem_filter.mp isCollection with ⟨isAttribute, collects⟩
  rw [resolvedTo.key]
  rcases resolvedTo.cases_attribute isAttribute with
    ⟨target, relationship, isTarget, rfl⟩ | ⟨original, isDeclared, rfl⟩ | isCopy
  · have single := ObjectClass.isSearchable_completedLink isTarget
    rw [Attribute.isSearchable_iff] at single
    cases single.2.symm.trans collects
  · rw [Attribute.isCollection, Attribute.relationship_complete] at collects
    rw [Attribute.reference_complete] at isReference
    rw [Attribute.name_complete]
    rcases leavesJunctions original isDeclared with ⟨isOpen, isOwn⟩
    exact Attribute.junction_complete_eq isOpen isOwn collects isReference declared.key
  · rcases mem_delegatedCopies isCopy with
      ⟨target, relationship, _, _, original, isTarget, _, _, _, _, rfl⟩
    have isMany : relationship = .hasMany := Option.some.inj (beq_iff_eq.mp collects)
    exact absurd isMany (ne_hasMany_of_identityTarget isTarget)

end ClassStore.Catalog

namespace ClassStore.Schema

open ClassStore.Catalog

theorem append_id_ne_append_order (front back : String) :
    front ++ "_id" ≠ back ++ "_order" := by
  intro same
  have last := congrArg (fun text : String => text.toList.getLast?) same
  simp at last

/-- The special name of the owner helps in any class but the one that is called like it. -/
theorem nodup_junctionColumns_iff (owner member name : String) :
    (junctionColumns (defaultJunction owner member name)).Nodup ↔
      ¬ (owner = "obj" ∧ member = "obj") := by
  have special : "obj_id" = "obj" ++ "_id" := by
    rfl
  have isSpecial : "obj_id" = member ++ "_id" ↔ member = "obj" := by
    rw [special, String.append_left_inj, eq_comm]
  have noOrder : ∀ front, front ++ "_id" ≠ member ++ "_order" := fun front =>
    append_id_ne_append_order front member
  by_cases self : member = owner
  · subst self
    have specialOrder : "obj_id" ≠ member ++ "_order" :=
      special ▸ noOrder "obj"
    simp [junctionColumns, defaultJunction, isSpecial, specialOrder, noOrder]
  · have apart : ¬ (owner = "obj" ∧ member = "obj") := fun both =>
      self (both.2.trans both.1.symm)
    simp [junctionColumns, defaultJunction, self, apart, noOrder, Ne.symm self]

/-! ## Tables of a class -/

/--
The columns of a table are distinct exactly if no name meets a derived one.

Where the declarations leave columns open, the table of a class has the column of the
number and one for each stored attribute.  These are distinct exactly if no stored value
is called like the number, and none is called like a stored reference of the class, its
link included, with the ending that the column of the reference has.
-/
theorem nodup_columnNames_iff
    {declared : List ObjectClass}
    {catalog : Catalog}
    (built : Catalog.build declared = .ok catalog)
    (leavesColumns : ∀ objectClass ∈ declared, LeavesColumns objectClass)
    {key : String}
    {objectClass : ObjectClass}
    (found : catalog.find? key = some objectClass) :
    (objectClass.tableColumns.Nodup ↔ ColumnsApart objectClass) ∧
    ∀ config schema, classSchema config catalog key = .ok schema →
      ∃ table,
        .table table ∈ schema.tables ∧
        table.name = objectClass.table ∧
        table.columnNames = objectClass.tableColumns := by
  constructor
  · rcases (resolved_of_build built).exists_settled found with ⟨original, isDeclared, settled⟩
    have leaves := leavesColumns original (findClass?_eq_some isDeclared).1
    exact ⟨settled.resolvedTo.columnsApart_of_nodup leaves,
      settled.resolvedTo.nodup_of_columnsApart leaves⟩
  · intro config schema generated
    rcases ClassSetting.tables_and_insert_of_schema (schema_of_classSchema generated found) with
      ⟨_, table, _, _, isTable, _, _, tables, _⟩
    refine ⟨table, ?_, (ClassSetting.table_of_eq_ok isTable).1,
      ClassSetting.columnNames_of_eq_ok isTable⟩
    rw [tables]
    exact List.mem_cons_self

/-- An issue has its number, a link to a volume, and a number in the volume. -/
theorem columns_of_issue_distinct :
    ∃ catalog objectClass,
      Catalog.build press = .ok catalog ∧
      (∀ declaration ∈ press, LeavesColumns declaration) ∧
      catalog.find? "issue" = some objectClass ∧
      objectClass.tableColumns = ["id", "volume_id", "number"] ∧
      ColumnsApart objectClass := by
  have checked : ((Catalog.build press).toOption.any fun catalog =>
      (catalog.find? "issue").any fun objectClass =>
        objectClass.tableColumns == ["id", "volume_id", "number"]) = true := by
    decide +kernel
  simp only [Option.any_eq_true, toOption_eq_some_iff, beq_iff_eq] at checked
  rcases checked with ⟨catalog, built, objectClass, found, columns⟩
  have leavesColumns : ∀ declaration ∈ press, LeavesColumns declaration := by decide
  refine ⟨catalog, objectClass, built, leavesColumns, found, columns, ?_⟩
  apply (nodup_columnNames_iff built leavesColumns found).1.mp
  rw [columns]
  decide

/-- Declarations of a class with two columns of one name: a value meets what is derived. -/
def crowded : List (List ObjectClass) :=
  [[classOf "a" [Attribute.declare "id" .string]],
   [classOf "b" [],
    classOf "a" [Attribute.declare "b_id" .string,
      (Attribute.declare "b" .whole).referringTo "b" .restrict]],
   [classOf "b" [],
    { classOf "a" [Attribute.declare "b_id" .string] with extended := some "b" }]]

/-- A value is called like the number, like the column of a reference, or like that of the link. -/
theorem columns_repeated_of_mem_crowded
    {declared : List ObjectClass}
    (isEntry : declared ∈ crowded) :
    (∀ objectClass ∈ declared, LeavesColumns objectClass) ∧
    ∃ catalog objectClass,
      Catalog.build declared = .ok catalog ∧
      catalog.find? "a" = some objectClass ∧
      ¬ objectClass.tableColumns.Nodup := by
  have checked : ∀ declared ∈ crowded,
      (∀ objectClass ∈ declared, LeavesColumns objectClass) ∧
      ((Catalog.build declared).toOption.any fun catalog =>
        (catalog.find? "a").any fun objectClass =>
          !decide objectClass.tableColumns.Nodup) = true := by
    decide +kernel
  rcases checked declared isEntry with ⟨leavesColumns, repeated⟩
  simp only [Option.any_eq_true, toOption_eq_some_iff, Bool.not_eq_true',
    decide_eq_false_iff_not] at repeated
  rcases repeated with ⟨catalog, built, objectClass, found, repeated⟩
  exact ⟨leavesColumns, catalog, objectClass, built, found, repeated⟩

/-- A value called like the number has the column of the number. -/
theorem exists_repeated_columns :
    (∀ objectClass ∈ [classOf "a" [Attribute.declare "id" .string]],
      LeavesColumns objectClass) ∧
    ∃ catalog objectClass,
      Catalog.build [classOf "a" [Attribute.declare "id" .string]] = .ok catalog ∧
      catalog.find? "a" = some objectClass ∧
      ¬ objectClass.tableColumns.Nodup :=
  columns_repeated_of_mem_crowded List.mem_cons_self

/-! ## Junction tables of a class -/

/--
The columns of a junction table are distinct in any class but one.

Where the declarations leave junction tables open, every collection with a target has
one, which is created with the tables of the class.  Its columns for the owner, the
member and the order are distinct, unless the class collects objects of its own and is
called by the special name that is to tell the two apart.
-/
theorem junction_columns_distinct_iff
    {declared : List ObjectClass}
    {catalog : Catalog}
    (built : Catalog.build declared = .ok catalog)
    (leavesJunctions : ∀ objectClass ∈ declared, LeavesJunctions objectClass)
    {key : String}
    {objectClass : ObjectClass}
    (found : catalog.find? key = some objectClass)
    {attr : Attribute}
    (isCollection : attr ∈ objectClass.collections)
    {reference : Reference}
    (isReference : attr.reference = some reference) :
    ∃ junction,
      attr.junction = some junction ∧
      (∀ config schema, classSchema config catalog key = .ok schema →
        .junctionTable junction ∈ schema.tables) ∧
      ((junctionColumns junction).Nodup ↔
        ¬ (objectClass.key = "obj" ∧ reference.target = "obj")) := by
  rcases (resolved_of_build built).exists_settled found with ⟨original, isDeclared, settled⟩
  have leaves := leavesJunctions original (findClass?_eq_some isDeclared).1
  have isJunction := settled.resolvedTo.junction_eq leaves isCollection isReference
  refine ⟨_, isJunction, ?_, nodup_junctionColumns_iff _ _ _⟩
  intro config schema generated
  rcases ClassSetting.tables_and_insert_of_schema (schema_of_classSchema generated found) with
    ⟨_, _, memberships, _, _, areMemberships, _, tables, _⟩
  rcases ClassSetting.exists_membership areMemberships isCollection isJunction with
    ⟨membership, isMembership, sameJunction⟩
  rw [tables, ← sameJunction]
  exact List.mem_cons_of_mem _
    (List.mem_map_of_mem (f := fun membership : ClassSetting.Membership =>
      Statement.junctionTable membership.junction) isMembership)

/-- The junction table of the issues of a journal has three columns. -/
theorem issues_of_journal_distinct :
    ∃ catalog objectClass attr junction,
      Catalog.build press = .ok catalog ∧
      (∀ declaration ∈ press, LeavesJunctions declaration) ∧
      catalog.find? "journal" = some objectClass ∧
      attr ∈ objectClass.collections ∧
      attr.reference = some ⟨"issue", .cascade⟩ ∧
      attr.junction = some junction ∧
      junctionColumns junction = ["journal_id", "issue_id", "issue_order"] ∧
      (junctionColumns junction).Nodup := by
  have checked : ((Catalog.build press).toOption.any fun catalog =>
      (catalog.find? "journal").any fun objectClass =>
        objectClass.collections.any fun attr =>
          attr.reference == some ⟨"issue", .cascade⟩ &&
            attr.junction.all (fun junction =>
              junctionColumns junction == ["journal_id", "issue_id", "issue_order"]) &&
            objectClass.key == "journal") = true := by
    decide +kernel
  simp only [Option.any_eq_true, toOption_eq_some_iff, List.any_eq_true, Bool.and_eq_true,
    Option.all_eq_true, beq_iff_eq] at checked
  rcases checked with
    ⟨catalog, built, objectClass, found, attr, isCollection, ⟨isReference, columns⟩, isJournal⟩
  have leavesJunctions : ∀ declaration ∈ press, LeavesJunctions declaration := by decide
  rcases junction_columns_distinct_iff built leavesJunctions found isCollection isReference with
    ⟨junction, isJunction, _, distinct⟩
  refine ⟨catalog, objectClass, attr, junction, built, leavesJunctions, found, isCollection,
    isReference, isJunction, columns junction isJunction, distinct.mpr ?_⟩
  rintro ⟨isSpecial, _⟩
  rw [isJournal] at isSpecial
  simp at isSpecial

/-- A class called by the special name collects its own objects: owner and member are one. -/
theorem exists_repeated_junction_columns :
    (∀ declaration ∈ [classOf "obj" [collectionOf "obj" "parts"]],
      LeavesJunctions declaration) ∧
    ∃ catalog objectClass attr junction,
      Catalog.build [classOf "obj" [collectionOf "obj" "parts"]] = .ok catalog ∧
      catalog.find? "obj" = some objectClass ∧
      attr ∈ objectClass.collections ∧
      attr.junction = some junction ∧
      junctionColumns junction = ["obj_id", "obj_id", "obj_order"] := by
  have checked : ((Catalog.build [classOf "obj" [collectionOf "obj" "parts"]]).toOption.any
      fun catalog => (catalog.find? "obj").any fun objectClass =>
        objectClass.collections.any fun attr =>
          attr.junction.any fun junction =>
            junctionColumns junction == ["obj_id", "obj_id", "obj_order"]) = true := by
    decide +kernel
  simp only [Option.any_eq_true, toOption_eq_some_iff, List.any_eq_true, beq_iff_eq] at checked
  rcases checked with
    ⟨catalog, built, objectClass, found, attr, isCollection, junction, isJunction, columns⟩
  exact ⟨by decide, catalog, objectClass, attr, junction, built, found, isCollection, isJunction,
    columns⟩

end ClassStore.Schema
