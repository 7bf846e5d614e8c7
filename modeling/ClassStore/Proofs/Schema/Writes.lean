import ClassStore.Proofs.Schema.Setting
import ClassStore.Schema.Write

/-!
# What writes do

A statement writes to one relation, assigns to columns of it and evaluates values
for that.  The values read columns of the row that is written through the view.  An
insert assigns each value to the column in the same place, and the inserts that are
generated have as many values as columns: `ClassSetting.isAligned_of_mem_inserts`.
The inserts into the tables of a chain differ only in the class and in the number
of the new row: `ClassSetting.insertRows_eq`.
-/

namespace ClassStore.Schema

open ClassStore.Catalog

/-! ## Values -/

/-- The column whose new value is read. -/
def Expression.reads? : Expression → Option String
  | .new column => some column
  | .newOrDefault column _ => some column
  | .newOrKept column _ => some column
  | .old _ => none
  | .nextNumber _ => none
  | .currentNumber _ => none
  | .greatestNumber _ => none
  | .lastRow => none

/-- The column whose old value is read. -/
def Expression.readsOld? : Expression → Option String
  | .old column => some column
  | .new _ => none
  | .newOrDefault _ _ => none
  | .newOrKept _ _ => none
  | .nextNumber _ => none
  | .currentNumber _ => none
  | .greatestNumber _ => none
  | .lastRow => none

/-- The column of the relation itself that keeps its value if none is given. -/
def Expression.keeps? : Expression → Option String
  | .newOrKept _ kept => some kept
  | .new _ => none
  | .old _ => none
  | .newOrDefault _ _ => none
  | .nextNumber _ => none
  | .currentNumber _ => none
  | .greatestNumber _ => none
  | .lastRow => none

/-- The value is known to the database and reads no column. -/
structure Expression.ReadsNothing (value : Expression) : Prop where
  new : value.reads? = none
  old : value.readsOld? = none
  kept : value.keeps? = none

theorem readsNothing_lastNumber (backend : Backend) (root : ObjectClass) :
    (lastNumber backend root).ReadsNothing := by
  cases backend <;> exact ⟨rfl, rfl, rfl⟩

/-- The number of a row is known to the database, whether the row is one of the root or not. -/
theorem ClassSetting.readsNothing_number
    {setting : ClassSetting}
    {number : Option Expression}
    (isNumber : number ∈ [setting.rootNumber?, some setting.inheritedNumber])
    {value : Expression}
    (isValue : value ∈ number) :
    value.ReadsNothing := by
  rcases List.mem_cons.mp isNumber with rfl | isInherited
  · rw [ClassSetting.rootNumber?] at isValue
    split at isValue
    · cases isValue
      exact ⟨rfl, rfl, rfl⟩
    · cases isValue
  · rw [List.mem_singleton.mp isInherited, ClassSetting.inheritedNumber] at isValue
    split at isValue
    · cases isValue
      exact readsNothing_lastNumber _ _
    · cases isValue
      exact ⟨rfl, rfl, rfl⟩

section NewValue

variable
    (config : Config)
    (attr : Attribute)

@[simp]
theorem reads?_newValue :
    (config.newValue attr).reads? = some attr.viewColumn := by
  rw [Config.newValue]
  split <;> rfl

@[simp]
theorem readsOld?_newValue :
    (config.newValue attr).readsOld? = none := by
  rw [Config.newValue]
  split <;> rfl

@[simp]
theorem keeps?_newValue :
    (config.newValue attr).keeps? = none := by
  rw [Config.newValue]
  split <;> rfl

@[simp]
theorem newValue_ne_nextNumber (sequence : String) :
    config.newValue attr ≠ .nextNumber sequence := by
  rw [Config.newValue]
  split <;> simp

end NewValue

/-! ## Statements -/

namespace WriteStatement

/-- The relation that is written to. -/
def target : WriteStatement → String
  | .insert target _ _ => target
  | .update target _ _ => target
  | .delete target => target

/-- The columns that are written to. -/
def columns : WriteStatement → List String
  | .insert _ columns _ => columns
  | .update _ assignments _ => assignments.map Assignment.column
  | .delete _ => []

/-- The columns with the values that they get. -/
def assignments : WriteStatement → List Assignment
  | .insert _ columns values => List.zipWith Assignment.mk columns values
  | .update _ assignments _ => assignments
  | .delete _ => []

/-- The values that are evaluated; a delete looks for the old number. -/
def values : WriteStatement → List Expression
  | .insert _ _ values => values
  | .update _ assignments id => id :: assignments.map Assignment.value
  | .delete _ => [.old "id"]

/-- The statement adds a row to the table. -/
def AddsRowTo (statement : WriteStatement) (table : String) : Prop :=
  ∃ columns values, statement = .insert table columns values

/-- The statement draws a number from the sequence. -/
def Draws (statement : WriteStatement) (sequence : String) : Prop :=
  .nextNumber sequence ∈ statement.values

/-- An insert has as many values as columns. -/
def IsAligned : WriteStatement → Prop
  | .insert _ columns values => columns.length = values.length
  | .update _ _ _ => True
  | .delete _ => True

/-- Columns and values that are taken from the same items belong together. -/
theorem zipWith_map_map
    {Item : Type}
    (items : List Item)
    (column : Item → String)
    (value : Item → Expression) :
    List.zipWith Assignment.mk (items.map column) (items.map value) =
      items.map fun item => ⟨column item, value item⟩ := by
  rw [List.zipWith_map, List.zipWith_self]

section Aligned

variable
    {columns : List String}
    {values : List Expression}
    (aligned : columns.length = values.length)

include aligned

theorem map_column_zipWith :
    (List.zipWith Assignment.mk columns values).map Assignment.column = columns := by
  rw [← List.map_uncurry_zip_eq_zipWith, List.map_map]
  exact List.map_fst_zip (Nat.le_of_eq aligned)

theorem map_value_zipWith :
    (List.zipWith Assignment.mk columns values).map Assignment.value = values := by
  rw [← List.map_uncurry_zip_eq_zipWith, List.map_map]
  exact List.map_snd_zip (Nat.le_of_eq aligned.symm)

end Aligned

end WriteStatement

theorem mem_writableAttributes_iff
    {catalog : Catalog}
    {key : String}
    {attr : Attribute} :
    attr ∈ writableAttributes catalog key ↔
      attr ∈ attributesOn catalog key ∧ attr.isStored = true := by
  simp only [writableAttributes, List.mem_flatMap, ObjectClass.stored, List.mem_filter,
    mem_attributesOn_iff]
  constructor
  · rintro ⟨member, inChain, isAttribute, stored⟩
    exact ⟨⟨member, inChain, isAttribute⟩, stored⟩
  · rintro ⟨⟨member, inChain, isAttribute⟩, stored⟩
    exact ⟨member, inChain, isAttribute, stored⟩

/-! ## Writes with and without a link -/

/-- The statement passes new values on to the view of the linked class, and reads nothing else. -/
structure WriteStatement.PassesOn (statement : WriteStatement) (catalog : Catalog)
    (target : ObjectClass) (link : Attribute) : Prop where
  relation : statement.target = target.view
  assigns :
    ∀ assignment ∈ statement.assignments,
      ∃ attr ∈ writableAttributes catalog target.key,
        assignment.column = attr.viewColumn ∧
        assignment.value ∈
          [.new (linkedColumn link attr), .newOrKept (linkedColumn link attr) attr.viewColumn]
  columns : ∀ column ∈ statement.columns, column ∈ statement.assignments.map Assignment.column
  values :
    ∀ value ∈ statement.values,
      value = .new link.viewColumn ∨ value ∈ statement.assignments.map Assignment.value

section PassesOn

variable
    (catalog : Catalog)
    (target : ObjectClass)
    (link : Attribute)

theorem assignments_createTarget :
    (createTarget catalog target link).assignments =
      (writableAttributes catalog target.key).map fun attr =>
        ⟨attr.viewColumn, .new (linkedColumn link attr)⟩ :=
  WriteStatement.zipWith_map_map _ _ _

theorem passesOn_createTarget :
    (createTarget catalog target link).PassesOn catalog target link := by
  have assignments := assignments_createTarget catalog target link
  refine ⟨rfl, ?_, ?_, ?_⟩
  · intro assignment isAssignment
    rw [assignments] at isAssignment
    rcases List.mem_map.mp isAssignment with ⟨attr, isWritable, rfl⟩
    exact ⟨attr, isWritable, rfl, List.mem_cons_self⟩
  · intro column isColumn
    rw [assignments, List.map_map]
    exact isColumn
  · intro value isValue
    rw [assignments, List.map_map]
    exact .inr isValue

theorem passesOn_amendTarget :
    (amendTarget catalog target link).PassesOn catalog target link := by
  refine ⟨rfl, ?_, fun _ => id, fun _ => List.mem_cons.mp⟩
  intro assignment isAssignment
  rcases List.mem_map.mp isAssignment with ⟨attr, isWritable, rfl⟩
  exact ⟨attr, isWritable, rfl, List.mem_cons_of_mem _ List.mem_cons_self⟩

theorem passesOn_updateTarget :
    (updateTarget catalog target link).PassesOn catalog target link := by
  refine ⟨rfl, ?_, fun _ => id, fun _ => List.mem_cons.mp⟩
  intro assignment isAssignment
  rcases List.mem_map.mp isAssignment with ⟨attr, isWritable, rfl⟩
  exact ⟨attr, isWritable, rfl, List.mem_cons_self⟩

end PassesOn

namespace ClassSetting

variable
    {setting : ClassSetting}

section Linked

variable
    {link : Attribute}
    {target : ObjectClass}
    (isLink : setting.objectClass.link? = some link)
    (linksTo : LinksTo setting.catalog link target)

include isLink linksTo

theorem inserts_of_linksTo :
    setting.inserts =
      .ok [setting.creatingInsert target link, setting.linkingInsert target link] := by
  rw [inserts, identity_of_linksTo isLink linksTo]
  rfl

theorem updates_of_linksTo :
    ∃ update,
      setting.updates = .ok update ∧
      update.view = setting.objectClass.view ∧
      update.condition = none ∧
      update.statements =
        setting.updateRows ++ [updateTarget setting.catalog target link] := by
  rw [updates, identity_of_linksTo isLink linksTo]
  exact ⟨_, rfl, rfl, rfl, rfl⟩

end Linked

section Unlinked

variable
    (noLink : setting.objectClass.link? = none)

include noLink

theorem inserts_of_noLink :
    setting.inserts = .ok [setting.plainInsert] := by
  rw [inserts, identity_of_noLink noLink]
  rfl

theorem updates_of_noLink :
    ∃ update,
      setting.updates = .ok update ∧
      update.view = setting.objectClass.view ∧
      update.condition = none ∧
      update.statements = setting.updateRows := by
  rw [updates, identity_of_noLink noLink]
  exact ⟨_, rfl, rfl, rfl, List.append_nil _⟩

end Unlinked

end ClassSetting

/-! ## Rows of a chain -/

namespace ClassSetting

variable
    {setting : ClassSetting}
    {linked number : Option Expression}
    {classes : List ObjectClass}
    {owner : ObjectClass}

/-- The inserts for the first classes of a chain. -/
def rowsFor (setting : ClassSetting) (linked : Option Expression) :
    List ObjectClass → List WriteStatement
  | [] => []
  | root :: descendants =>
      setting.insertRow linked setting.rootNumber? root ::
        descendants.map (setting.insertRow linked (some setting.inheritedNumber))

theorem insertRows_eq (setting : ClassSetting) (linked : Option Expression) :
    setting.insertRows linked = setting.rowsFor linked setting.chain := by
  rw [insertRows]
  cases setting.chain <;> rfl

/-- The number of a row that comes behind those of the given classes. -/
def numberBehind (setting : ClassSetting) : List ObjectClass → Option Expression
  | [] => setting.rootNumber?
  | _ :: _ => some setting.inheritedNumber

theorem rowsFor_concat (setting : ClassSetting) (linked : Option Expression)
    (classes : List ObjectClass) (last : ObjectClass) :
    setting.rowsFor linked (classes ++ [last]) =
      setting.rowsFor linked classes ++
        [setting.insertRow linked (setting.numberBehind classes) last] := by
  cases classes with
  | nil => rfl
  | cons root descendants =>
      rw [List.cons_append, rowsFor, List.map_append]
      rfl

/-- Every row is one of a class, with the number of a root or of a descendant. -/
theorem mem_rowsFor
    {statement : WriteStatement}
    (isRow : statement ∈ setting.rowsFor linked classes) :
    ∃ owner ∈ classes, ∃ number ∈ [setting.rootNumber?, some setting.inheritedNumber],
      statement = setting.insertRow linked number owner := by
  cases classes with
  | nil => cases isRow
  | cons root descendants =>
      rcases List.mem_cons.mp isRow with rfl | ofDescendant
      · exact ⟨root, List.mem_cons_self, _, List.mem_cons_self, rfl⟩
      · rcases List.mem_map.mp ofDescendant with ⟨owner, isDescendant, rfl⟩
        exact ⟨owner, List.mem_cons_of_mem _ isDescendant, _,
          List.mem_cons_of_mem _ List.mem_cons_self, rfl⟩

/-- Every class gets a row. -/
theorem exists_mem_rowsFor
    (isClass : owner ∈ classes) :
    ∃ number, setting.insertRow linked number owner ∈ setting.rowsFor linked classes := by
  cases classes with
  | nil => cases isClass
  | cons root descendants =>
      rcases List.mem_cons.mp isClass with rfl | isDescendant
      · exact ⟨_, List.mem_cons_self⟩
      · exact ⟨_, List.mem_cons_of_mem _ (List.mem_map_of_mem isDescendant)⟩

/-- The number comes first, and then the attributes that are stored. -/
theorem assignments_insertRow
    (setting : ClassSetting)
    (linked number : Option Expression)
    (owner : ObjectClass) :
    (setting.insertRow linked number owner).assignments =
      number.toList.map (fun value => ⟨"id", value⟩) ++
        owner.stored.map fun attr =>
          ⟨attr.storageColumn, setting.insertedValue linked owner attr⟩ := by
  have stored :=
    WriteStatement.zipWith_map_map owner.stored Attribute.storageColumn
      (setting.insertedValue linked owner)
  cases number with
  | none => exact stored
  | some value => exact congrArg (List.cons _) stored

theorem mem_assignments_insertRow_iff
    {assignment : Assignment} :
    assignment ∈ (setting.insertRow linked number owner).assignments ↔
      (∃ value ∈ number, assignment = ⟨"id", value⟩) ∨
      ∃ attr ∈ owner.stored,
        assignment = ⟨attr.storageColumn, setting.insertedValue linked owner attr⟩ := by
  simp [assignments_insertRow, eq_comm]

theorem mem_columns_insertRow_iff
    {column : String} :
    column ∈ (setting.insertRow linked number owner).columns ↔
      (number.isSome ∧ column = "id") ∨ ∃ attr ∈ owner.stored, column = attr.storageColumn := by
  cases number <;> simp [insertRow, WriteStatement.columns, eq_comm]

theorem mem_values_insertRow_iff
    {value : Expression} :
    value ∈ (setting.insertRow linked number owner).values ↔
      value ∈ number ∨ ∃ attr ∈ owner.stored, value = setting.insertedValue linked owner attr := by
  simp [insertRow, WriteStatement.values, eq_comm]

/-- An attribute gets its new value or, if it is the link, the number of the linked object. -/
theorem insertedValue_eq_or
    (setting : ClassSetting)
    (linked : Option Expression)
    (owner : ObjectClass)
    (attr : Attribute) :
    setting.insertedValue linked owner attr = setting.config.newValue attr ∨
    setting.isLink owner attr = true ∧ setting.insertedValue linked owner attr ∈ linked := by
  cases linked with
  | none => exact .inl rfl
  | some value =>
      rw [insertedValue.eq_def]
      cases setting.isLink owner attr <;> simp

@[simp]
theorem addsRowTo_insertRow_iff
    {table : String} :
    (setting.insertRow linked number owner).AddsRowTo table ↔ owner.table = table := by
  simp [insertRow, WriteStatement.AddsRowTo]

/-- There is always something to do on insert. -/
theorem ne_nil_of_inserts
    {inserts : List ViewWrite}
    (outcome : setting.inserts = .ok inserts) :
    inserts ≠ [] := by
  rcases exists_of_bind_eq_ok outcome with ⟨identity, _, outcome⟩
  cases identity <;> cases outcome <;> simp

/-- An insert passes values on to the view of the linked class, and then adds its rows. -/
theorem statements_of_mem_inserts
    {inserts : List ViewWrite}
    (outcome : setting.inserts = .ok inserts)
    {write : ViewWrite}
    (isWrite : write ∈ inserts) :
    ∃ passing linked,
      write.statements = passing ++ setting.insertRows linked ∧
      (∀ statement ∈ passing, ∃ target link, statement.PassesOn setting.catalog target link) ∧
      ∀ value ∈ linked, ∃ root, value = lastNumber setting.backend root := by
  rcases exists_of_bind_eq_ok outcome with ⟨identity, _, outcome⟩
  cases identity with
  | none =>
      cases outcome
      rw [List.mem_singleton.mp isWrite]
      exact ⟨[], none, rfl, nofun, nofun⟩
  | some identity =>
      rcases identity with ⟨target, link⟩
      cases outcome
      simp only [List.mem_cons, List.not_mem_nil, or_false] at isWrite
      rcases isWrite with rfl | rfl
      · refine ⟨[createTarget setting.catalog target link], some _, rfl, ?_, ?_⟩
        · intro statement isPassing
          rw [List.mem_singleton.mp isPassing]
          exact ⟨target, link, passesOn_createTarget _ _ _⟩
        · rintro value ⟨⟩
          exact ⟨_, rfl⟩
      · refine ⟨[amendTarget setting.catalog target link], none, rfl, ?_, nofun⟩
        intro statement isPassing
        rw [List.mem_singleton.mp isPassing]
        exact ⟨target, link, passesOn_amendTarget _ _ _⟩

/-- The columns and the values of an insert come in step. -/
theorem isAligned_insertRow :
    (setting.insertRow linked number owner).IsAligned := by
  cases number <;> simp [insertRow, WriteStatement.IsAligned]

theorem isAligned_of_mem_insertRows
    {statement : WriteStatement}
    (isRow : statement ∈ setting.insertRows linked) :
    statement.IsAligned := by
  rw [insertRows_eq] at isRow
  rcases mem_rowsFor isRow with ⟨owner, _, number, _, rfl⟩
  exact isAligned_insertRow

theorem isAligned_of_mem_inserts
    {inserts : List ViewWrite}
    (outcome : setting.inserts = .ok inserts)
    {write : ViewWrite}
    (isWrite : write ∈ inserts) :
    ∀ statement ∈ write.statements, statement.IsAligned := by
  rcases exists_of_bind_eq_ok outcome with ⟨identity, _, outcome⟩
  cases identity with
  | none =>
      cases outcome
      rw [List.mem_singleton.mp isWrite]
      exact fun statement => isAligned_of_mem_insertRows
  | some identity =>
      rcases identity with ⟨target, link⟩
      cases outcome
      simp only [List.mem_cons, List.not_mem_nil, or_false] at isWrite
      rcases isWrite with rfl | rfl
      · refine List.forall_mem_cons.mpr ⟨?_, fun statement => isAligned_of_mem_insertRows⟩
        rw [createTarget, WriteStatement.IsAligned, List.length_map, List.length_map]
      · exact List.forall_mem_cons.mpr ⟨trivial, fun statement => isAligned_of_mem_insertRows⟩

theorem exists_addsRowTo_iff
    {table : String} :
    (∃ statement ∈ setting.rowsFor linked classes, statement.AddsRowTo table) ↔
      ∃ owner ∈ classes, owner.table = table := by
  constructor
  · rintro ⟨statement, isRow, adds⟩
    rcases mem_rowsFor isRow with ⟨owner, isClass, number, _, rfl⟩
    exact ⟨owner, isClass, addsRowTo_insertRow_iff.mp adds⟩
  · rintro ⟨owner, isClass, sameTable⟩
    have row : ∃ number,
        setting.insertRow linked number owner ∈ setting.rowsFor linked classes :=
      exists_mem_rowsFor isClass
    rcases row with ⟨number, isRow⟩
    exact ⟨_, isRow, addsRowTo_insertRow_iff.mpr sameTable⟩

end ClassSetting

end ClassStore.Schema
