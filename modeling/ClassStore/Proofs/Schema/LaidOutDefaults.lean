import ClassStore.Proofs.Schema.WrittenDefaults
import ClassStore.Proofs.Text.Layout

/-!
# Defaults that are laid out

A default is written into the table of its class as it is, and into an insert that is
indented as a whole afterwards.  `sql_insert_laidOut` says what an insert reads after
that: each of its parts is shifted by itself.  So the two expressions for a default are
the same exactly if it has no line feed (`default_laid_out_iff`).
-/

namespace ClassStore.Schema

open ClassStore.Catalog

/-! ## Inserts that are laid out -/

/-- A part of a statement as it reads in a rule or trigger. -/
def laidOut (part : String) : String :=
  Text.shift 2 part

/-- An insert as it reads in a rule or trigger, with its columns and their values. -/
def insertText (relation : String) (entries : List (String × String)) : String :=
  "  INSERT INTO " ++ relation ++ " (" ++ ", ".intercalate (entries.map Prod.fst) ++
    ")\n  VALUES (" ++ ", ".intercalate (entries.map Prod.snd) ++ ");"

section Insert

variable
    (backend : Backend)
    (target : String)
    (columns : List String)
    (values : List Expression)

theorem sql_insert :
    (WriteStatement.insert target columns values).sql backend =
      "INSERT INTO " ++ target ++ " (" ++ ", ".intercalate columns ++ ")\nVALUES (" ++
        ", ".intercalate (values.map (Expression.sql backend)) ++ ")" :=
  rfl

theorem opensInline_sql_insert :
    Text.opensInline ((WriteStatement.insert target columns values).sql backend) = true := by
  rw [sql_insert]
  simp only [String.append_assoc]
  exact Text.opensInline_append (by decide) _

theorem closesInline_sql_insert :
    Text.closesInline ((WriteStatement.insert target columns values).sql backend) = true := by
  rw [sql_insert]
  exact Text.closesInline_append (by decide) _

/-- An insert is laid out part by part; its second line is moved as well. -/
theorem laidOut_sql_insert :
    laidOut ((WriteStatement.insert target columns values).sql backend) =
      "INSERT INTO " ++ laidOut target ++ " (" ++ ", ".intercalate (columns.map laidOut) ++
        ")\n  VALUES (" ++
        ", ".intercalate (values.map fun value => laidOut (value.sql backend)) ++ ")" := by
  rw [sql_insert, laidOut, Text.shift_append (.inr (by decide)),
    Text.shift_append (.inl (Text.closesInline_append (by decide) _)),
    Text.shift_append (.inr (by decide)),
    Text.shift_append (.inl (Text.closesInline_append (by decide) _)),
    Text.shift_append (.inr (by decide)), Text.shift_append (.inl (by decide)),
    Text.shift_intercalate, Text.shift_intercalate, List.map_map]
  rfl

/-- An insert with as many values as columns is laid out entry by entry. -/
theorem indent_sql_insert
    (aligned : columns.length = values.length) :
    Text.indent 2 ((WriteStatement.insert target columns values).sql backend) ++ ";" =
      insertText (laidOut target)
        ((List.zipWith Assignment.mk columns values).map fun assignment =>
          (laidOut assignment.column, laidOut (assignment.value.sql backend))) := by
  have front : "  INSERT INTO " = String.ofList (List.replicate 2 ' ') ++ "INSERT INTO " := by
    rfl
  have back : ");" = ")" ++ ";" := by
    rfl
  have laidColumns :
      ((List.zipWith Assignment.mk columns values).map fun assignment =>
        (laidOut assignment.column, laidOut (assignment.value.sql backend))).map Prod.fst =
        columns.map laidOut := by
    conv_rhs => rw [← WriteStatement.map_column_zipWith aligned]
    rw [List.map_map, List.map_map]
    rfl
  have laidValues :
      ((List.zipWith Assignment.mk columns values).map fun assignment =>
        (laidOut assignment.column, laidOut (assignment.value.sql backend))).map Prod.snd =
        values.map fun value => laidOut (value.sql backend) := by
    conv_rhs => rw [← WriteStatement.map_value_zipWith aligned]
    rw [List.map_map, List.map_map]
    rfl
  rw [Text.indent_of_inline (opensInline_sql_insert backend target columns values)
    (closesInline_sql_insert backend target columns values), ← laidOut, laidOut_sql_insert]
  change _ = "  INSERT INTO " ++ laidOut target ++ " (" ++ ", ".intercalate (List.map _ _) ++
    ")\n  VALUES (" ++ ", ".intercalate (List.map _ _) ++ ");"
  rw [laidColumns, laidValues, front, back]
  simp only [String.append_assoc]

end Insert

theorem laidOut_sql_newOrDefault (backend : Backend) (column : String) (value : DefaultValue) :
    laidOut ((Expression.newOrDefault column value).sql backend) =
      "COALESCE(NEW." ++ laidOut column ++ ", " ++ laidOut (value.sql backend) ++ ")" := by
  -- Said as an equation, since unfolding `sql` would take the appended texts apart as well.
  have written : (Expression.newOrDefault column value).sql backend =
      "COALESCE(NEW." ++ column ++ ", " ++ value.sql backend ++ ")" := by
    rfl
  rw [written, laidOut, Text.shift_append (.inr (by decide)),
    Text.shift_append (.inl (Text.closesInline_append (by decide) _)),
    Text.shift_append (.inr (by decide)), Text.shift_append (.inl (by decide))]
  rfl

/-- A rule or trigger has each of its statements, laid out. -/
theorem contains_sql_of_mem_statements
    {write : ViewWrite}
    {statement : WriteStatement}
    (isStatement : statement ∈ write.statements)
    (backend : Backend) :
    Text.Contains (write.sql backend) (Text.indent 2 (statement.sql backend) ++ ";") := by
  have inBlock : Text.Contains
      (statementBlock (write.statements.map (WriteStatement.sql backend)))
      (Text.indent 2 (statement.sql backend) ++ ";") := by
    apply Text.contains_intercalate
    rw [List.map_map]
    exact List.mem_map_of_mem isStatement
  cases backend with
  | postgres => exact inBlock.within _ _
  | sqlite => exact inBlock.within _ _

/-! ## Expressions for a default -/

/-- The expression for a declared default has the line feeds of its text, if any text is left. -/
theorem lineFeed_mem_sql_iff
    {backend : Backend}
    {type : SemanticType}
    {text : String} :
    '\n' ∈ ((DefaultValue.ofText type text).sql backend).toList ↔
      type ≠ .boolean ∧ '\n' ∈ text.toList := by
  by_cases boolean : type = .boolean
  · subst boolean
    have oneLine : ∀ value, '\n' ∉ (truthLiteral backend value).toList := by
      cases backend <;> decide
    simp [sql_ofText_boolean, oneLine]
  · cases integral : type.isIntegral with
    | true => simp [sql_ofText_of_isIntegral integral, boolean]
    | false =>
        have doubled : '\n' ∈ Sql.doubleQuotes text.toList ↔ '\n' ∈ text.toList := by
          rw [← List.count_pos_iff, Sql.count_doubleQuotes, ← List.count_pos_iff,
            if_neg (by decide), Nat.one_mul]
        simp [sql_ofText_of_ne_boolean integral boolean, boolean, Sql.literal, doubled]

theorem default?_completedLink
    (config : Config)
    (objectClass : ObjectClass)
    (target : String)
    (relationship : Relationship) :
    config.default? (objectClass.completedLink target relationship) = none := by
  rw [Config.default?, ObjectClass.completedLink, Attribute.initial_complete,
    Attribute.type_complete]
  rfl

/-- The table in the schema has the expression as the default of the attribute. -/
def DefaultInTable (backend : Backend) (schema : ClassSchema) (owner : ObjectClass)
    (attr : Attribute) (expression : String) : Prop :=
  ∃ table type,
    .table table ∈ schema.tables ∧
    table.name = owner.table ∧
    attr.storageColumn ++ " " ++ type ++ (if attr.flags.required then " NOT NULL" else "") ++
      " DEFAULT " ++ expression ∈ table.columns.map (Column.sql backend)

/-- The statement inserts the new value of the attribute into the table, or else the expression. -/
def DefaultInInsert (backend : Backend) (statement : Statement) (owner : ObjectClass)
    (attr : Attribute) (expression : String) : Prop :=
  ∃ entries,
    Text.Contains (statement.sql backend) (insertText (laidOut owner.table) entries) ∧
    (laidOut attr.storageColumn,
      "COALESCE(NEW." ++ laidOut attr.viewColumn ++ ", " ++ expression ++ ")") ∈ entries

namespace ClassSetting

variable
    {declared : List ObjectClass}
    {setting : ClassSetting}

theorem defaultInTable
    {schema : ClassSchema}
    (outcome : setting.schema = .ok schema)
    {attr : Attribute}
    (isStored : attr ∈ setting.objectClass.stored)
    {value : DefaultValue}
    (hasDefault : setting.config.default? attr = some value) :
    DefaultInTable setting.backend schema setting.objectClass attr (value.sql setting.backend) := by
  rcases tables_and_insert_of_schema outcome with
    ⟨_, table, _, _, isTable, _, _, tables, _⟩
  rcases exists_column_of_mem_stored isTable isStored with ⟨column, isColumn, ofAttr⟩
  have inTables : .table table ∈ schema.tables := by
    rw [tables]
    exact List.mem_cons_self
  refine ⟨table, column.type, inTables, (table_of_eq_ok isTable).1, ?_⟩
  rcases column_of_eq_ok ofAttr with ⟨name, required, default⟩
  rw [hasDefault] at default
  rw [← name, ← required]
  have written := List.mem_map_of_mem (f := Column.sql setting.backend) isColumn
  rcases column with ⟨columnName, type, isRequired, _⟩
  cases default
  rw [String.append_assoc]
  exact written

/-- An attribute with a default is not the link, so each insert falls back to the default. -/
theorem insertedValue_of_default
    (resolvedCatalog : ResolvedCatalog declared setting.catalog)
    (found : setting.catalog.find? setting.objectClass.key = some setting.objectClass)
    {owner : ObjectClass}
    (inChain : owner ∈ setting.catalog.chain setting.objectClass.key)
    {attr : Attribute}
    (isStored : attr ∈ owner.stored)
    {value : DefaultValue}
    (hasDefault : setting.config.default? attr = some value)
    (linked : Option Expression) :
    setting.insertedValue linked owner attr = .newOrDefault attr.viewColumn value := by
  rcases setting.insertedValue_eq_or linked owner attr with isNew | ⟨isLink, _⟩
  · rw [isNew, Config.newValue, hasDefault]
  -- The link is a completed one, and these are declared without a default.
  · rw [ClassSetting.isLink, Bool.and_eq_true, beq_iff_eq, Option.any_eq_true] at isLink
    rcases isLink with ⟨sameKey, link, isLink, sameName⟩
    rcases resolvedCatalog.exists_settled found with ⟨declaration, _, settled⟩
    have noDefault : setting.config.default? link = none := by
      rcases Option.bind_eq_some_iff.mp isLink with ⟨⟨target, relationship⟩, isTarget, _⟩
      rw [settled.resolvedTo.identityTarget] at isTarget
      rw [settled.resolvedTo.link?_eq isTarget] at isLink
      cases isLink
      exact default?_completedLink _ _ _ _
    have sameOwner : owner = setting.objectClass := by
      have foundOwner := resolvedCatalog.find?_of_mem_chain inChain
      rw [sameKey, found] at foundOwner
      exact (Option.some.inj foundOwner).symm
    have sameAttr : link = attr := by
      apply List.inj_on_of_nodup_map settled.resolvedTo.nodup_names
        (ObjectClass.mem_attributes_of_link? isLink) _ (beq_iff_eq.mp sameName)
      rw [← sameOwner]
      exact (List.mem_filter.mp isStored).1
    rw [sameAttr, hasDefault] at noDefault
    cases noDefault

theorem defaultInInsert
    (resolvedCatalog : ResolvedCatalog declared setting.catalog)
    (sameChain : setting.chain = setting.catalog.chain setting.objectClass.key)
    (found : setting.catalog.find? setting.objectClass.key = some setting.objectClass)
    {inserts : List ViewWrite}
    (outcome : setting.inserts = .ok inserts)
    {write : ViewWrite}
    (isWrite : write ∈ inserts)
    {owner : ObjectClass}
    (inChain : owner ∈ setting.chain)
    {attr : Attribute}
    (isStored : attr ∈ owner.stored)
    {value : DefaultValue}
    (hasDefault : setting.config.default? attr = some value) :
    DefaultInInsert setting.backend (.write write) owner attr
      (laidOut (value.sql setting.backend)) := by
  rcases statements_of_mem_inserts outcome isWrite with ⟨passing, linked, statements, _, _⟩
  rcases exists_mem_rowsFor inChain with ⟨number, isRow⟩
  have isStatement : setting.insertRow linked number owner ∈ write.statements := by
    rw [statements, insertRows_eq]
    exact List.mem_append_right passing isRow
  have contains := contains_sql_of_mem_statements isStatement setting.backend
  rw [insertRow, indent_sql_insert _ _ _ _ isAligned_insertRow] at contains
  refine ⟨_, contains, ?_⟩
  have isAssignment : ⟨attr.storageColumn, setting.insertedValue linked owner attr⟩ ∈
      (setting.insertRow linked number owner).assignments :=
    mem_assignments_insertRow_iff.mpr (.inr ⟨attr, isStored, rfl⟩)
  rw [insertedValue_of_default resolvedCatalog found (sameChain ▸ inChain) isStored hasDefault]
    at isAssignment
  refine List.mem_map.mpr ⟨_, isAssignment, ?_⟩
  rw [laidOut_sql_newOrDefault]

end ClassSetting

/--
A default is the same in the table and in an insert exactly if it has no line feed.

Wherever an attribute on the chain of a class is declared with a default, the table of
its class has the expression for it as it is, and each insert of the class has the same
expression, laid out.  That changes the expression exactly if the declared text has a
line feed and is not read as a truth value.
-/
theorem default_laid_out_iff
    {declared : List ObjectClass}
    {catalog : Catalog}
    (built : Catalog.build declared = .ok catalog)
    {config : Config}
    {key : String}
    {schema : ClassSchema}
    (generated : classSchema config catalog key = .ok schema)
    {owner : ObjectClass}
    (inChain : owner ∈ catalog.chain key)
    {attr : Attribute}
    (isStored : attr ∈ owner.stored)
    {text : String}
    (isInitial : attr.initial = some text) :
    ∃ expression,
      expression = (DefaultValue.ofText attr.type text).sql config.backend ∧
      (∀ ownSchema, classSchema config catalog owner.key = .ok ownSchema →
        DefaultInTable config.backend ownSchema owner attr expression) ∧
      schema.insert ≠ [] ∧
      (∀ statement ∈ schema.insert,
        DefaultInInsert config.backend statement owner attr (laidOut expression)) ∧
      (laidOut expression = expression ↔ attr.type = .boolean ∨ '\n' ∉ text.toList) := by
  have resolvedCatalog := resolved_of_build built
  have hasDefault := Config.default?_of_initial isInitial config
  refine ⟨_, rfl, ?_, ?_⟩
  · intro ownSchema ownGenerated
    have outcome :=
      schema_of_classSchema ownGenerated (resolvedCatalog.find?_of_mem_chain inChain)
    exact ClassSetting.defaultInTable outcome isStored hasDefault
  · rcases exists_class_of_classSchema generated with ⟨objectClass, found, outcome⟩
    cases (findClass?_eq_some found).2
    rcases ClassSetting.tables_and_insert_of_schema outcome with
      ⟨_, _, _, inserts, _, _, areInserts, _, insert⟩
    refine ⟨?_, ?_, ?_⟩
    · rw [insert, ne_eq, List.map_eq_nil_iff]
      exact ClassSetting.ne_nil_of_inserts areInserts
    · rw [insert]
      intro statement isStatement
      rcases List.mem_map.mp isStatement with ⟨write, isWrite, rfl⟩
      exact ClassSetting.defaultInInsert resolvedCatalog rfl found areInserts isWrite inChain
        isStored hasDefault
    · rw [laidOut, Text.shift_eq_iff (by decide), lineFeed_mem_sql_iff, not_and_or, not_ne_iff]

/-- The inserts of a journal fall back to the state that the table of works has as its default. -/
theorem state_of_journal_laid_out :
    ∃ catalog schema workSchema owner attr,
      Catalog.build press = .ok catalog ∧
      classSchema .standard catalog "journal" = .ok schema ∧
      classSchema .standard catalog owner.key = .ok workSchema ∧
      owner ∈ catalog.chain "journal" ∧
      attr ∈ owner.stored ∧
      attr.initial = some "1" ∧
      DefaultInTable .postgres workSchema owner attr "1" ∧
      ∀ statement ∈ schema.insert, DefaultInInsert .postgres statement owner attr "1" := by
  have checked : ((Catalog.build press).toOption.any fun catalog =>
      (classSchema .standard catalog "journal").toOption.any fun schema =>
        (catalog.chain "journal").any fun owner =>
          (classSchema .standard catalog owner.key).toOption.any fun _ =>
            owner.stored.any fun attr =>
              attr.initial == some "1" && attr.type == .state) = true := by
    decide +kernel
  simp only [Option.any_eq_true, toOption_eq_some_iff, Bool.and_eq_true, List.any_eq_true,
    beq_iff_eq] at checked
  rcases checked with ⟨catalog, built, schema, generated, owner, inChain, workSchema, ofOwner,
    attr, isStored, isInitial, isState⟩
  rcases default_laid_out_iff built generated inChain isStored isInitial with
    ⟨expression, isExpression, inTable, _, inInserts, unchanged⟩
  have numeral : expression = "1" := by
    rw [isExpression, isState]
    rfl
  rw [unchanged.mpr (.inr (by decide)), numeral] at inInserts
  exact ⟨catalog, schema, workSchema, owner, attr, built, generated, ofOwner, inChain, isStored,
    isInitial, numeral ▸ inTable workSchema ofOwner, inInserts⟩

/-- Of a note with a default on two lines: what its table reads, and what its insert reads. -/
def noteTexts : List (Backend × String × String) :=
  [(.postgres,
    "CREATE TABLE _note (\n    id INTEGER NOT NULL DEFAULT NEXTVAL('seq_note'),\n" ++
      "    text TEXT DEFAULT 'a\nb'\n);",
    "CREATE RULE insert_note AS\nON INSERT TO note DO INSTEAD (\n" ++
      "  INSERT INTO _note (id, text)\n" ++
      "  VALUES (NEXTVAL('seq_note'), COALESCE(NEW.text, 'a\n  b'));\n);"),
   (.sqlite,
    "CREATE TABLE _note (\n    id INTEGER PRIMARY KEY AUTOINCREMENT,\n" ++
      "    text TEXT DEFAULT 'a\nb'\n);",
    "CREATE TRIGGER insert_note\nINSTEAD OF INSERT ON note\nFOR EACH ROW\nBEGIN\n" ++
      "  INSERT INTO _note (text)\n  VALUES (COALESCE(NEW.text, 'a\n  b'));\nEND;")]

/-- The second line of a default is moved to the right in the insert, but not in the table. -/
theorem exists_default_changed_by_layout :
    ∃ catalog,
      Catalog.build [classOf "note" [(Attribute.declare "text" .string).withInitial "a\nb"]] =
        .ok catalog ∧
      ∀ backend created inserting, (backend, created, inserting) ∈ noteTexts →
        ∃ schema,
          classSchema ⟨backend, none⟩ catalog "note" = .ok schema ∧
          schema.tables.map (Statement.sql backend) = [created] ∧
          schema.insert.map (Statement.sql backend) = [inserting] := by
  have checked : ((Catalog.build
      [classOf "note" [(Attribute.declare "text" .string).withInitial "a\nb"]]).toOption.any
      fun catalog => noteTexts.all fun entry =>
        (classSchema ⟨entry.1, none⟩ catalog "note").toOption.any fun schema =>
          schema.tables.map (Statement.sql entry.1) == [entry.2.1] &&
            schema.insert.map (Statement.sql entry.1) == [entry.2.2]) = true := by
    decide +kernel
  simp only [Option.any_eq_true, toOption_eq_some_iff, Bool.and_eq_true, List.all_eq_true,
    beq_iff_eq] at checked
  rcases checked with ⟨catalog, built, ofEntry⟩
  refine ⟨catalog, built, ?_⟩
  intro backend created inserting isEntry
  exact ofEntry (backend, created, inserting) isEntry

end ClassStore.Schema
