import ClassStore.Proofs.Schema.DistinctNames
import ClassStore.Proofs.Schema.FirstFault
import ClassStore.Proofs.Schema.Groups
import ClassStore.Proofs.Sql.Constants

/-!
# Defaults in a schema

The default of an attribute is written into the table of its class and into the
inserts of the class and of all its descendants.  `Denotes` says what it takes for the
written expression to be a value of the type; nothing in such an expression can be
read as anything but one constant (`Denotes.isConstant`).  Only the defaults of a
class itself are tested when its schema is generated, and references are left out:
`written_defaults_are_declared` says what holds of the others.
-/

namespace ClassStore.Schema

open ClassStore.Catalog

/-! ## Expressions for defaults -/

section Expressions

variable
    {backend : Backend}
    {type : SemanticType}
    {text expression : String}

/-- The expression stands for the text as a value of the type. -/
inductive Denotes (backend : Backend) (type : SemanticType) (text : String) : String → Prop where
  | integer {value : Int64}
      (integral : type.isIntegral = true)
      (reads : Text.int64? text = some value)
      (ranges : inRange type value.toInt = true) :
      Denotes backend type text text
  | truth {value : Bool}
      (boolean : type = .boolean)
      (reads : Text.truth? text = some value) :
      Denotes backend type text (truthLiteral backend value)
  | literal
      (noInteger : type.isIntegral = false)
      (noTruth : type ≠ .boolean)
      (valid : inTextDomain type text = true) :
      Denotes backend type text (Sql.literal text)

theorem Denotes.isConstant
    (denotes : Denotes backend type text expression) :
    Sql.IsConstant expression := by
  cases denotes with
  | integer _ reads _ => exact Sql.isConstant_of_int64? reads
  | @truth value _ _ =>
      exact .word (by cases backend <;> cases value <;> decide)
  | literal _ _ _ => exact Sql.isConstant_literal text

theorem validateDefault_eq_ok_iff {key : String} {attr : Attribute} :
    validateDefault key attr text = .ok () ↔ defaultFault? attr.type text = none := by
  rw [validateDefault]
  cases defaultFault? attr.type text <;> simp

theorem defaultFault?_eq_none_iff :
    defaultFault? type text = none ↔
      (type.isIntegral = true ∧
        ∃ value, Text.int64? text = some value ∧ inRange type value.toInt = true) ∨
      (type.isIntegral = false ∧ inTextDomain type text = true) := by
  rw [defaultFault?]
  cases integral : type.isIntegral with
  | true => cases Text.int64? text <;> simp
  | false => simp

theorem sql_ofText_boolean :
    (DefaultValue.ofText .boolean text).sql backend =
      truthLiteral backend (Text.truth? text == some true) := by
  rw [DefaultValue.ofText, if_pos rfl, DefaultValue.sql]

theorem sql_ofText_of_isIntegral
    (integral : type.isIntegral = true) :
    (DefaultValue.ofText type text).sql backend = text := by
  have noTruth : type ≠ .boolean := by
    rintro rfl
    cases integral
  rw [DefaultValue.ofText, if_neg noTruth, if_pos integral, DefaultValue.sql]

theorem sql_ofText_of_ne_boolean
    (noInteger : type.isIntegral = false)
    (noTruth : type ≠ .boolean) :
    (DefaultValue.ofText type text).sql backend = Sql.literal text := by
  rw [DefaultValue.ofText, if_neg noTruth, if_neg (Bool.eq_false_iff.mp noInteger),
    DefaultValue.sql]

/-- What is written for a text that is not refused stands for it, and nothing else does. -/
theorem denotes_iff :
    Denotes backend type text expression ↔
      defaultFault? type text = none ∧
      expression = (DefaultValue.ofText type text).sql backend := by
  have sameTruth : ∀ value : Bool, (some value == some true) = value := by
    decide
  rw [defaultFault?_eq_none_iff]
  constructor
  · intro denotes
    cases denotes with
    | integer integral reads ranges =>
        exact ⟨.inl ⟨integral, _, reads, ranges⟩, (sql_ofText_of_isIntegral integral).symm⟩
    | truth boolean reads =>
        subst boolean
        rw [sql_ofText_boolean, inTextDomain, reads, sameTruth]
        exact ⟨.inr ⟨rfl, rfl⟩, rfl⟩
    | literal noInteger noTruth valid =>
        exact ⟨.inr ⟨noInteger, valid⟩, (sql_ofText_of_ne_boolean noInteger noTruth).symm⟩
  · rintro ⟨⟨integral, value, reads, ranges⟩ | ⟨noInteger, valid⟩, rfl⟩
    · rw [sql_ofText_of_isIntegral integral]
      exact .integer integral reads ranges
    · by_cases boolean : type = .boolean
      · subst boolean
        rcases Option.isSome_iff_exists.mp valid with ⟨value, reads⟩
        rw [sql_ofText_boolean, reads, sameTruth]
        exact .truth rfl reads
      · rw [sql_ofText_of_ne_boolean noInteger boolean]
        exact .literal noInteger boolean valid

end Expressions

/-! ## Defaults of statements -/

/-- A default that a statement writes for a column of a relation. -/
structure WrittenDefault where
  relation : String
  column : String
  value : DefaultValue
deriving DecidableEq, Repr

/-- The default that stands in for a new value. -/
def Expression.default? : Expression → Option DefaultValue
  | .newOrDefault _ value => some value
  | .new _ => none
  | .old _ => none
  | .newOrKept _ _ => none
  | .nextNumber _ => none
  | .currentNumber _ => none
  | .greatestNumber _ => none
  | .lastRow => none

def WriteStatement.writtenDefaults (statement : WriteStatement) : List WrittenDefault :=
  statement.assignments.filterMap fun assignment =>
    assignment.value.default?.map fun value => ⟨statement.target, assignment.column, value⟩

def Table.writtenDefaults (table : Table) : List WrittenDefault :=
  table.columns.filterMap fun column =>
    column.default.map fun value => ⟨table.name, column.name, value⟩

/-- The defaults in a table or in a write; no other statement has any. -/
def Statement.writtenDefaults : Statement → List WrittenDefault
  | .table definition => definition.writtenDefaults
  | .write definition => definition.statements.flatMap WriteStatement.writtenDefaults
  | _ => []

/-- The defaults in the tables of the class and in its inserts. -/
def ClassSchema.writtenDefaults (schema : ClassSchema) : List WrittenDefault :=
  (schema.tables ++ schema.insert).flatMap Statement.writtenDefaults

/-- The default is that of an attribute, in the column of the attribute. -/
structure WrittenDefault.Of (written : WrittenDefault) (config : Config) (owner : ObjectClass)
    (attr : Attribute) : Prop where
  relation : written.relation = owner.table
  column : written.column = attr.storageColumn
  value : config.default? attr = some written.value

theorem default?_newValue (config : Config) (attr : Attribute) :
    (config.newValue attr).default? = config.default? attr := by
  rw [Config.newValue]
  split
  · next isDefault => rw [isDefault, Expression.default?]
  · next noDefault => rw [noDefault, Expression.default?]

theorem default?_lastNumber (backend : Backend) (root : ObjectClass) :
    (lastNumber backend root).default? = none := by
  cases backend <;> rfl

theorem WriteStatement.PassesOn.writtenDefaults_eq_nil
    {statement : WriteStatement}
    {catalog : Catalog}
    {target : ObjectClass}
    {link : Attribute}
    (passesOn : statement.PassesOn catalog target link) :
    statement.writtenDefaults = [] := by
  rw [writtenDefaults, List.filterMap_eq_nil_iff]
  intro assignment isAssignment
  rcases passesOn.assigns assignment isAssignment with ⟨attr, _, _, isValue⟩
  simp only [List.mem_cons, List.not_mem_nil, or_false] at isValue
  rcases isValue with isNew | isKept
  · rw [isNew]
    rfl
  · rw [isKept]
    rfl

namespace ClassSetting

variable
    {setting : ClassSetting}

/-- The number of a row is no default. -/
theorem default?_number
    {number : Option Expression}
    (isNumber : number ∈ [setting.rootNumber?, some setting.inheritedNumber])
    {value : Expression}
    (isValue : value ∈ number) :
    value.default? = none := by
  rcases List.mem_cons.mp isNumber with rfl | isInherited
  · rw [rootNumber?] at isValue
    split at isValue <;> cases isValue
    rfl
  · rw [List.mem_singleton.mp isInherited, inheritedNumber] at isValue
    split at isValue <;> cases isValue
    · exact default?_lastNumber _ _
    · rfl

theorem of_mem_writtenDefaults_insertRow
    {linked number : Option Expression}
    {owner : ObjectClass}
    (isLinked : ∀ value ∈ linked, ∃ root, value = lastNumber setting.backend root)
    (isNumber : number ∈ [setting.rootNumber?, some setting.inheritedNumber])
    {written : WrittenDefault}
    (isWritten : written ∈ (setting.insertRow linked number owner).writtenDefaults) :
    ∃ attr ∈ owner.stored, written.Of setting.config owner attr := by
  rcases List.mem_filterMap.mp isWritten with ⟨assignment, isAssignment, isDefault⟩
  rcases Option.map_eq_some_iff.mp isDefault with ⟨value, hasDefault, rfl⟩
  rcases mem_assignments_insertRow_iff.mp isAssignment with
    ⟨number, isGiven, rfl⟩ | ⟨attr, isStored, rfl⟩
  · rw [default?_number isNumber isGiven] at hasDefault
    cases hasDefault
  · rcases setting.insertedValue_eq_or linked owner attr with isNew | ⟨_, isGiven⟩
    · rw [isNew, default?_newValue] at hasDefault
      exact ⟨attr, isStored, rfl, rfl, hasDefault⟩
    · rcases isLinked _ isGiven with ⟨root, isLast⟩
      rw [isLast, default?_lastNumber] at hasDefault
      cases hasDefault

theorem of_mem_writtenDefaults_table
    {table : Table}
    (outcome : setting.table = .ok table)
    {written : WrittenDefault}
    (isWritten : written ∈ table.writtenDefaults) :
    ∃ attr ∈ setting.objectClass.stored, written.Of setting.config setting.objectClass attr := by
  rcases List.mem_filterMap.mp isWritten with ⟨column, isColumn, isDefault⟩
  rcases Option.map_eq_some_iff.mp isDefault with ⟨value, hasDefault, rfl⟩
  rcases exists_stored_of_mem_columns outcome isColumn with ⟨attr, isStored, isOf⟩
  rcases column_of_eq_ok isOf with ⟨name, _, default⟩
  exact ⟨attr, isStored, (table_of_eq_ok outcome).1, name, default ▸ hasDefault⟩

/-- Every default in the schema of a class is that of an attribute of its chain. -/
theorem of_mem_writtenDefaults
    (self : setting.objectClass ∈ setting.chain)
    {schema : ClassSchema}
    (outcome : setting.schema = .ok schema)
    {written : WrittenDefault}
    (isWritten : written ∈ schema.writtenDefaults) :
    ∃ owner ∈ setting.chain, ∃ attr ∈ owner.stored, written.Of setting.config owner attr := by
  rcases tables_and_insert_of_schema outcome with
    ⟨_, table, memberships, inserts, isTable, _, areInserts, tables, insert⟩
  rw [ClassSchema.writtenDefaults, tables, insert] at isWritten
  rcases List.mem_flatMap.mp isWritten with ⟨statement, isStatement, isWritten⟩
  rcases List.mem_append.mp isStatement with inTables | inInserts
  · rcases List.mem_cons.mp inTables with rfl | isJunction
    · exact ⟨setting.objectClass, self, of_mem_writtenDefaults_table isTable isWritten⟩
    · rcases List.mem_map.mp isJunction with ⟨membership, _, rfl⟩
      cases isWritten
  -- An insert first passes values on to another class, which it does without defaults.
  · rcases List.mem_map.mp inInserts with ⟨write, isWrite, rfl⟩
    rcases List.mem_flatMap.mp isWritten with ⟨statement, isStatement, isWritten⟩
    rcases statements_of_mem_inserts areInserts isWrite with
      ⟨passing, linked, statements, passesOn, isLinked⟩
    rw [statements, insertRows_eq] at isStatement
    rcases List.mem_append.mp isStatement with isPassing | isRow
    · rcases passesOn statement isPassing with ⟨_, _, passesOn⟩
      rw [passesOn.writtenDefaults_eq_nil] at isWritten
      cases isWritten
    · rcases mem_rowsFor isRow with ⟨owner, inChain, number, isNumber, rfl⟩
      exact ⟨owner, inChain, of_mem_writtenDefaults_insertRow isLinked isNumber isWritten⟩

/-- A schema is generated only if the defaults of the class itself are values of their types. -/
theorem acceptsDefault_of_schema
    {schema : ClassSchema}
    (outcome : setting.schema = .ok schema) :
    ∀ attr ∈ setting.objectClass.storedValues,
      AcceptsDefault setting.objectClass.key attr := by
  have tested := (tables_and_insert_of_schema outcome).1
  have noFault :=
    (hasFault_checkDefaults setting setting.objectClass.storedValues).exists_ok_iff.mp ⟨_, tested⟩
  intro attr isStored
  exact defaultError?_eq_none_iff.mp (List.findSome?_eq_none_iff.mp noFault attr isStored)

end ClassSetting

theorem Config.default?_of_initial
    {attr : Attribute}
    {text : String}
    (isInitial : attr.initial = some text)
    (config : Config) :
    config.default? attr = some (DefaultValue.ofText attr.type text) := by
  rw [Config.default?, isInitial]

/-- Every default in the schema of a class is that of an attribute along its chain. -/
theorem exists_source
    {catalog : Catalog}
    {config : Config}
    {key : String}
    {schema : ClassSchema}
    (generated : classSchema config catalog key = .ok schema)
    {written : WrittenDefault}
    (isWritten : written ∈ schema.writtenDefaults) :
    ∃ owner ∈ catalog.chain key, ∃ attr ∈ owner.stored, written.Of config owner attr := by
  rcases exists_class_of_classSchema generated with ⟨objectClass, found, outcome⟩
  exact ClassSetting.of_mem_writtenDefaults (self_mem_chain found) outcome isWritten

/-- If a class has a schema, the defaults of its own values stand for what is declared. -/
theorem WrittenDefault.Of.denotes
    {config : Config}
    {catalog : Catalog}
    {owner : ObjectClass}
    {attr : Attribute}
    {written : WrittenDefault}
    (isOf : written.Of config owner attr)
    (found : catalog.find? owner.key = some owner)
    {other : Config}
    {schema : ClassSchema}
    (generated : classSchema other catalog owner.key = .ok schema)
    (isStored : attr ∈ owner.stored)
    (noReference : attr.isReference = false)
    {text : String}
    (isInitial : attr.initial = some text) :
    Denotes config.backend attr.type text (written.value.sql config.backend) := by
  have accepted :=
    ClassSetting.acceptsDefault_of_schema (schema_of_classSchema generated found) attr
      (mem_storedValues_iff.mpr ⟨isStored, noReference⟩) text isInitial
  have same : some (DefaultValue.ofText attr.type text) = some written.value := by
    rw [← Config.default?_of_initial isInitial config, isOf.value]
  rw [← Option.some.inj same]
  exact denotes_iff.mpr ⟨validateDefault_eq_ok_iff.mp accepted, rfl⟩

/-- The schemas of classes are those that are generated for their keys. -/
theorem map_classSchema_eq
    {config : Config}
    {catalog : Catalog}
    {keys : List String}
    {schemas : List ClassSchema}
    (generated : classSchemas config catalog keys = .ok schemas) :
    keys.map (classSchema config catalog) = schemas.map Except.ok := by
  induction keys generalizing schemas with
  | nil =>
      cases generated
      rfl
  | cons key keys inductionHypothesis =>
      rcases exists_of_bind_eq_ok generated with ⟨schema, ofKey, outcome⟩
      rcases exists_of_bind_eq_ok outcome with ⟨others, ofOthers, same⟩
      cases same
      rw [List.map_cons, List.map_cons, ofKey, inductionHypothesis ofOthers]

/-- Where the schemas of all classes are generated, all defaults of own values are tested. -/
theorem catalog_defaults_denote
    {declared : List ObjectClass}
    {catalog : Catalog}
    (built : Catalog.build declared = .ok catalog)
    {config : Config}
    {schemas : List ClassSchema}
    (generated : catalogSchema config catalog = .ok schemas)
    {schema : ClassSchema}
    (isSchema : schema ∈ schemas)
    {written : WrittenDefault}
    (isWritten : written ∈ schema.writtenDefaults) :
    ∃ owner ∈ catalog.classes, ∃ attr ∈ owner.stored,
      written.Of config owner attr ∧
      ∀ text, attr.initial = some text → attr.isReference = false →
        Denotes config.backend attr.type text (written.value.sql config.backend) := by
  have resolvedCatalog := resolved_of_build built
  have ofKeys := map_classSchema_eq generated
  have isOutcome : .ok schema ∈ catalog.order.map (classSchema config catalog) := by
    rw [ofKeys]
    exact List.mem_map_of_mem isSchema
  rcases List.mem_map.mp isOutcome with ⟨key, _, ofKey⟩
  rcases exists_source ofKey isWritten with ⟨owner, inChain, attr, isStored, isOf⟩
  have found := resolvedCatalog.find?_of_mem_chain inChain
  refine ⟨owner, (findClass?_eq_some found).1, attr, isStored, isOf, ?_⟩
  intro text isInitial noReference
  -- The owner is in the order of creation, so its own schema is generated, which tests it.
  have ownOutcome : classSchema config catalog owner.key ∈ schemas.map Except.ok := by
    rcases resolvedCatalog.exists_order_eq_append found with ⟨front, back, split⟩
    rw [← ofKeys, split]
    exact List.mem_map_of_mem (List.mem_append_right front List.mem_cons_self)
  rcases List.mem_map.mp ownOutcome with ⟨ownSchema, _, ownGenerated⟩
  exact isOf.denotes found ownGenerated.symm isStored noReference isInitial

/--
The defaults in the schema of a class are those of attributes along its chain.

A default that is declared for an attribute with values of its own is one constant that
stands for the declared text as a value of the type, if the schema of the class that
declares it can be generated at all; for the class itself it has been.  The defaults of
references are written without a test.
-/
theorem written_defaults_are_declared
    {declared : List ObjectClass}
    {catalog : Catalog}
    (built : Catalog.build declared = .ok catalog)
    {config : Config}
    {key : String}
    {schema : ClassSchema}
    (generated : classSchema config catalog key = .ok schema)
    {written : WrittenDefault}
    (isWritten : written ∈ schema.writtenDefaults) :
    ∃ owner ∈ catalog.chain key, ∃ attr ∈ owner.stored,
      written.Of config owner attr ∧
      ∀ text, attr.initial = some text → attr.isReference = false →
        (∃ other ownSchema, classSchema other catalog owner.key = .ok ownSchema) →
        Denotes config.backend attr.type text (written.value.sql config.backend) ∧
        Sql.IsConstant (written.value.sql config.backend) := by
  rcases exists_source generated isWritten with ⟨owner, inChain, attr, isStored, isOf⟩
  refine ⟨owner, inChain, attr, isStored, isOf, ?_⟩
  rintro text isInitial noReference ⟨other, ownSchema, ownGenerated⟩
  have found := (resolved_of_build built).find?_of_mem_chain inChain
  have denotes := isOf.denotes found ownGenerated isStored noReference isInitial
  exact ⟨denotes, denotes.isConstant⟩

/-- A journal writes the state of a work, which the press declares to be a numeral in range. -/
theorem journal_writes_state_of_work :
    ∃ catalog schema,
      Catalog.build press = .ok catalog ∧
      classSchema .standard catalog "journal" = .ok schema ∧
      (∀ owner ∈ catalog.chain "journal",
        ∃ other ownSchema, classSchema other catalog owner.key = .ok ownSchema) ∧
      ⟨"_work", "state", .integer "1"⟩ ∈ schema.writtenDefaults ∧
      ∃ owner ∈ catalog.chain "journal", ∃ attr ∈ owner.stored,
        WrittenDefault.Of ⟨"_work", "state", .integer "1"⟩ .standard owner attr ∧
        attr.initial = some "1" ∧
        Denotes .postgres attr.type "1" "1" := by
  have checked : ((Catalog.build press).toOption.any fun catalog =>
      (classSchema .standard catalog "journal").toOption.any fun schema =>
        (catalog.chain "journal").all (fun owner =>
          (classSchema .standard catalog owner.key).toOption.isSome &&
          owner.stored.all fun attr =>
            attr.storageColumn != "state" ||
              attr.initial == some "1" && !attr.isReference) &&
        decide (⟨"_work", "state", .integer "1"⟩ ∈ schema.writtenDefaults)) = true := by
    decide +kernel
  simp only [Option.any_eq_true, toOption_eq_some_iff, Bool.and_eq_true, List.all_eq_true,
    Option.isSome_iff_exists, Bool.or_eq_true, bne_iff_ne, beq_iff_eq, Bool.not_eq_true',
    decide_eq_true_eq] at checked
  rcases checked with ⟨catalog, built, schema, generated, ofOwner, isWritten⟩
  have ownGenerated : ∀ owner ∈ catalog.chain "journal",
      ∃ other ownSchema, classSchema other catalog owner.key = .ok ownSchema :=
    fun owner inChain => ⟨.standard, (ofOwner owner inChain).1⟩
  rcases written_defaults_are_declared built generated isWritten with
    ⟨owner, inChain, attr, isStored, isOf, denotes⟩
  rcases (ofOwner owner inChain).2 attr isStored with other | ⟨isInitial, noReference⟩
  · exact absurd isOf.column.symm other
  · exact ⟨catalog, schema, built, generated, ownGenerated, isWritten, owner, inChain, attr,
      isStored, isOf, isInitial,
      (denotes "1" isInitial noReference (ownGenerated owner inChain)).1⟩

/-- A poster is a frame and shows an artist; neither default is a number. -/
def exhibition : List ObjectClass :=
  [classOf "artist" [],
    classOf "frame" [(Attribute.declare "width" .posint).withInitial "none"],
    childOf "frame" "poster"
      [((Attribute.declare "artist" .whole).referringTo "artist" .restrict).withInitial
        "1); DROP TABLE _artist; --"]]

/-- The schema of posters has a default of a frame and one of a reference that are refused. -/
theorem exists_refused_defaults_written :
    ∃ catalog,
      Catalog.build exhibition = .ok catalog ∧
      ∀ backend, ∃ schema,
        classSchema ⟨backend, none⟩ catalog "poster" = .ok schema ∧
        ∀ written ∈ [⟨"_frame", "width", .integer "none"⟩,
            (⟨"frame_poster", "artist_id", .integer "1); DROP TABLE _artist; --"⟩ :
              WrittenDefault)],
          written ∈ schema.writtenDefaults ∧
          ∃ owner ∈ catalog.chain "poster", ∃ attr ∈ owner.stored, ∃ text,
            written.Of ⟨backend, none⟩ owner attr ∧
            attr.initial = some text ∧
            validateDefault owner.key attr text =
              .error (.invalidDefault owner.key attr.name text .notInteger) := by
  have checked : ((Catalog.build exhibition).toOption.any fun catalog =>
      Backend.all.all fun backend =>
        (classSchema ⟨backend, none⟩ catalog "poster").toOption.any fun schema =>
          [⟨"_frame", "width", .integer "none"⟩,
            (⟨"frame_poster", "artist_id", .integer "1); DROP TABLE _artist; --"⟩ :
              WrittenDefault)].all fun written =>
            decide (written ∈ schema.writtenDefaults) &&
            (catalog.chain "poster").any fun owner => owner.stored.any fun attr =>
              attr.initial.any fun text =>
                written.relation == owner.table && written.column == attr.storageColumn &&
                Config.default? ⟨backend, none⟩ attr == some written.value &&
                defaultFault? attr.type text == some .notInteger) = true := by
    decide +kernel
  simp only [Option.any_eq_true, toOption_eq_some_iff, Bool.and_eq_true, List.all_eq_true,
    List.any_eq_true, beq_iff_eq, decide_eq_true_eq] at checked
  rcases checked with ⟨catalog, built, ofBackend⟩
  refine ⟨catalog, built, fun backend => ?_⟩
  have isBackend : backend ∈ Backend.all := by
    cases backend <;> simp [Backend.all]
  rcases ofBackend backend isBackend with ⟨schema, generated, ofWritten⟩
  refine ⟨schema, generated, fun written isEntry => ?_⟩
  rcases ofWritten written isEntry with ⟨isWritten, owner, inChain, attr, isStored, text,
    isInitial, ⟨⟨relation, column⟩, value⟩, isRefused⟩
  exact ⟨isWritten, owner, inChain, attr, isStored, text, ⟨relation, column, value⟩, isInitial,
    by rw [validateDefault, isRefused]⟩

end ClassStore.Schema
