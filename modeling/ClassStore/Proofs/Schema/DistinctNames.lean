import ClassStore.Proofs.Schema.DistinctFamilies

/-!
# Distinct names

Names are put together from keys, columns and the names of collections, with
underscores in between, and different parts can give the same name.
`nodup_createdNames_iff` says which coincidences of keys, columns and collections make
two statements of a schema create the same name, and that nothing else does.
-/

namespace ClassStore.Schema

open ClassStore.Catalog

/-! ## Settings of a catalog -/

/-- The settings of all classes of a catalog. -/
def ClassSetting.every (config : Config) (catalog : Catalog) : List ClassSetting :=
  catalog.classes.map fun objectClass =>
    ⟨config, catalog, objectClass, catalog.chain objectClass.key⟩

/-- The schemas of classes are generated for settings of the classes. -/
theorem exists_settings
    {config : Config}
    {catalog : Catalog}
    {keys : List String}
    {schemas : List ClassSchema}
    (outcome : classSchemas config catalog keys = .ok schemas) :
    ∃ settings : List ClassSetting,
      settings.map (fun setting => setting.objectClass.key) = keys ∧
      (∀ setting ∈ settings,
        setting = ⟨config, catalog, setting.objectClass, catalog.chain setting.objectClass.key⟩ ∧
        catalog.find? setting.objectClass.key = some setting.objectClass) ∧
      List.Forall₂ (fun setting schema => ∃ parts, MadeOf setting schema parts)
        settings schemas := by
  induction keys generalizing schemas with
  | nil =>
      cases outcome
      exact ⟨[], rfl, nofun, .nil⟩
  | cons key keys inductionHypothesis =>
      rcases exists_of_bind_eq_ok outcome with ⟨schema, ofKey, outcome⟩
      rcases exists_of_bind_eq_ok outcome with ⟨others, ofOthers, same⟩
      cases same
      rcases exists_of_bind_eq_ok ofKey with ⟨setting, isSetting, generated⟩
      have found := (ClassSetting.ofKey_eq_ok isSetting).2.2
      have isKey := (findClass?_eq_some found).2
      rcases inductionHypothesis ofOthers with ⟨settings, sameKeys, known, made⟩
      refine ⟨setting :: settings, ?_, ?_, .cons (ClassSetting.exists_madeOf generated) made⟩
      · rw [List.map_cons, isKey, sameKeys]
      · refine List.forall_mem_cons.mpr ⟨⟨?_, by rw [isKey]; exact found⟩, known⟩
        rw [isKey]
        rcases exists_of_bind_eq_ok isSetting with ⟨objectClass, _, same⟩
        cases same
        rfl

/-- The settings that schemas are generated for are those of all classes, in another order. -/
theorem perm_every
    {declared : List ObjectClass}
    {catalog : Catalog}
    (built : Catalog.build declared = .ok catalog)
    {config : Config}
    {settings : List ClassSetting}
    (keys : settings.map (fun setting => setting.objectClass.key) = catalog.order)
    (known : ∀ setting ∈ settings,
      setting = ⟨config, catalog, setting.objectClass, catalog.chain setting.objectClass.key⟩ ∧
      catalog.find? setting.objectClass.key = some setting.objectClass) :
    settings.Perm (ClassSetting.every config catalog) := by
  rcases buildSteps_of_build built with ⟨keysChecked, _, ordering, _⟩
  have sameKeys := (resolved_of_build built).resolving.sameKeys
  let settingOf (key : String) : ClassSetting :=
    ⟨config, catalog, (catalog.find? key).getD (.declare key), catalog.chain key⟩
  have ofOrder : settings = catalog.order.map settingOf := by
    rw [← keys, List.map_map]
    refine (List.map_id _).symm.trans (List.map_congr_left fun setting isSetting => ?_)
    rcases known setting isSetting with ⟨whole, found⟩
    rw [Function.comp_apply, id_eq]
    simp only [settingOf, found, Option.getD_some]
    exact whole
  have ofClasses :
      ClassSetting.every config catalog =
        (catalog.classes.map ObjectClass.key).map settingOf := by
    rw [List.map_map]
    refine List.map_congr_left fun objectClass isClass => ?_
    have found := find?_of_mem_classes built isClass
    simp only [settingOf, Function.comp_apply, found, Option.getD_some]
  rw [ofOrder, ofClasses, sameKeys]
  exact (perm_of_dependencyOrder (nodup_of_checkKeys keysChecked).1 ordering).map _

section Built

variable
    {declared : List ObjectClass}
    {catalog : Catalog}
    (resolvedCatalog : ResolvedCatalog declared catalog)
    (leavesNames : ∀ objectClass ∈ declared, LeavesNames objectClass)

include resolvedCatalog leavesNames

/-- In a catalog of classes that leave their names open all names are given by default. -/
theorem named_of_find?
    (config : Config)
    {objectClass : ObjectClass}
    (found : catalog.find? objectClass.key = some objectClass) :
    Named config.backend ⟨config, catalog, objectClass, catalog.chain objectClass.key⟩ := by
  have defaultNames : ∀ key other, findClass? catalog.classes key = some other →
      DefaultNames catalog.classes other :=
    fun key other found => resolvedCatalog.defaultNames leavesNames found
  have walk := resolvedCatalog.parentWalk_ancestry found
  have chain : (catalog.chain objectClass.key).reverse =
      ancestry catalog.classes catalog.classes.length objectClass := by
    rw [Catalog.chain, found]
    exact List.reverse_reverse _
  rw [← chain] at walk
  have table :=
    table_eq_tableText (fun key other found => (defaultNames key other found).table) walk found
  rw [List.reverse_reverse] at table
  exact ⟨rfl, walk, table, defaultNames _ _ found⟩

end Built

/-! ## The schema of a catalog -/

theorem createdNames_setupStatements
    (backend : Backend)
    (space : NameSpace) :
    createdNames backend space (setupStatements backend) =
      match backend, space with
      | .postgres, .function => ["isa_gtin"]
      | _, _ => [] := by
  cases backend <;> cases space <;> rfl

/-- The function that tests trade item numbers has a name of its own. -/
theorem gtin_not_mem_names
    {setting : ClassSetting}
    (isPostgres : setting.backend = .postgres) :
    "isa_gtin" ∉ setting.names .function := by
  have isText : ∀ name ∈ ["isa_gtin"], ∃ ending ∈ ["isa_gtin"], Ends ending name :=
    fun name isName => ⟨name, isName, List.suffix_rfl⟩
  have differs {names : List String} (disjoint : names.Disjoint ["isa_gtin"]) :
      "isa_gtin" ∉ names := fun isName => disjoint isName (List.mem_singleton_self _)
  rw [ClassSetting.names, isPostgres]
  simp only [families, List.flatMap_cons, List.flatMap_nil, List.append_nil, List.mem_append,
    not_or]
  exact ⟨differs (disjoint_of_endings (by decide) exists_ends_of_mem_onceNames isText),
    differs (disjoint_of_endings (by decide) exists_ends_of_mem_searchNames isText),
    differs (disjoint_of_endings (by decide) exists_ends_of_mem_procedureNames isText)⟩

section Schemas

variable
    {backend : Backend}
    {space : NameSpace}
    {settings : List ClassSetting}

theorem createdNames_schemas_perm
    {schemas : List ClassSchema}
    (made :
      List.Forall₂ (fun setting schema => ∃ parts, MadeOf setting schema parts)
        settings schemas)
    (named : ∀ setting ∈ settings, Named backend setting) :
    (createdNames backend space (schemas.flatMap ClassSchema.statements)).Perm
      (settings.flatMap fun setting => setting.names space) := by
  induction made with
  | nil => exact .nil
  | @cons setting schema settings schemas madeOf made inductionHypothesis =>
      rcases madeOf with ⟨parts, madeOf⟩
      rcases List.forall_mem_cons.mp named with ⟨isNamed, othersNamed⟩
      have first := createdNames_schema isNamed.defaultNames madeOf space
      rw [isNamed.sameBackend] at first
      rw [List.flatMap_cons, List.flatMap_cons, createdNames_append]
      exact first.append (inductionHypothesis othersNamed)

/-- The names that are created once repeat none of those of the classes. -/
theorem nodup_setup_names_iff
    (named : ∀ setting ∈ settings, Named backend setting) :
    (createdNames backend space (setupStatements backend) ++
        settings.flatMap fun setting => setting.names space).Nodup ↔
      (settings.flatMap fun setting => setting.names space).Nodup := by
  rw [createdNames_setupStatements]
  split
  · have absent : "isa_gtin" ∉ settings.flatMap fun setting => setting.names .function := by
      intro isName
      rcases List.mem_flatMap.mp isName with ⟨setting, isSetting, ofSetting⟩
      exact gtin_not_mem_names (named setting isSetting).sameBackend ofSetting
    rw [List.singleton_append, List.nodup_cons, and_iff_right absent]
  · rw [List.nil_append]

end Schemas

/--
Two statements of a schema create the same name in one space of names only by one of the
coincidences of `NamesApart`, and each of them makes two statements do so.

The declared classes leave the names of tables, views, columns and collections open.
-/
theorem nodup_createdNames_iff
    {declared : List ObjectClass}
    {catalog : Catalog}
    (built : Catalog.build declared = .ok catalog)
    (leavesNames : ∀ objectClass ∈ declared, LeavesNames objectClass)
    {config : Config}
    {schemas : List ClassSchema}
    (generated : catalogSchema config catalog = .ok schemas)
    (space : NameSpace) :
    (createdNames config.backend space
      (setupStatements config.backend ++ schemas.flatMap ClassSchema.statements)).Nodup ↔
        NamesApart (ClassSetting.every config catalog) config.backend space := by
  have resolvedCatalog := resolved_of_build built
  rcases exists_settings generated with ⟨settings, keys, known, made⟩
  have every := perm_every built keys known
  have distinct :
      ((ClassSetting.every config catalog).map fun setting => setting.objectClass.key).Nodup := by
    rw [← (every.map _).nodup_iff, keys]
    exact resolvedCatalog.isOrdered.nodup
  have named : ∀ setting ∈ settings, Named config.backend setting := by
    intro setting isSetting
    rcases known setting isSetting with ⟨whole, found⟩
    rw [whole]
    exact named_of_find? resolvedCatalog leavesNames config found
  have everyNamed : ∀ setting ∈ ClassSetting.every config catalog,
      Named config.backend setting :=
    fun setting isSetting => named setting (every.mem_iff.mpr isSetting)
  have names :=
    (createdNames_schemas_perm made named).trans
      (every.flatMap_right fun setting => setting.names space)
  rw [createdNames_append, (names.append_left _).nodup_iff, nodup_setup_names_iff everyNamed,
    nodup_names_iff distinct everyNamed]

/-- A journal is a work, and its issues are ordered. -/
def press : List ObjectClass :=
  [.standard "work",
    { ObjectClass.declare "journal" with
      parent := some "work"
      attributes :=
        [(Attribute.declare "issn" .string).unique,
          (Attribute.declare "issues" .whole).collecting "issue"] },
    { ObjectClass.declare "issue" with
      extended := some "volume"
      attributes := [(Attribute.declare "number" .posint).once] },
    { ObjectClass.declare "volume" with
      attributes := [(Attribute.declare "year" .whole).indexed] }]

/-- A press in which one key goes on behind another one, and one is a word of names. -/
def largePress : List ObjectClass :=
  press ++
    [{ ObjectClass.declare "journal_page" with
        extended := some "issue"
        attributes := [(Attribute.declare "place" .posint).once] },
      { ObjectClass.declare "extend" with
        parent := some "volume"
        attributes := [(Attribute.declare "pages" .posint).once] }]

/-- The names of the large press differ in every space. -/
theorem largePress_names_distinct :
    (∀ objectClass ∈ largePress, LeavesNames objectClass) ∧
    ∃ catalog schemas,
      Catalog.build largePress = .ok catalog ∧
      catalogSchema ⟨.sqlite, none⟩ catalog = .ok schemas ∧
      ["fki_journal_coll_issues_issue_id", "cks_journal_issn_unique",
        "journal_page_place_once", "extend_journal_page", "extend_pages_once"] ⊆
        createdNames .sqlite .trigger
          (setupStatements .sqlite ++ schemas.flatMap ClassSchema.statements) ∧
      ∀ space ∈ NameSpace.every,
        NamesApart (ClassSetting.every ⟨.sqlite, none⟩ catalog) .sqlite space ∧
        (createdNames .sqlite space
          (setupStatements .sqlite ++ schemas.flatMap ClassSchema.statements)).Nodup := by
  have leavesNames : ∀ objectClass ∈ largePress, LeavesNames objectClass := by
    decide
  have checked : ((Catalog.build largePress).toOption.any fun catalog =>
      decide (∀ space ∈ NameSpace.every,
        NamesApart (ClassSetting.every ⟨.sqlite, none⟩ catalog) .sqlite space) &&
      (catalogSchema ⟨.sqlite, none⟩ catalog).toOption.any fun schemas =>
        decide (["fki_journal_coll_issues_issue_id", "cks_journal_issn_unique",
          "journal_page_place_once", "extend_journal_page", "extend_pages_once"] ⊆
            createdNames .sqlite .trigger
              (setupStatements .sqlite ++ schemas.flatMap ClassSchema.statements))) = true := by
    decide +kernel
  simp only [Option.any_eq_true, toOption_eq_some_iff, Bool.and_eq_true,
    decide_eq_true_eq] at checked
  rcases checked with ⟨catalog, built, apart, schemas, generated, created⟩
  refine ⟨leavesNames, catalog, schemas, built, generated, created, fun space isSpace => ?_⟩
  have namesApart := apart space isSpace
  exact ⟨namesApart,
    (nodup_createdNames_iff built leavesNames generated space).mpr namesApart⟩

/-! ## Names that clash -/

/-- A class with the given key and attributes. -/
def classOf (key : String) (attributes : List Attribute) : ObjectClass :=
  { ObjectClass.declare key with attributes := attributes }

/-- A class below the given parent. -/
def childOf (parent key : String) (attributes : List Attribute) : ObjectClass :=
  { classOf key attributes with parent := some parent }

/-- A collection of objects of the target. -/
def collectionOf (target name : String) : Attribute :=
  (Attribute.declare name .whole).collecting target

/-- The table of a child is called as the view of a class whose key is the path to the child. -/
theorem exists_clash :
    (∀ objectClass ∈ [classOf "a" [], childOf "a" "b" [], classOf "a_b" []],
      LeavesNames objectClass) ∧
    ∃ catalog schemas,
      Catalog.build [classOf "a" [], childOf "a" "b" [], classOf "a_b" []] = .ok catalog ∧
      catalogSchema ⟨.sqlite, none⟩ catalog = .ok schemas ∧
      ¬ (createdNames .sqlite .relation
        (setupStatements .sqlite ++ schemas.flatMap ClassSchema.statements)).Nodup := by
  have leavesNames :
      ∀ objectClass ∈ [classOf "a" [], childOf "a" "b" [], classOf "a_b" []],
        LeavesNames objectClass := by
    decide
  have checked :
      ((Catalog.build [classOf "a" [], childOf "a" "b" [], classOf "a_b" []]).toOption.any
        fun catalog =>
          (catalogSchema ⟨.sqlite, none⟩ catalog).toOption.any fun schemas =>
            !decide (createdNames .sqlite .relation
              (setupStatements .sqlite ++ schemas.flatMap ClassSchema.statements)).Nodup) =
        true := by
    decide +kernel
  simp only [Option.any_eq_true, toOption_eq_some_iff, Bool.not_eq_true',
    decide_eq_false_iff_not] at checked
  rcases checked with ⟨catalog, built, schemas, generated, clash⟩
  exact ⟨leavesNames, catalog, schemas, built, generated, clash⟩

end ClassStore.Schema
