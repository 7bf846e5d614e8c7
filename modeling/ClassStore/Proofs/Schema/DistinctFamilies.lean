import ClassStore.Proofs.Schema.ClassNames
import ClassStore.Proofs.Schema.NamesApart

/-!
# Distinct families

The names that are created in a space differ if no family repeats a name and no two
families share one.  Most families are told apart by their words or their endings;
what is left are the conditions of `NamesApart`, so `nodup_names_iff` needs no more
than these, and no less.
-/

namespace ClassStore.Schema

open ClassStore.Catalog

/-- What is known of a setting in which names are given by default. -/
structure Named (backend : Backend) (setting : ClassSetting) : Prop where
  sameBackend : setting.backend = backend
  walk : ParentWalk setting.catalog.classes setting.objectClass setting.chain.reverse
  table : setting.objectClass.table = setting.tableText
  defaultNames : DefaultNames setting.catalog.classes setting.objectClass

/-! ## Tables -/

/-- The walk over parents passes other classes unless there is no parent. -/
theorem cases_walked
    {classes : List ObjectClass}
    {objectClass : ObjectClass}
    {walked : List ObjectClass}
    (walk : ParentWalk classes objectClass walked) :
    (objectClass.parent.isNone = true ∧ walked = [objectClass]) ∨
      (objectClass.parent.isNone = false ∧
        ∃ ancestors, ancestors ≠ [] ∧ walked = objectClass :: ancestors) := by
  cases walk with
  | root noParent => exact .inl ⟨by rw [noParent]; rfl, rfl⟩
  | child isParent walk =>
      have hasParent := (of_parentOf? isParent).1
      exact .inr ⟨by rw [hasParent]; rfl, _, by cases walk <;> simp, rfl⟩

namespace Named

variable
    {backend : Backend}
    {setting other : ClassSetting}
    (named : Named backend setting)
    (otherNamed : Named backend other)

include named

theorem cases_tableText :
    (setting.isRoot = true ∧ setting.tableText = "_" ++ setting.objectClass.key) ∨
      (setting.isRoot = false ∧
        ∃ path, path ≠ [] ∧
          setting.tableText = tableText (path ++ [setting.objectClass.key])) := by
  have keys (walked : List ObjectClass) (same : setting.chain.reverse = walked) :
      setting.tableText = tableText (walked.reverse.map ObjectClass.key) := by
    rw [← same, List.reverse_reverse, ClassSetting.tableText]
  rcases cases_walked named.walk with ⟨isRoot, walked⟩ | ⟨isChild, ancestors, nonempty, walked⟩
  · exact .inl ⟨isRoot, keys _ walked⟩
  · refine .inr ⟨isChild, ancestors.reverse.map ObjectClass.key, by simpa using nonempty, ?_⟩
    rw [keys _ walked, List.reverse_cons, List.map_append]
    rfl

include otherNamed

/-- Only tables of classes with parents have to be asked about. -/
theorem key_eq_of_tableText_eq
    (apart :
      setting.isRoot = false → other.isRoot = false →
        setting.tableText = other.tableText → setting.objectClass.key = other.objectClass.key)
    (same : setting.tableText = other.tableText) :
    setting.objectClass.key = other.objectClass.key := by
  rcases named.cases_tableText with ⟨-, root⟩ | ⟨isChild, path, nonempty, child⟩
  · rcases otherNamed.cases_tableText with ⟨-, otherRoot⟩ | ⟨-, path, nonempty, otherChild⟩
    · rw [root, otherRoot, ← composed_empty, ← composed_empty] at same
      exact eq_of_composed_eq same
    · exact key_eq_of_root_eq_tableText nonempty (root.symm.trans (same.trans otherChild))
  · rcases otherNamed.cases_tableText with ⟨-, otherRoot⟩ | ⟨isOtherChild, _⟩
    · exact (key_eq_of_root_eq_tableText nonempty
        (otherRoot.symm.trans (same.symm.trans child))).symm
    · exact apart isChild isOtherChild same

end Named

/-! ## Endings -/

theorem exists_ends_of_mem_onceNames
    {setting : ClassSetting} :
    ∀ name ∈ setting.onceNames, ∃ ending ∈ ["once"], Ends ending name :=
  fun _ isName => exists_ends_of_mem_ended isName

theorem exists_ends_of_mem_searchNames
    {setting : ClassSetting} :
    ∀ name ∈ setting.searchNames, ∃ ending ∈ ["unique", "unique_state"], Ends ending name :=
  fun _ isName => exists_ends_of_mem_fronted (fun _ => exists_ends_of_mem_ended) isName

theorem exists_ends_of_mem_procedureNames
    {setting : ClassSetting} :
    ∀ name ∈ setting.procedureNames,
      ∃ ending ∈ CollectionAction.every.map CollectionAction.name, Ends ending name :=
  fun _ isName => exists_ends_of_mem_ended isName

theorem exists_ends_of_mem_uniqueTriggers
    {setting : ClassSetting} :
    ∀ name ∈ setting.uniqueTriggers, ∃ ending ∈ ["unique"], Ends ending name := by
  intro name isName
  refine exists_ends_of_mem_fronted (fun text isText => ?_) isName
  rcases List.mem_map.mp isText with ⟨whole, isWhole, rfl⟩
  rcases exists_ends_of_mem_ended isWhole with ⟨ending, isEnding, ends⟩
  rw [List.mem_singleton] at isEnding
  subst isEnding
  exact ⟨"unique", List.mem_singleton_self _, ends.withoutLeading "ck_" "ck" rfl (by decide)⟩

section ForeignKeys

variable
    {classes : List ObjectClass}
    {setting : ClassSetting}
    (defaultNames : DefaultNames classes setting.objectClass)

include defaultNames

theorem ends_of_mem_keyTails
    {tail : String}
    (isTail : tail ∈ setting.keyTails) :
    Ends "id" tail := by
  have short : ∀ text : String, Ends "id" (text ++ "_id") := fun text =>
    .trans (by decide) (.append text "_id")
  rcases List.mem_append.mp isTail with isOwn | isCollected
  · rcases List.mem_append.mp isOwn with isId | isColumn
    · split at isId
      · cases isId
      · rw [List.mem_singleton.mp isId]
        exact List.suffix_rfl
    · rcases List.mem_map.mp isColumn with ⟨attr, isReference, rfl⟩
      rcases List.mem_filter.mp isReference with ⟨isStored, refers⟩
      rw [defaultNames.reference attr isStored refers]
      exact short _
  · rcases List.mem_flatMap.mp isCollected with ⟨⟨name, junction⟩, isJunction, isOne⟩
    rcases defaultNames.junction name junction isJunction with ⟨target, rfl⟩
    simp only [List.mem_cons, List.not_mem_nil, or_false] at isOne
    rcases isOne with rfl | rfl
    · refine .trans ?_ ((ends_composed _ _).trans (ends_composed _ _))
      rw [defaultJunction]
      split
      · show Ends "id" "obj_id"
        decide
      · exact short _
    · exact (short target).trans ((ends_composed _ _).trans (ends_composed _ _))

theorem exists_ends_of_mem_foreignTriggers :
    ∀ name ∈ setting.foreignTriggers, ∃ ending ∈ ["id"], Ends ending name := by
  intro name isName
  refine exists_ends_of_mem_fronted (fun text isText => ?_) isName
  rcases List.mem_map.mp isText with ⟨whole, isWhole, rfl⟩
  rcases List.mem_map.mp isWhole with ⟨tail, isTail, rfl⟩
  have ends :=
    (ends_of_mem_keyTails defaultNames isTail).trans (ends_composed setting.objectClass.key tail)
  exact ⟨"id", List.mem_singleton_self _, ends.withoutLeading "fk_" "fk" rfl (by decide)⟩

end ForeignKeys

/-! ## Spaces -/

section Spaces

variable
    {settings : List ClassSetting}
    (distinct : (settings.map fun setting => setting.objectClass.key).Nodup)

include distinct

theorem nodup_onceNames_iff :
    (settings.flatMap ClassSetting.onceNames).Nodup ↔
      TailsApart ClassSetting.onceColumns settings := by
  have names : settings.flatMap ClassSetting.onceNames = _ := ended_flatMap _ _ _
  rw [names, nodup_ended_iff (by decide) (by decide) (by decide), nodup_keyed_iff distinct]

theorem nodup_searchNames_iff :
    (settings.flatMap ClassSetting.searchNames).Nodup ↔
      TailsApart ClassSetting.uniqueColumns settings := by
  have names : settings.flatMap ClassSetting.searchNames = _ := fronted_flatMap _ _ _
  rw [names, nodup_fronted_iff (by decide) (by decide) (by decide), ended_flatMap,
    nodup_ended_iff (by decide) (by decide) (by decide), nodup_keyed_iff distinct]

theorem nodup_procedureNames_iff :
    (settings.flatMap ClassSetting.procedureNames).Nodup ↔
      TailsApart (fun setting => setting.objectClass.collectionNames) settings := by
  have names : settings.flatMap ClassSetting.procedureNames = _ := ended_flatMap _ _ _
  rw [names, nodup_ended_iff (by decide) (by decide) (by decide), nodup_keyed_iff distinct]

theorem nodup_domainTriggers_iff :
    (settings.flatMap ClassSetting.domainTriggers).Nodup ↔
      TailsApart ClassSetting.domainColumns settings := by
  have names : settings.flatMap ClassSetting.domainTriggers = _ := fronted_flatMap _ _ _
  rw [names, nodup_fronted_iff (by decide) (by decide) (by decide), nodup_keyed_iff distinct]

theorem nodup_foreignTriggers_iff :
    (settings.flatMap ClassSetting.foreignTriggers).Nodup ↔
      TailsApart ClassSetting.keyTails settings ∧
        LeadApart "fk_" (settings.flatMap (ClassSetting.keyed ClassSetting.keyTails)) := by
  have names : settings.flatMap ClassSetting.foreignTriggers = _ := fronted_flatMap _ _ _
  have dropped : settings.flatMap ClassSetting.foreignNames = _ := List.map_flatMap.symm
  rw [names, nodup_fronted_iff (by decide) (by decide) (by decide), dropped,
    nodup_map_withoutLeading_iff, nodup_keyed_iff distinct]

theorem nodup_uniqueTriggers_iff :
    (settings.flatMap ClassSetting.uniqueTriggers).Nodup ↔
      TailsApart ClassSetting.uniqueColumns settings ∧
        LeadApart "ck_" (ended ["unique"]
          (settings.flatMap (ClassSetting.keyed ClassSetting.uniqueColumns))) := by
  have names : settings.flatMap ClassSetting.uniqueTriggers = _ := fronted_flatMap _ _ _
  have dropped : settings.flatMap ClassSetting.uniqueNames = _ := List.map_flatMap.symm
  rw [names, nodup_fronted_iff (by decide) (by decide) (by decide), dropped,
    nodup_map_withoutLeading_iff, ended_flatMap,
    nodup_ended_iff (by decide) (by decide) (by decide), nodup_keyed_iff distinct]

/-! ### Writes -/

omit distinct in
theorem mem_writeWords (setting : ClassSetting) :
    ∀ word ∈ setting.writeWords, word ∈ ["insert", "extend", "update", "delete"] := by
  rw [ClassSetting.writeWords, ClassSetting.insertWords]
  split <;> decide

omit distinct in
theorem nodup_writeWords (setting : ClassSetting) :
    setting.writeWords ≠ [] ∧ setting.writeWords.Nodup := by
  rw [ClassSetting.writeWords, ClassSetting.insertWords]
  split <;> decide

omit distinct in
theorem plain_of_mem_writeWords
    {setting : ClassSetting}
    {word : String}
    (isWord : word ∈ setting.writeWords) :
    '_' ∉ word.toList := by
  have plain : ∀ word ∈ ["insert", "extend", "update", "delete"], '_' ∉ word.toList := by
    decide
  exact plain word (mem_writeWords setting word isWord)

/-- The triggers that write through views never share a name. -/
theorem nodup_writeTriggers :
    (settings.flatMap ClassSetting.writeTriggers).Nodup := by
  refine List.nodup_flatMap.mpr ⟨fun setting _ => ?_, (List.pairwise_map.mp distinct).imp ?_⟩
  · have words := nodup_writeWords setting
    exact (nodup_fronted_iff words.1 words.2 fun _ => plain_of_mem_writeWords).mpr
      (List.nodup_singleton _)
  · intro setting other different name isName isOther
    rcases mem_fronted_iff.mp isName with ⟨key, isKey, word, isWord, rfl⟩
    rcases mem_fronted_iff.mp isOther with ⟨otherKey, isOtherKey, otherWord, isOtherWord, same⟩
    rw [List.mem_singleton.mp isKey, List.mem_singleton.mp isOtherKey] at same
    have sameWord :=
      word_eq_of_composed_eq (plain_of_mem_writeWords isOtherWord)
        (plain_of_mem_writeWords isWord) same
    rw [sameWord] at same
    exact different (eq_of_composed_eq same).symm

omit distinct in
/-- Other words than those for writes keep names apart from them. -/
theorem disjoint_writeTriggers
    {words : List String}
    (plain : ∀ word ∈ words ++ ["insert", "extend", "update", "delete"], '_' ∉ word.toList)
    (different : ∀ word ∈ words, word ∉ ["insert", "extend", "update", "delete"])
    (texts : List String)
    (setting : ClassSetting) :
    (fronted words texts).Disjoint setting.writeTriggers := by
  refine disjoint_fronted_of_words (fun word isWord => ?_) (fun word isWord isWrite => ?_) _ _
  · rcases List.mem_append.mp isWord with inWords | isWrite
    · exact plain word (List.mem_append_left _ inWords)
    · exact plain_of_mem_writeWords isWrite
  · exact different word isWord (mem_writeWords setting word isWrite)

omit distinct in
theorem disjoint_onceNames_writeTriggers_iff
    {setting other : ClassSetting} :
    setting.onceNames.Disjoint other.writeTriggers ↔
      ∀ column ∈ setting.onceColumns, ∀ word ∈ other.writeWords,
        composed (composed setting.objectClass.key column) "once" ≠
          composed word other.objectClass.key := by
  simp only [ClassSetting.onceNames, ended_singleton, ClassSetting.keyed, List.map_map,
    ClassSetting.writeTriggers, fronted, List.flatMap_cons, List.flatMap_nil, List.append_nil,
    List.disjoint_left, List.mem_map, Function.comp_apply, forall_exists_index, and_imp,
    forall_apply_eq_imp_iff₂, not_exists, not_and]
  exact forall₄_congr fun _ _ _ _ => ne_comm

omit distinct in
theorem disjoint_onceNames_domainTriggers_iff
    {setting other : ClassSetting} :
    setting.onceNames.Disjoint other.domainTriggers ↔
      ∀ column ∈ setting.onceColumns, ∀ word ∈ ["cki", "cku"],
        ∀ tested ∈ other.domainColumns,
          composed (composed setting.objectClass.key column) "once" ≠
            composed word (composed other.objectClass.key tested) := by
  rw [List.disjoint_left, ClassSetting.onceNames, ended_singleton, ClassSetting.keyed,
    List.map_map, List.forall_mem_map]
  refine forall₂_congr fun column isColumn => ?_
  rw [ClassSetting.domainTriggers, mem_fronted_iff, ClassSetting.keyed]
  constructor
  · intro absent word isWord tested isTested same
    exact absent ⟨_, List.mem_map_of_mem isTested, word, isWord, same.symm⟩
  · rintro apart ⟨text, isText, word, isWord, same⟩
    rcases List.mem_map.mp isText with ⟨tested, isTested, rfl⟩
    exact apart word isWord tested isTested same.symm

omit distinct in
theorem disjoint_domainTriggers_uniqueTriggers_iff
    {setting other : ClassSetting} :
    setting.domainTriggers.Disjoint other.uniqueTriggers ↔
      ∀ column ∈ setting.domainColumns,
        composed setting.objectClass.key column ∉ other.uniqueNames := by
  have words : ∀ word ∈ ["cki", "cku"] ++ ["cki", "cku", "cks"], '_' ∉ word.toList := by
    decide
  rw [ClassSetting.domainTriggers, ClassSetting.uniqueTriggers,
    disjoint_fronted_iff words List.mem_cons_self List.mem_cons_self, List.disjoint_left,
    ClassSetting.keyed, List.forall_mem_map]

/-! ### The names of all classes -/

section Named

variable
    {backend : Backend}
    (named : ∀ setting ∈ settings, Named backend setting)

include named

theorem nodup_tables_iff :
    (settings.flatMap fun setting => [setting.objectClass.table]).Nodup ↔
      ∀ setting ∈ settings, ∀ other ∈ settings,
        setting.isRoot = false → other.isRoot = false →
          setting.tableText = other.tableText →
            setting.objectClass.key = other.objectClass.key := by
  have tables :
      (settings.flatMap fun setting => [setting.objectClass.table]) =
        settings.map ClassSetting.tableText := by
    rw [← List.map_eq_flatMap]
    exact List.map_congr_left fun setting isSetting => (named setting isSetting).table
  rw [tables]
  constructor
  · intro nodup setting isSetting other isOther _ _ same
    rw [List.inj_on_of_nodup_map nodup isSetting isOther same]
  · intro apart
    refine List.Nodup.map_on ?_ (.of_map _ distinct)
    intro setting isSetting other isOther same
    apply List.inj_on_of_nodup_map distinct isSetting isOther
    exact (named setting isSetting).key_eq_of_tableText_eq (named other isOther)
      (apart setting isSetting other isOther) same

theorem nodup_relations_iff :
    (settings.flatMap fun setting =>
      (families backend .relation).flatMap fun family => family setting).Nodup ↔
      RelationsApart settings := by
  have keys : (settings.flatMap fun setting => [setting.objectClass.key]).Nodup := by
    rwa [← List.map_eq_flatMap]
  have table {setting : ClassSetting} (isSetting : setting ∈ settings) :=
    (named setting isSetting).table
  have single (name other : String) : [name].Disjoint [other] ↔ name ≠ other := by
    rw [List.singleton_disjoint, List.mem_singleton]
  simp only [nodup_families_iff, families, List.forall_mem_cons, List.not_mem_nil, false_imp_iff,
    implies_true, List.pairwise_cons, List.Pairwise.nil, and_true, disjoint_flatMap_iff,
    nodup_tables_iff distinct named, keys, true_and, nodup_keyed_iff distinct,
    singleton_disjoint_keyed_iff, single]
  constructor
  · rintro ⟨⟨tables, collections⟩, ⟨views, collectionTables⟩, collectionViews⟩
    refine ⟨tables, fun setting isSetting other isOther => ?_, collections,
      fun setting isSetting other isOther tail isTail => ?_, collectionViews⟩
    · rw [← table isSetting]
      exact views setting isSetting other isOther
    · rw [← table isSetting]
      exact collectionTables setting isSetting other isOther tail isTail
  · intro apart
    refine ⟨⟨apart.tables, apart.collections⟩, ⟨fun setting isSetting other isOther => ?_,
      fun setting isSetting other isOther tail isTail => ?_⟩, apart.collectionViews⟩
    · rw [table isSetting]
      exact apart.views setting isSetting other isOther
    · rw [table isSetting]
      exact apart.collectionTables setting isSetting other isOther tail isTail

omit named in
theorem nodup_indexes_iff :
    (settings.flatMap fun setting =>
      (families backend .index).flatMap fun family => family setting).Nodup ↔
      TailsApart ClassSetting.indexTails settings := by
  simp only [families, List.flatMap_cons, List.flatMap_nil, List.append_nil, fronted_flatMap]
  rw [nodup_fronted_iff (by decide) (by decide) (by decide), nodup_keyed_iff distinct]

omit distinct named in
theorem disjoint_onceNames_searchNames (setting other : ClassSetting) :
    setting.onceNames.Disjoint other.searchNames :=
  disjoint_of_endings (by decide) exists_ends_of_mem_onceNames exists_ends_of_mem_searchNames

omit named in
theorem nodup_rules_iff :
    (settings.flatMap fun setting =>
      (families .postgres .trigger).flatMap fun family => family setting).Nodup ↔
      RulesApart settings := by
  have once := disjoint_onceNames_searchNames
  simp only [nodup_families_iff, families, List.forall_mem_cons, List.not_mem_nil, false_imp_iff,
    implies_true, List.pairwise_cons, List.Pairwise.nil, and_true, disjoint_flatMap_iff,
    nodup_onceNames_iff distinct, nodup_searchNames_iff distinct, once]
  exact (rulesApart_iff settings).symm

omit named in
theorem nodup_functions_iff :
    (settings.flatMap fun setting =>
      (families .postgres .function).flatMap fun family => family setting).Nodup ↔
      RulesApart settings ∧
        TailsApart (fun setting => setting.objectClass.collectionNames) settings := by
  have once := disjoint_onceNames_searchNames
  have onceProcedure (setting other : ClassSetting) :
      setting.onceNames.Disjoint other.procedureNames :=
    disjoint_of_endings (by decide) exists_ends_of_mem_onceNames
      exists_ends_of_mem_procedureNames
  have searchProcedure (setting other : ClassSetting) :
      setting.searchNames.Disjoint other.procedureNames :=
    disjoint_of_endings (by decide) exists_ends_of_mem_searchNames
      exists_ends_of_mem_procedureNames
  simp only [nodup_families_iff, families, List.forall_mem_cons, List.not_mem_nil, false_imp_iff,
    implies_true, List.pairwise_cons, List.Pairwise.nil, and_true, disjoint_flatMap_iff,
    nodup_onceNames_iff distinct, nodup_searchNames_iff distinct,
    nodup_procedureNames_iff distinct, once, onceProcedure, searchProcedure, rulesApart_iff,
    and_assoc]

/-- Three meetings of families can happen; words or endings exclude all others. -/
theorem nodup_triggers_iff :
    (settings.flatMap fun setting =>
      (families .sqlite .trigger).flatMap fun family => family setting).Nodup ↔
      TriggersApart settings := by
  have foreignOnce :
      (settings.flatMap ClassSetting.foreignTriggers).Disjoint
        (settings.flatMap ClassSetting.onceNames) :=
    disjoint_flatMap_iff.mpr fun setting isSetting _ _ =>
      disjoint_of_endings (by decide)
        (exists_ends_of_mem_foreignTriggers (named setting isSetting).defaultNames)
        exists_ends_of_mem_onceNames
  have foreignDomain (setting other : ClassSetting) :
      setting.foreignTriggers.Disjoint other.domainTriggers :=
    disjoint_fronted_of_words (by decide) (by decide) _ _
  have foreignUnique (setting other : ClassSetting) :
      setting.foreignTriggers.Disjoint other.uniqueTriggers :=
    disjoint_fronted_of_words (by decide) (by decide) _ _
  have foreignWrite (setting other : ClassSetting) :
      setting.foreignTriggers.Disjoint other.writeTriggers :=
    disjoint_writeTriggers (by decide) (by decide) _ other
  have onceUnique (setting other : ClassSetting) :
      setting.onceNames.Disjoint other.uniqueTriggers :=
    disjoint_of_endings (by decide) exists_ends_of_mem_onceNames
      exists_ends_of_mem_uniqueTriggers
  have domainWrite (setting other : ClassSetting) :
      setting.domainTriggers.Disjoint other.writeTriggers :=
    disjoint_writeTriggers (by decide) (by decide) _ other
  have uniqueWrite (setting other : ClassSetting) :
      setting.uniqueTriggers.Disjoint other.writeTriggers :=
    disjoint_writeTriggers (by decide) (by decide) _ other
  rw [disjoint_flatMap_iff] at foreignOnce
  simp only [nodup_families_iff, families, List.forall_mem_cons, List.not_mem_nil, false_imp_iff,
    implies_true, List.pairwise_cons, List.Pairwise.nil, and_true, disjoint_flatMap_iff,
    nodup_onceNames_iff distinct, nodup_domainTriggers_iff distinct,
    nodup_foreignTriggers_iff distinct, nodup_uniqueTriggers_iff distinct,
    nodup_writeTriggers distinct, foreignDomain, foreignUnique,
    foreignWrite, onceUnique, domainWrite, uniqueWrite, true_and]
  simp only [disjoint_onceNames_domainTriggers_iff, disjoint_onceNames_writeTriggers_iff,
    disjoint_domainTriggers_uniqueTriggers_iff]
  constructor
  · rintro ⟨⟨⟨foreign, foreignLead⟩, once, domains, unique, uniqueLead⟩, -,
      ⟨onceDomain, onceWrite⟩, domainUnique⟩
    exact ⟨once, domains, foreign, foreignLead, unique, uniqueLead, domainUnique, onceDomain,
      onceWrite⟩
  · intro apart
    exact ⟨⟨⟨apart.foreign, apart.foreignLead⟩, apart.once, apart.domains, apart.unique,
      apart.uniqueLead⟩, foreignOnce, ⟨apart.onceDomain, apart.onceWrite⟩, apart.domainUnique⟩

/-- The names of all classes in a space differ if and only if they are apart. -/
theorem nodup_names_iff (space : NameSpace) :
    (settings.flatMap fun setting => setting.names space).Nodup ↔
      NamesApart settings backend space := by
  have names :
      (settings.flatMap fun setting => setting.names space) =
        settings.flatMap fun setting =>
          (families backend space).flatMap fun family => family setting := by
    apply List.flatMap_congr
    intro setting isSetting
    rw [ClassSetting.names, (named setting isSetting).sameBackend]
  rw [names]
  cases space with
  | relation => cases backend <;> exact nodup_relations_iff distinct named
  | index => cases backend <;> exact nodup_indexes_iff distinct
  | function =>
      cases backend with
      | postgres => exact nodup_functions_iff distinct
      | sqlite =>
          have nothing :
              (settings.flatMap fun setting =>
                (families .sqlite .function).flatMap fun family => family setting) = [] :=
            flatMap_nil settings
          rw [nothing]
          exact iff_of_true List.nodup_nil trivial
  | trigger =>
      cases backend with
      | postgres => exact nodup_rules_iff distinct
      | sqlite => exact nodup_triggers_iff distinct named

end Named

end Spaces

end ClassStore.Schema
