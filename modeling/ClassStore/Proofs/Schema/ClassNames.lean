import ClassStore.Proofs.Schema.NameFamilies

/-!
# Names of a class

`createdNames_schema` says that the schema of a class with default names creates the
names of its families, those of the collections in another order.  It is put together
from what the groups of statements create.
-/

namespace ClassStore.Schema

open ClassStore.Catalog

/-! ## Names of rules -/

theorem createdNames_foreignKey
    (backend : Backend)
    (space : NameSpace)
    (key : ForeignKey) :
    createdNames backend space (key.statements backend) =
      match backend, space with
      | .sqlite, .trigger => ["fki", "fku", "fkd"].map fun word => composed word key.shortName
      | _, _ => [] := by
  cases backend <;> cases space
  case sqlite.trigger =>
    have deletion : key.deletionTrigger.name = composed "fkd" key.shortName := by
      rw [← append_eq_composed_of_lead "fkd_" "fkd" rfl, ForeignKey.deletionTrigger]
      cases key.onDelete <;> rfl
    exact congrArg (["fki", "fku"].map (composed · key.shortName) ++ [·]) deletion
  all_goals rfl

theorem createdNames_onceRule
    (backend : Backend)
    (space : NameSpace)
    (rule : OnceRule) :
    createdNames backend space (rule.statements backend) =
      match backend, space with
      | .postgres, .function => [rule.key ++ "_" ++ rule.column ++ "_once"]
      | _, .trigger => [rule.key ++ "_" ++ rule.column ++ "_once"]
      | _, _ => [] := by
  cases backend <;> cases space <;> rfl

theorem createdNames_domainRule
    (backend : Backend)
    (space : NameSpace)
    (rule : DomainRule) :
    createdNames backend space (rule.statements backend) =
      match backend, space with
      | .sqlite, .trigger =>
          if rule.predicate?.isSome then
            ["cki", "cku"].map fun word => composed (composed word rule.key) rule.column
          else
            []
      | _, _ => [] := by
  cases backend with
  | postgres => cases space <;> rfl
  | sqlite =>
      rw [DomainRule.statements]
      cases rule.predicate? <;> cases space <;> rfl

theorem createdNames_softUnique
    (backend : Backend)
    (space : NameSpace)
    (rule : SoftUnique) :
    createdNames backend space (rule.statements backend) =
      match backend, space with
      | .postgres, .function => [rule.name, rule.name ++ "_state"]
      | .postgres, .trigger => [rule.name, rule.name ++ "_state"]
      | .sqlite, .trigger =>
          ["cki", "cku", "cks"].map fun word => composed word rule.shortName
      | _, _ => [] := by
  cases backend <;> cases space
  case sqlite.trigger =>
    exact congrArg (["cki", "cku"].map (composed · rule.shortName) ++ [·])
      (append_eq_composed_of_lead "cks_" "cks" rfl rule.shortName)
  all_goals rfl

/-! ## Collections -/

section Junctions

variable
    {classes : List ObjectClass}
    {objectClass : ObjectClass}
    (defaultNames : DefaultNames classes objectClass)
    {name : String}
    {junction : Junction}
    (isJunction : (name, junction) ∈ objectClass.junctions)

include defaultNames isJunction

theorem table_junction :
    junction.table = composed objectClass.key (composed "coll" name) := by
  rcases defaultNames.junction name junction isJunction with ⟨member, rfl⟩
  show objectClass.key ++ "_coll_" ++ name = _
  have trail : objectClass.key ++ "_coll_" = composed objectClass.key "coll" ++ "_" := by
    rw [← append_eq_composed_of_trail "_coll" "coll" rfl, String.append_assoc]
    rfl
  rw [trail]
  exact composed_assoc objectClass.key "coll" name

theorem view_junction :
    junction.view = composed objectClass.key name := by
  rcases defaultNames.junction name junction isJunction with ⟨member, rfl⟩
  rfl

end Junctions

/-- The collections that have been found are those with a junction table. -/
theorem map_memberships
    {setting : ClassSetting}
    {attributes : List Attribute}
    {memberships : List ClassSetting.Membership}
    (outcome : setting.memberships attributes = .ok memberships) :
    memberships.map (fun membership => (membership.name, membership.junction)) =
      attributes.filterMap fun attr => attr.junction.map fun junction => (attr.name, junction) := by
  induction attributes generalizing memberships with
  | nil =>
      cases outcome
      rfl
  | cons attr attributes inductionHypothesis =>
      rw [ClassSetting.memberships] at outcome
      split at outcome
      · next noJunction =>
          rw [inductionHypothesis outcome, List.filterMap_cons_none (by simp [noJunction])]
      · next junction isJunction =>
          rcases exists_of_bind_eq_ok outcome with ⟨member, _, outcome⟩
          rcases exists_of_bind_eq_ok outcome with ⟨others, ofOthers, same⟩
          cases same
          rw [List.map_cons, inductionHypothesis ofOthers,
            List.filterMap_cons_some (by rw [isJunction]; rfl)]

section Memberships

variable
    {setting : ClassSetting}
    {schema : ClassSchema}
    {parts : SchemaParts}
    (madeOf : MadeOf setting schema parts)

include madeOf

theorem pairs_memberships :
    parts.memberships.map (fun membership => (membership.name, membership.junction)) =
      setting.objectClass.junctions :=
  map_memberships madeOf.memberships

theorem map_value_memberships
    {Value : Type}
    (value : String × Junction → Value) :
    parts.memberships.map (fun membership => value (membership.name, membership.junction)) =
      setting.objectClass.junctions.map value :=
  (List.map_map ..).symm.trans (congrArg (List.map value) (pairs_memberships madeOf))

theorem flatMap_memberships
    {Value : Type}
    (values : String × Junction → List Value) :
    parts.memberships.flatMap (fun membership => values (membership.name, membership.junction)) =
      setting.objectClass.junctions.flatMap values :=
  (List.flatMap_map ..).symm.trans (congrArg (List.flatMap values) (pairs_memberships madeOf))

end Memberships

/-! ## Indexes and constraints -/

section Setting

variable
    {setting : ClassSetting}

theorem map_parentKeys
    {keys : List ForeignKey}
    (outcome : setting.parentKeys = .ok keys) :
    keys.map ForeignKey.name =
      (if setting.isRoot then [] else ["id"]).map fun tail =>
        composed "fk" (composed setting.objectClass.key tail) := by
  rw [ClassSetting.parentKeys] at outcome
  split at outcome
  · next noParent =>
      cases outcome
      rw [if_pos (by simp [ClassSetting.isRoot, noParent])]
      rfl
  · next parent isParent =>
      rcases exists_of_bind_eq_ok outcome with ⟨target, _, same⟩
      cases same
      rw [if_neg (by simp [ClassSetting.isRoot, isParent]), List.map_singleton, List.map_singleton]
      apply congrArg (· :: [])
      show "fk_" ++ setting.objectClass.key ++ "_id" = _
      rw [append_eq_composed_of_lead "fk_" "fk" rfl,
        append_eq_composed_of_trail "_id" "id" rfl, composed_assoc]

theorem map_referenceKeys
    {attributes : List Attribute}
    {keys : List ForeignKey}
    (outcome : setting.referenceKeys attributes = .ok keys) :
    keys.map ForeignKey.name =
      ((attributes.filter fun attr => attr.reference.isSome).map Attribute.storageColumn).map
        fun column => composed "fk" (composed setting.objectClass.key column) := by
  induction attributes generalizing keys with
  | nil =>
      cases outcome
      rfl
  | cons attr attributes inductionHypothesis =>
      rw [ClassSetting.referenceKeys] at outcome
      split at outcome
      · next noReference =>
          rw [inductionHypothesis outcome, List.filter_cons_of_neg (by simp [noReference])]
      · next reference isReference =>
          rcases exists_of_bind_eq_ok outcome with ⟨target, _, outcome⟩
          rcases exists_of_bind_eq_ok outcome with ⟨others, ofOthers, same⟩
          cases same
          rw [List.map_cons, inductionHypothesis ofOthers,
            List.filter_cons_of_pos (by simp [isReference]), List.map_cons, List.map_cons]
          refine congrArg₂ List.cons ?_ rfl
          exact lead_append_append "fk_" "fk" rfl setting.objectClass.key attr.storageColumn

theorem name_of_mem_softUniques
    {rule : SoftUnique}
    (isRule : rule ∈ setting.softUniques) :
    rule.name =
      composed "ck" (composed setting.objectClass.key (composed rule.column "unique")) := by
  rw [ClassSetting.softUniques] at isRule
  split at isRule
  · cases isRule
  · split at isRule
    · cases isRule
    · rcases List.mem_map.mp isRule with ⟨attr, _, rfl⟩
      show "ck_" ++ setting.objectClass.key ++ "_" ++ attr.storageColumn ++ "_unique" = _
      rw [append_eq_composed_of_trail "_unique" "unique" rfl,
        lead_append_append "ck_" "ck" rfl, composed_assoc, composed_assoc]

variable
    (setting)

theorem map_name_indexes :
    setting.indexes.map Index.name =
      ((setting.objectClass.stored.filter fun attr => (setting.indexFor? attr).isSome).map
        Attribute.storageColumn).map fun tail =>
          composed "idx" (composed setting.objectClass.key tail) := by
  have named : ∀ attr index, setting.indexFor? attr = some index →
      index.name = composed "idx" (composed setting.objectClass.key attr.storageColumn) := by
    intro attr index isIndex
    have name : index.name = "idx_" ++ setting.objectClass.key ++ "_" ++ attr.storageColumn := by
      rw [ClassSetting.indexFor?] at isIndex
      repeat' split at isIndex
      all_goals cases isIndex
      all_goals rfl
    rw [name]
    exact lead_append_append "idx_" "idx" rfl setting.objectClass.key attr.storageColumn
  rw [ClassSetting.indexes]
  induction setting.objectClass.stored with
  | nil => rfl
  | cons attr attributes inductionHypothesis =>
      cases isIndex : setting.indexFor? attr with
      | none =>
          rw [List.filterMap_cons_none isIndex, List.filter_cons_of_neg (by simp [isIndex])]
          exact inductionHypothesis
      | some index =>
          rw [List.filterMap_cons_some isIndex, List.filter_cons_of_pos (by simp [isIndex]),
            List.map_cons, named attr index isIndex, inductionHypothesis]
          rfl

theorem names_once :
    ((setting.objectClass.stored.filter fun attr => attr.flags.once).flatMap fun attr =>
        [setting.objectClass.key ++ "_" ++ attr.storageColumn ++ "_once"]) =
      setting.onceNames := by
  rw [ClassSetting.onceNames, ended_singleton, ClassSetting.keyed, ClassSetting.onceColumns,
    List.map_map, List.map_map, List.map_eq_flatMap]
  congr 1
  funext attr
  rw [append_eq_composed_of_trail "_once" "once" rfl]
  rfl

theorem names_domain :
    (setting.objectClass.storedValues.flatMap fun attr =>
        if (setting.domainRule attr).predicate?.isSome then
          ["cki", "cku"].map fun word =>
            composed (composed word setting.objectClass.key) attr.storageColumn
        else
          []) =
      setting.domainTriggers := by
  rw [ClassSetting.domainTriggers, fronted, ClassSetting.keyed, ClassSetting.domainColumns,
    List.flatMap_map, List.flatMap_map]
  induction setting.objectClass.storedValues with
  | nil => rfl
  | cons attr attributes inductionHypothesis =>
      rw [List.flatMap_cons, inductionHypothesis, List.filter_cons]
      split
      · simp only [composed_assoc]
        rfl
      · rfl

/-- The names of unique constraints, as they are before words are dropped. -/
theorem map_name_softUniques :
    setting.softUniques.map SoftUnique.name =
      (ended ["unique"] (setting.keyed ClassSetting.uniqueColumns)).map (composed "ck") := by
  rw [ended_singleton, ClassSetting.keyed, ClassSetting.uniqueColumns, List.map_map,
    List.map_map, List.map_map]
  apply List.map_congr_left
  intro rule isRule
  rw [name_of_mem_softUniques isRule]
  exact congrArg (composed "ck") (composed_assoc _ _ _).symm

theorem names_unique :
    (setting.softUniques.flatMap fun rule =>
        ["cki", "cku", "cks"].map fun word => composed word rule.shortName) =
      setting.uniqueTriggers := by
  have shortNames : setting.softUniques.map SoftUnique.shortName = setting.uniqueNames := by
    have names := congrArg (List.map (Text.withoutLeading "ck_")) (map_name_softUniques setting)
    rw [List.map_map, List.map_map] at names
    refine names.trans (List.map_congr_left fun text _ => ?_)
    exact withoutLeading_composed "ck_" "ck" rfl text
  rw [ClassSetting.uniqueTriggers, fronted, ← shortNames, List.flatMap_map]

theorem names_search :
    (setting.softUniques.flatMap fun rule => [rule.name, rule.name ++ "_state"]) =
      setting.searchNames := by
  rw [ClassSetting.searchNames, fronted_singleton, ended, ClassSetting.keyed,
    ClassSetting.uniqueColumns, List.map_map, List.flatMap_map, List.map_flatMap]
  apply List.flatMap_congr
  intro rule isRule
  rw [append_eq_composed_of_trail "_state" "state" rfl, name_of_mem_softUniques isRule]
  simp only [Function.comp_apply, List.map_cons, List.map_nil, composed_assoc]
  rw [show "unique_state" = composed "unique" "state" from rfl]

end Setting

/-! ## Groups -/

theorem flatMap_nil
    {Item Value : Type}
    (items : List Item) :
    (items.flatMap fun _ => ([] : List Value)) = [] :=
  List.flatMap_eq_nil_iff.mpr fun _ _ => rfl

section Groups

variable
    {classes : List ObjectClass}
    {setting : ClassSetting}
    (defaultNames : DefaultNames classes setting.objectClass)
    {schema : ClassSchema}
    {parts : SchemaParts}
    (madeOf : MadeOf setting schema parts)

include defaultNames madeOf

theorem createdNames_tableStatements (space : NameSpace) :
    createdNames setting.backend space (parts.tableStatements setting) =
      match space with
      | .relation =>
          setting.objectClass.table ::
            (setting.objectClass.collectionNames.map (composed "coll")).map
              (composed setting.objectClass.key)
      | _ => [] := by
  have sequence : createdNames setting.backend space setting.sequenceStatements = [] := by
    rw [ClassSetting.sequenceStatements]
    cases space <;> (repeat' split) <;> rfl
  have junctionTables :
      parts.memberships.map (fun membership => membership.junction.table) =
        (setting.objectClass.collectionNames.map (composed "coll")).map
          (composed setting.objectClass.key) := by
    refine (map_value_memberships madeOf fun pair => pair.2.table).trans ?_
    rw [ObjectClass.collectionNames, List.map_map, List.map_map]
    apply List.map_congr_left
    rintro ⟨name, junction⟩ isJunction
    exact table_junction defaultNames isJunction
  rw [SchemaParts.tableStatements, createdNames_append, sequence, List.nil_append,
    createdNames_cons]
  cases space with
  | relation =>
      rw [createdNames_map fun _ => rfl, junctionTables,
        ← (ClassSetting.table_of_eq_ok madeOf.table).1]
      rfl
  | _ => exact createdNames_eq_nil (by simp [Statement.nameIn?])

theorem createdNames_viewStatements (space : NameSpace) :
    createdNames setting.backend space parts.viewStatements =
      match space with
      | .relation =>
          setting.objectClass.key ::
            setting.objectClass.collectionNames.map (composed setting.objectClass.key)
      | _ => [] := by
  have junctionViews :
      parts.memberships.map (fun membership => membership.junction.view) =
        setting.objectClass.collectionNames.map (composed setting.objectClass.key) := by
    refine (map_value_memberships madeOf fun pair => pair.2.view).trans ?_
    rw [ObjectClass.collectionNames, List.map_map]
    apply List.map_congr_left
    rintro ⟨name, junction⟩ isJunction
    exact view_junction defaultNames isJunction
  have view : parts.view.name = setting.objectClass.key :=
    (ClassSetting.view_of_eq_ok madeOf.view).1.trans defaultNames.view
  cases space with
  | relation =>
      rw [SchemaParts.viewStatements, createdNames_cons, createdNames_map fun _ => rfl,
        junctionViews]
      exact congrArg (· :: setting.objectClass.collectionNames.map _) view
  | _ => exact createdNames_eq_nil (by simp [SchemaParts.viewStatements, Statement.nameIn?])

theorem createdNames_indexStatements (space : NameSpace) :
    createdNames setting.backend space (parts.indexStatements setting) =
      match space with
      | .index => fronted ["idx"] (setting.keyed ClassSetting.indexTails)
      | _ => [] := by
  have ofJunctions :
      parts.memberships.flatMap (fun membership =>
          (junctionIndexes membership.junction).map Index.name) =
        (setting.objectClass.junctions.flatMap fun pair =>
          [composed "coll" (composed pair.1 "order"),
            composed "coll" (composed pair.1 pair.2.memberColumn)]).map fun tail =>
              composed "idx" (composed setting.objectClass.key tail) := by
    refine (flatMap_memberships madeOf fun pair =>
      (junctionIndexes pair.2).map Index.name).trans ?_
    rw [List.map_flatMap]
    apply List.flatMap_congr
    rintro ⟨name, junction⟩ isJunction
    have table := table_junction defaultNames isJunction
    refine congrArg₂ (fun order member => [order, member]) ?_ ?_
    · show "idx_" ++ junction.table ++ "_order" = _
      rw [append_eq_composed_of_trail "_order" "order" rfl,
        append_eq_composed_of_lead "idx_" "idx" rfl, table, composed_assoc, composed_assoc,
        composed_assoc]
    · show "idx_" ++ junction.table ++ "_" ++ junction.memberColumn = _
      rw [lead_append_append "idx_" "idx" rfl, table, composed_assoc, composed_assoc]
  cases space with
  | index =>
      have ofMemberships :
          (parts.memberships.flatMap fun membership =>
            createdNames setting.backend .index
              ((junctionIndexes membership.junction).map Statement.index)) = _ :=
        (List.flatMap_congr fun membership _ => createdNames_map (fun _ => rfl) _).trans ofJunctions
      rw [SchemaParts.indexStatements, createdNames_append, createdNames_map fun _ => rfl,
        createdNames_flatMap, map_name_indexes, ofMemberships, ← List.map_append]
      simp only [fronted_singleton, ClassSetting.keyed, ClassSetting.indexTails, List.map_map]
      rfl
  | _ =>
      apply createdNames_eq_nil
      intro statement isStatement
      simp only [SchemaParts.indexStatements, List.mem_append, List.mem_map,
        List.mem_flatMap] at isStatement
      rcases isStatement with ⟨index, _, rfl⟩ | ⟨_, _, index, _, rfl⟩ <;> rfl

/-- The names of the foreign keys, those of the collections last. -/
theorem map_name_keys :
    (parts.keys setting).map ForeignKey.name =
      setting.keyTails.map fun tail => composed "fk" (composed setting.objectClass.key tail) := by
  have ofJunctions :
      (parts.memberships.flatMap setting.junctionKeys).map ForeignKey.name =
        (setting.objectClass.junctions.flatMap fun pair =>
          [composed "coll" (composed pair.1 pair.2.ownerColumn),
            composed "coll" (composed pair.1 pair.2.memberColumn)]).map fun tail =>
              composed "fk" (composed setting.objectClass.key tail) := by
    rw [List.map_flatMap, List.map_flatMap]
    refine (flatMap_memberships madeOf fun pair =>
      ["fk_" ++ pair.2.table ++ "_" ++ pair.2.ownerColumn,
        "fk_" ++ pair.2.table ++ "_" ++ pair.2.memberColumn]).trans ?_
    apply List.flatMap_congr
    rintro ⟨name, junction⟩ isJunction
    simp only [List.map_cons, List.map_nil]
    rw [table_junction defaultNames isJunction, lead_append_append "fk_" "fk" rfl,
      lead_append_append "fk_" "fk" rfl]
    simp only [composed_assoc]
  rw [SchemaParts.keys, List.map_append, List.map_append, map_parentKeys madeOf.parentKeys,
    map_referenceKeys madeOf.referenceKeys, ofJunctions, ← List.map_append, ← List.map_append]
  rfl

/-- The triggers for foreign keys are named as the keys are, with other words in front. -/
theorem names_keys :
    (parts.keys setting).flatMap (fun key =>
        ["fki", "fku", "fkd"].map fun word => composed word key.shortName) =
      setting.foreignTriggers := by
  have shortNames : (parts.keys setting).map ForeignKey.shortName = setting.foreignNames := by
    have names :=
      congrArg (List.map (Text.withoutLeading "fk_")) (map_name_keys defaultNames madeOf)
    rw [List.map_map, List.map_map] at names
    rw [ClassSetting.foreignNames, ClassSetting.keyed, List.map_map]
    refine names.trans (List.map_congr_left fun tail _ => ?_)
    exact withoutLeading_composed "fk_" "fk" rfl _
  rw [ClassSetting.foreignTriggers, fronted, ← shortNames, List.flatMap_map]

theorem createdNames_constraintStatements (space : NameSpace) :
    createdNames setting.backend space (setting.constraintStatements (parts.keys setting)) =
      match setting.backend, space with
      | .postgres, .function => setting.onceNames ++ setting.searchNames
      | .postgres, .trigger => setting.onceNames ++ setting.searchNames
      | .sqlite, .trigger =>
          setting.foreignTriggers ++ setting.onceNames ++ setting.domainTriggers ++
            setting.uniqueTriggers
      | _, _ => [] := by
  have primaryKey : createdNames setting.backend space setting.primaryKeyStatements = [] := by
    rw [ClassSetting.primaryKeyStatements]
    cases space <;> (repeat' split) <;> rfl
  simp only [ClassSetting.constraintStatements, createdNames_append, createdNames_flatMap,
    createdNames_foreignKey, createdNames_onceRule, createdNames_domainRule,
    createdNames_softUnique, primaryKey, List.nil_append]
  have keys := names_keys defaultNames madeOf
  have once := names_once setting
  have domain := names_domain setting
  have unique := names_unique setting
  have search := names_search setting
  simp only [ClassSetting.onceRule, ClassSetting.domainRule] at domain ⊢
  cases setting.backend <;> cases space <;>
    simp only [flatMap_nil, List.nil_append, List.append_nil, keys, once, domain, unique, search]

omit defaultNames in
theorem createdNames_procedures (space : NameSpace) :
    createdNames setting.backend space
        (parts.memberships.flatMap setting.procedureStatements) =
      match setting.backend, space with
      | .postgres, .function => setting.procedureNames
      | _, _ => [] := by
  have names :
      (parts.memberships.flatMap fun membership =>
        CollectionAction.every.map fun action =>
          (setting.ownedCollection membership).procedureName action) =
      setting.procedureNames := by
    refine (flatMap_memberships madeOf fun pair =>
      CollectionAction.every.map fun action =>
        setting.objectClass.key ++ "_" ++ pair.1 ++ "_" ++ action.name).trans ?_
    rw [ClassSetting.procedureNames, ended, ClassSetting.keyed, ObjectClass.collectionNames,
      List.map_map, List.flatMap_map]
    apply List.flatMap_congr
    rintro ⟨name, junction⟩ _
    rw [List.map_map]
    rfl
  rw [createdNames_flatMap]
  cases setting.backend <;> cases space
  case postgres.function =>
    refine (List.flatMap_congr fun membership _ => ?_).trans names
    exact createdNames_map (fun _ => rfl) _
  all_goals
    refine List.flatMap_eq_nil_iff.mpr fun membership _ => createdNames_eq_nil ?_
    simp [ClassSetting.procedureStatements, Statement.nameIn?]

end Groups

section Writes

variable
    {setting : ClassSetting}

theorem map_name_inserts
    {inserts : List ViewWrite}
    (outcome : setting.inserts = .ok inserts) :
    inserts.map ViewWrite.name =
      setting.insertWords.map fun word => composed word setting.objectClass.key := by
  have insert : "insert_" ++ setting.objectClass.key = composed "insert" setting.objectClass.key :=
    append_eq_composed_of_lead "insert_" "insert" rfl _
  have extend : "extend_" ++ setting.objectClass.key = composed "extend" setting.objectClass.key :=
    append_eq_composed_of_lead "extend_" "extend" rfl _
  rcases exists_of_bind_eq_ok outcome with ⟨identity, isIdentity, same⟩
  rw [ClassSetting.insertWords, isIdentity]
  cases identity with
  | none =>
      cases same
      exact congrArg (· :: []) insert
  | some pair =>
      cases same
      exact congrArg₂ (fun first second => [first, second]) insert extend

theorem name_updates
    {update : ViewWrite}
    (outcome : setting.updates = .ok update) :
    update.name = composed "update" setting.objectClass.key := by
  rcases exists_of_bind_eq_ok outcome with ⟨identity, _, same⟩
  cases same
  exact append_eq_composed_of_lead "update_" "update" rfl _

theorem createdNames_writeStatements
    {schema : ClassSchema}
    {parts : SchemaParts}
    (madeOf : MadeOf setting schema parts)
    (space : NameSpace) :
    createdNames setting.backend space (parts.writeStatements setting) =
      match setting.backend, space with
      | .sqlite, .trigger => setting.writeTriggers
      | _, _ => [] := by
  have delete : setting.deletes.name = composed "delete" setting.objectClass.key :=
    append_eq_composed_of_lead "delete_" "delete" rfl _
  have extra : createdNames setting.backend space setting.extraStatements = [] := by
    rw [ClassSetting.extraStatements]
    cases space <;> (repeat' split) <;> rfl
  have names : parts.inserts.map ViewWrite.name ++ [parts.update.name, setting.deletes.name] =
      setting.writeTriggers := by
    rw [map_name_inserts madeOf.inserts, name_updates madeOf.update, delete]
    simp [ClassSetting.writeTriggers, fronted, ClassSetting.writeWords]
  rw [SchemaParts.writeStatements, createdNames_append, createdNames_append, extra, List.append_nil]
  cases setting.backend <;> cases space
  case sqlite.trigger =>
    rw [createdNames_map fun _ => rfl]
    exact names
  all_goals
    refine List.append_eq_nil_iff.mpr ⟨createdNames_eq_nil ?_, rfl⟩
    simp [Statement.nameIn?]

end Writes

/-- The schema of a class creates the names of its families. -/
theorem createdNames_schema
    {classes : List ObjectClass}
    {setting : ClassSetting}
    (defaultNames : DefaultNames classes setting.objectClass)
    {schema : ClassSchema}
    {parts : SchemaParts}
    (madeOf : MadeOf setting schema parts)
    (space : NameSpace) :
    (createdNames setting.backend space schema.statements).Perm (setting.names space) := by
  rw [madeOf.statements, SchemaParts.ruleStatements]
  simp only [createdNames_append, createdNames_tableStatements defaultNames madeOf,
    createdNames_indexStatements defaultNames madeOf,
    createdNames_constraintStatements defaultNames madeOf, createdNames_procedures madeOf,
    createdNames_viewStatements defaultNames madeOf, createdNames_writeStatements madeOf]
  cases space with
  | relation =>
      -- The view stands behind the junction tables.
      simp [ClassSetting.names, families, ClassSetting.keyed, ClassSetting.collectionTails]
  | _ => cases isBackend : setting.backend <;> simp [ClassSetting.names, families, isBackend]

end ClassStore.Schema
