import ClassStore.Proofs.Schema.NameFamilies
import ClassStore.Proofs.Schema.TableNames
import Mathlib.Data.List.Pairwise
import Mathlib.Tactic.MkIffOfInductiveProp

/-!
# Names that coincide

Different keys, columns and collections can give the same name, because all parts are
joined by underscores.  `TailsApart` says when names with a key in front do not: one
key goes on behind another one with just what some text behind the other key begins
with.  The other conditions are about names of which one has a word in front, or is
that of a table.  `NamesApart` gathers what there is to ask for in each space.
-/

namespace ClassStore.Schema

open ClassStore.Catalog

/-- What follows the front and an underscore, if the text begins with them. -/
def behind? (front text : String) : Option String :=
  if (front.toList ++ ['_']).isPrefixOf text.toList then
    some (String.ofList (text.toList.drop (front.toList ++ ['_']).length))
  else
    none

theorem mem_behind?_iff
    {front text rest : String} :
    rest ∈ behind? front text ↔ text = composed front rest := by
  have parts : (composed front rest).toList = front.toList ++ ['_'] ++ rest.toList := by
    simp [toList_composed]
  rw [behind?, Option.mem_def, ← String.toList_inj, parts]
  split
  · next leads =>
      rcases List.isPrefixOf_iff_prefix.mp leads with ⟨back, whole⟩
      rw [← whole, List.drop_left, Option.some_inj, List.append_cancel_left_eq,
        ← String.toList_inj, String.toList_ofList]
  · next absent =>
      refine iff_of_false (by simp) fun whole => absent ?_
      exact List.isPrefixOf_iff_prefix.mpr ⟨rest.toList, whole.symm⟩

/-! ## Conditions on names -/

/-- Where one key goes on behind another one, nothing behind both keys makes up for it. -/
structure TailsApart (tails : ClassSetting → List String) (settings : List ClassSetting) :
    Prop where
  within : ∀ setting ∈ settings, (tails setting).Nodup
  between :
    ∀ setting ∈ settings, ∀ other ∈ settings, ∀ rest,
      other.objectClass.key = composed setting.objectClass.key rest →
        ∀ tail ∈ tails other, composed rest tail ∉ tails setting

instance (tails : ClassSetting → List String) (settings : List ClassSetting) :
    Decidable (TailsApart tails settings) :=
  decidable_of_iff
    ((∀ setting ∈ settings, (tails setting).Nodup) ∧
      ∀ setting ∈ settings, ∀ other ∈ settings,
        ∀ rest ∈ behind? setting.objectClass.key other.objectClass.key,
          ∀ tail ∈ tails other, composed rest tail ∉ tails setting)
    ⟨fun ⟨within, between⟩ => ⟨within, fun setting isSetting other isOther rest goesOn =>
        between setting isSetting other isOther rest (mem_behind?_iff.mpr goesOn)⟩,
      fun apart => ⟨apart.within, fun setting isSetting other isOther rest goesOn =>
        apart.between setting isSetting other isOther rest (mem_behind?_iff.mp goesOn)⟩⟩

/-- No name is another one with the lead in front, once or more. -/
def LeadApart (lead : String) (names : List String) : Prop :=
  ∀ name ∈ names, ∀ other ∈ names,
    Text.withoutLeading lead name = Text.withoutLeading lead other → name = other

instance (lead : String) (names : List String) : Decidable (LeadApart lead names) :=
  inferInstanceAs (Decidable (∀ name ∈ names, ∀ other ∈ names, _ → _))

theorem nodup_map_withoutLeading_iff
    {lead : String}
    {names : List String} :
    (names.map (Text.withoutLeading lead)).Nodup ↔ names.Nodup ∧ LeadApart lead names := by
  constructor
  · intro nodup
    exact ⟨.of_map _ nodup, fun name isName other isOther same =>
      List.inj_on_of_nodup_map nodup isName isOther same⟩
  · rintro ⟨nodup, apart⟩
    exact nodup.map_on fun name isName other isOther same => apart name isName other isOther same

/-- The table of the class, as its keys from the root down name it. -/
def ClassSetting.tableText (setting : ClassSetting) : String :=
  Schema.tableText (setting.chain.map ObjectClass.key)

/-- No two tables and views are called alike. -/
@[mk_iff]
structure RelationsApart (settings : List ClassSetting) : Prop where
  tables :
    ∀ setting ∈ settings, ∀ other ∈ settings,
      setting.isRoot = false → other.isRoot = false →
        setting.tableText = other.tableText → setting.objectClass.key = other.objectClass.key
  views :
    ∀ setting ∈ settings, ∀ other ∈ settings, setting.tableText ≠ other.objectClass.key
  collections : TailsApart ClassSetting.collectionTails settings
  collectionTables :
    ∀ setting ∈ settings, ∀ other ∈ settings, ∀ tail ∈ other.collectionTails,
      setting.tableText ≠ composed other.objectClass.key tail
  collectionViews :
    ∀ setting ∈ settings, ∀ other ∈ settings, ∀ tail ∈ other.collectionTails,
      setting.objectClass.key ≠ composed other.objectClass.key tail

instance (settings : List ClassSetting) : Decidable (RelationsApart settings) :=
  decidable_of_iff' _ (relationsApart_iff settings)

/-- No two functions for columns are called alike. -/
@[mk_iff]
structure RulesApart (settings : List ClassSetting) : Prop where
  once : TailsApart ClassSetting.onceColumns settings
  unique : TailsApart ClassSetting.uniqueColumns settings

instance (settings : List ClassSetting) : Decidable (RulesApart settings) :=
  decidable_of_iff' _ (rulesApart_iff settings)

/-- No two triggers of SQLite are called alike. -/
@[mk_iff]
structure TriggersApart (settings : List ClassSetting) : Prop where
  once : TailsApart ClassSetting.onceColumns settings
  domains : TailsApart ClassSetting.domainColumns settings
  foreign : TailsApart ClassSetting.keyTails settings
  foreignLead : LeadApart "fk_" (settings.flatMap (ClassSetting.keyed ClassSetting.keyTails))
  unique : TailsApart ClassSetting.uniqueColumns settings
  uniqueLead :
    LeadApart "ck_"
      (ended ["unique"] (settings.flatMap (ClassSetting.keyed ClassSetting.uniqueColumns)))
  domainUnique :
    ∀ setting ∈ settings, ∀ other ∈ settings, ∀ column ∈ setting.domainColumns,
      composed setting.objectClass.key column ∉ other.uniqueNames
  onceDomain :
    ∀ setting ∈ settings, ∀ other ∈ settings, ∀ column ∈ setting.onceColumns,
      ∀ word ∈ ["cki", "cku"], ∀ tested ∈ other.domainColumns,
        composed (composed setting.objectClass.key column) "once" ≠
          composed word (composed other.objectClass.key tested)
  onceWrite :
    ∀ setting ∈ settings, ∀ other ∈ settings, ∀ column ∈ setting.onceColumns,
      ∀ word ∈ other.writeWords,
        composed (composed setting.objectClass.key column) "once" ≠
          composed word other.objectClass.key

instance (settings : List ClassSetting) : Decidable (TriggersApart settings) :=
  decidable_of_iff' _ (triggersApart_iff settings)

/-- What has to be asked for so that the names in a space differ. -/
def NamesApart (settings : List ClassSetting) : Backend → NameSpace → Prop
  | _, .relation => RelationsApart settings
  | _, .index => TailsApart ClassSetting.indexTails settings
  | .postgres, .function =>
      RulesApart settings ∧
        TailsApart (fun setting => setting.objectClass.collectionNames) settings
  | .sqlite, .function => True
  | .postgres, .trigger => RulesApart settings
  | .sqlite, .trigger => TriggersApart settings

instance (settings : List ClassSetting) :
    (backend : Backend) → (space : NameSpace) → Decidable (NamesApart settings backend space)
  | .postgres, .relation => inferInstanceAs (Decidable (RelationsApart settings))
  | .sqlite, .relation => inferInstanceAs (Decidable (RelationsApart settings))
  | .postgres, .index => inferInstanceAs (Decidable (TailsApart _ settings))
  | .sqlite, .index => inferInstanceAs (Decidable (TailsApart _ settings))
  | .postgres, .function => inferInstanceAs (Decidable (RulesApart settings ∧ TailsApart _ _))
  | .sqlite, .function => inferInstanceAs (Decidable True)
  | .postgres, .trigger => inferInstanceAs (Decidable (RulesApart settings))
  | .sqlite, .trigger => inferInstanceAs (Decidable (TriggersApart settings))

/-! ## Names with a key -/

section Lists

variable
    {Value : Type}
    {settings : List ClassSetting}

theorem disjoint_flatMap_iff
    {first second : ClassSetting → List Value} :
    (settings.flatMap first).Disjoint (settings.flatMap second) ↔
      ∀ setting ∈ settings, ∀ other ∈ settings, (first setting).Disjoint (second other) := by
  constructor
  · intro disjoint setting isSetting other isOther value isFirst isSecond
    exact disjoint (List.mem_flatMap.mpr ⟨setting, isSetting, isFirst⟩)
      (List.mem_flatMap.mpr ⟨other, isOther, isSecond⟩)
  · intro disjoint value isFirst isSecond
    rcases List.mem_flatMap.mp isFirst with ⟨setting, isSetting, ofSetting⟩
    rcases List.mem_flatMap.mp isSecond with ⟨other, isOther, ofOther⟩
    exact disjoint setting isSetting other isOther ofSetting ofOther

theorem singleton_disjoint_keyed_iff
    {name : String}
    {tails : ClassSetting → List String}
    {setting : ClassSetting} :
    [name].Disjoint (setting.keyed tails) ↔
      ∀ tail ∈ tails setting, name ≠ composed setting.objectClass.key tail := by
  simp [ClassSetting.keyed, List.singleton_disjoint, eq_comm]

theorem key_ne_composed (key rest : String) : key ≠ composed key rest := by
  intro same
  have lengths := congrArg (fun text => text.toList.length) same
  simp only [toList_composed, List.length_append, List.length_cons] at lengths
  omega

variable
    (distinct : (settings.map fun setting => setting.objectClass.key).Nodup)

include distinct

/-- Names with a key in front repeat nothing if and only if the texts behind are apart. -/
theorem nodup_keyed_iff
    {tails : ClassSetting → List String} :
    (settings.flatMap (ClassSetting.keyed tails)).Nodup ↔ TailsApart tails settings := by
  rw [List.nodup_flatMap]
  constructor
  · rintro ⟨each, between⟩
    refine ⟨fun setting isSetting => .of_map _ (each setting isSetting), ?_⟩
    intro setting isSetting other isOther rest goesOn tail isTail among
    have different : setting ≠ other := by
      rintro rfl
      exact key_ne_composed _ _ goesOn
    have symmetric :
        Std.Symm (Function.onFun List.Disjoint (ClassSetting.keyed tails)) :=
      ⟨fun _ _ => List.disjoint_symm⟩
    have disjoint := between.forall isSetting isOther different
    refine disjoint (List.mem_map_of_mem among) ?_
    rw [← composed_assoc, ← goesOn]
    exact List.mem_map_of_mem isTail
  · intro apart
    refine ⟨fun setting isSetting => ?_, ?_⟩
    · exact (apart.within setting isSetting).map fun _ _ => eq_of_composed_eq
    · refine (List.pairwise_map.mp distinct).imp_of_mem ?_
      intro setting other isSetting isOther different name isName isOtherName
      rcases List.mem_map.mp isName with ⟨tail, isTail, rfl⟩
      rcases List.mem_map.mp isOtherName with ⟨otherTail, isOtherTail, same⟩
      rcases composed_eq_iff.mp same with ⟨same, -⟩ | ⟨rest, goesOn, rfl⟩ | ⟨rest, goesOn, rfl⟩
      · exact different same.symm
      · exact apart.between other isOther setting isSetting rest goesOn tail isTail isOtherTail
      · exact apart.between setting isSetting other isOther rest goesOn otherTail isOtherTail
          isTail

end Lists

end ClassStore.Schema
