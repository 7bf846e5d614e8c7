import ClassStore.Proofs.Schema.CreatedNames
import Mathlib.Data.List.Nodup
import Mathlib.Data.List.Perm.Basic

/-!
# Families of names

The names that the schema of a class creates hold its key, with a column or a
collection behind, with words in front and endings behind all that.  They come in
families, each of which is made in one way: `families` lists those of a space of
names.  The table is the only relation that is named otherwise.
-/

namespace ClassStore.Schema

open ClassStore.Catalog

/-! ## Words and endings -/

/-- Each of the texts with each of the words in front. -/
def fronted (words texts : List String) : List String :=
  texts.flatMap fun text => words.map fun word => composed word text

/-- Each of the texts with each of the endings behind. -/
def ended (endings texts : List String) : List String :=
  texts.flatMap fun text => endings.map (composed text)

theorem mem_fronted_iff
    {words texts : List String}
    {name : String} :
    name ∈ fronted words texts ↔ ∃ text ∈ texts, ∃ word ∈ words, composed word text = name := by
  simp only [fronted, List.mem_flatMap, List.mem_map]

theorem mem_ended_iff
    {endings texts : List String}
    {name : String} :
    name ∈ ended endings texts ↔
      ∃ text ∈ texts, ∃ ending ∈ endings, composed text ending = name := by
  simp only [ended, List.mem_flatMap, List.mem_map]

theorem ended_singleton (ending : String) (texts : List String) :
    ended [ending] texts = texts.map fun text => composed text ending :=
  List.map_eq_flatMap.symm

theorem fronted_singleton (word : String) (texts : List String) :
    fronted [word] texts = texts.map (composed word) :=
  List.map_eq_flatMap.symm

theorem fronted_flatMap
    {Item : Type}
    (words : List String)
    (items : List Item)
    (texts : Item → List String) :
    (items.flatMap fun item => fronted words (texts item)) =
      fronted words (items.flatMap texts) :=
  List.flatMap_assoc.symm

theorem ended_flatMap
    {Item : Type}
    (endings : List String)
    (items : List Item)
    (texts : Item → List String) :
    (items.flatMap fun item => ended endings (texts item)) =
      ended endings (items.flatMap texts) :=
  List.flatMap_assoc.symm

/-- Marking each item with each of some marks repeats nothing, if the results can be told apart. -/
theorem nodup_flatMap_map_iff
    {Item Mark Value : Type}
    {marked : Mark → Item → Value}
    {marks : List Mark}
    (nonempty : marks ≠ [])
    (distinct : marks.Nodup)
    (readable : ∀ mark ∈ marks, ∀ other ∈ marks, ∀ item otherItem,
      marked mark item = marked other otherItem → mark = other ∧ item = otherItem)
    {items : List Item} :
    (items.flatMap fun item => marks.map fun mark => marked mark item).Nodup ↔ items.Nodup := by
  constructor
  · intro nodup
    rcases List.exists_mem_of_ne_nil marks nonempty with ⟨mark, isMark⟩
    have chosen :
        (items.map (marked mark)).Sublist
          (items.flatMap fun item => marks.map fun mark => marked mark item) := by
      clear nodup
      induction items with
      | nil => exact .slnil
      | cons item items inductionHypothesis =>
          rw [List.map_cons, List.flatMap_cons]
          have first : [marked mark item].Sublist (marks.map fun mark => marked mark item) :=
            List.singleton_sublist.mpr (List.mem_map_of_mem isMark)
          exact first.append inductionHypothesis
    exact .of_map _ (nodup.sublist chosen)
  · intro nodup
    refine List.nodup_flatMap.mpr ⟨fun item _ => ?_, nodup.imp ?_⟩
    · exact distinct.map_on fun mark isMark other isOther same =>
        (readable mark isMark other isOther item item same).1
    · intro item other different value isValue isOther
      rcases List.mem_map.mp isValue with ⟨mark, isMark, rfl⟩
      rcases List.mem_map.mp isOther with ⟨otherMark, isOtherMark, same⟩
      exact different (readable otherMark isOtherMark mark isMark other item same).2.symm

/-- Words without underscores in front repeat nothing. -/
theorem nodup_fronted_iff
    {words : List String}
    (nonempty : words ≠ [])
    (distinct : words.Nodup)
    (plain : ∀ word ∈ words, '_' ∉ word.toList)
    {texts : List String} :
    (fronted words texts).Nodup ↔ texts.Nodup := by
  refine nodup_flatMap_map_iff nonempty distinct fun word isWord other isOther _ _ same => ?_
  have sameWord := word_eq_of_composed_eq (plain word isWord) (plain other isOther) same
  subst sameWord
  exact ⟨rfl, eq_of_composed_eq same⟩

/-- Endings that are no endings of each other repeat nothing. -/
theorem nodup_ended_iff
    {endings : List String}
    (nonempty : endings ≠ [])
    (distinct : endings.Nodup)
    (apart : ∀ ending ∈ endings, ∀ other ∈ endings, ending ≠ other → ¬ Ends ending other)
    {texts : List String} :
    (ended endings texts).Nodup ↔ texts.Nodup := by
  refine nodup_flatMap_map_iff nonempty distinct fun ending isEnding other isOther _ _ same => ?_
  have sameEnding : ending = other := by
    by_contra different
    have eachApart : EndingsApart [ending] [other] := by
      simp only [EndingsApart, List.mem_singleton, forall_eq]
      exact ⟨apart _ isEnding _ isOther different, apart _ isOther _ isEnding (Ne.symm different)⟩
    exact eachApart.ne ⟨_, List.mem_singleton_self _, ends_composed _ _⟩
      ⟨_, List.mem_singleton_self _, ends_composed _ _⟩ same
  subst sameEnding
  exact ⟨rfl, front_eq_of_composed_eq same⟩

theorem exists_ends_of_mem_ended
    {endings texts : List String}
    {name : String}
    (isName : name ∈ ended endings texts) :
    ∃ ending ∈ endings, Ends ending name := by
  rcases mem_ended_iff.mp isName with ⟨text, _, ending, isEnding, rfl⟩
  exact ⟨ending, isEnding, ends_composed _ _⟩

theorem exists_ends_of_mem_fronted
    {words endings texts : List String}
    (ends : ∀ text ∈ texts, ∃ ending ∈ endings, Ends ending text)
    {name : String}
    (isName : name ∈ fronted words texts) :
    ∃ ending ∈ endings, Ends ending name := by
  rcases mem_fronted_iff.mp isName with ⟨text, isText, word, _, rfl⟩
  rcases ends text isText with ⟨ending, isEnding, endsText⟩
  exact ⟨ending, isEnding, endsText.trans (ends_composed _ _)⟩

/-- Names with different words in front are different. -/
theorem disjoint_fronted_of_words
    {words others : List String}
    (plain : ∀ word ∈ words ++ others, '_' ∉ word.toList)
    (different : ∀ word ∈ words, word ∉ others)
    (texts otherTexts : List String) :
    (fronted words texts).Disjoint (fronted others otherTexts) := by
  intro name isName isOther
  rcases mem_fronted_iff.mp isName with ⟨text, _, word, isWord, rfl⟩
  rcases mem_fronted_iff.mp isOther with ⟨otherText, _, other, isOtherWord, same⟩
  have sameWord :=
    word_eq_of_composed_eq (plain other (List.mem_append_right _ isOtherWord))
      (plain word (List.mem_append_left _ isWord)) same
  exact different word isWord (sameWord ▸ isOtherWord)

/-- Names with the same words in front are different if what follows is. -/
theorem disjoint_fronted_iff
    {words others : List String}
    (plain : ∀ word ∈ words ++ others, '_' ∉ word.toList)
    {word : String}
    (isWord : word ∈ words)
    (isOther : word ∈ others)
    {texts otherTexts : List String} :
    (fronted words texts).Disjoint (fronted others otherTexts) ↔ texts.Disjoint otherTexts := by
  constructor
  · intro disjoint text isText isOtherText
    exact disjoint (mem_fronted_iff.mpr ⟨text, isText, word, isWord, rfl⟩)
      (mem_fronted_iff.mpr ⟨text, isOtherText, word, isOther, rfl⟩)
  · intro disjoint name isName isOtherName
    rcases mem_fronted_iff.mp isName with ⟨text, isText, front, isFront, rfl⟩
    rcases mem_fronted_iff.mp isOtherName with ⟨otherText, isOtherText, other, isOtherFront, same⟩
    have sameWord :=
      word_eq_of_composed_eq (plain other (List.mem_append_right _ isOtherFront))
        (plain front (List.mem_append_left _ isFront)) same
    subst sameWord
    exact disjoint isText (eq_of_composed_eq same ▸ isOtherText)

theorem disjoint_of_endings
    {endings others : List String}
    (apart : EndingsApart endings others)
    {names otherNames : List String}
    (ends : ∀ name ∈ names, ∃ ending ∈ endings, Ends ending name)
    (otherEnds : ∀ name ∈ otherNames, ∃ ending ∈ others, Ends ending name) :
    names.Disjoint otherNames :=
  fun _ isName isOther => apart.ne (ends _ isName) (otherEnds _ isOther) rfl

/-! ## Names with a key -/

namespace ClassSetting

/-- The key of the class with each of some texts behind. -/
def keyed (tails : ClassSetting → List String) (setting : ClassSetting) : List String :=
  (tails setting).map (composed setting.objectClass.key)

variable
    (setting : ClassSetting)

/-- What stands behind the key in the names of the relations of collections. -/
def collectionTails : List String :=
  setting.objectClass.collectionNames.map (composed "coll") ++ setting.objectClass.collectionNames

/-- What stands behind the key in the names of the indexes. -/
def indexTails : List String :=
  (setting.objectClass.stored.filter fun attr => (setting.indexFor? attr).isSome).map
      Attribute.storageColumn ++
    setting.objectClass.junctions.flatMap fun (name, junction) =>
      [composed "coll" (composed name "order"),
        composed "coll" (composed name junction.memberColumn)]

/-- What stands behind the key in the names of the foreign keys. -/
def keyTails : List String :=
  (if setting.isRoot then [] else ["id"]) ++
    (setting.objectClass.stored.filter fun attr => attr.reference.isSome).map
      Attribute.storageColumn ++
    setting.objectClass.junctions.flatMap fun (name, junction) =>
      [composed "coll" (composed name junction.ownerColumn),
        composed "coll" (composed name junction.memberColumn)]

/-- The columns whose values stay once they are set. -/
def onceColumns : List String :=
  (setting.objectClass.stored.filter fun attr => attr.flags.once).map Attribute.storageColumn

/-- The columns whose values are tested by a trigger of SQLite. -/
def domainColumns : List String :=
  (setting.objectClass.storedValues.filter fun attr =>
    (setting.domainRule attr).predicate?.isSome).map Attribute.storageColumn

/-- The columns whose values differ among live objects. -/
def uniqueColumns : List String :=
  setting.softUniques.map SoftUnique.column

/-- The names of foreign keys without the words that they begin with. -/
def foreignNames : List String :=
  (setting.keyed keyTails).map (Text.withoutLeading "fk_")

/-- The names of unique constraints without the words that they begin with. -/
def uniqueNames : List String :=
  (ended ["unique"] (setting.keyed uniqueColumns)).map (Text.withoutLeading "ck_")

/-- The words in front of the names of what the view does on insert. -/
def insertWords : List String :=
  match setting.identity with
  | .ok (some _) => ["insert", "extend"]
  | _ => ["insert"]

/-- The words in front of the names of the triggers that write through the view. -/
def writeWords : List String :=
  setting.insertWords ++ ["update", "delete"]

/-- The names of what makes values stay. -/
def onceNames : List String :=
  ended ["once"] (setting.keyed onceColumns)

/-- The names of the functions that look for duplicates, and of their triggers. -/
def searchNames : List String :=
  fronted ["ck"] (ended ["unique", "unique_state"] (setting.keyed uniqueColumns))

/-- The names of the procedures for collections. -/
def procedureNames : List String :=
  ended (CollectionAction.every.map CollectionAction.name)
    (setting.keyed fun setting => setting.objectClass.collectionNames)

/-- The names of the triggers for foreign keys. -/
def foreignTriggers : List String :=
  fronted ["fki", "fku", "fkd"] setting.foreignNames

/-- The names of the triggers that test values. -/
def domainTriggers : List String :=
  fronted ["cki", "cku"] (setting.keyed domainColumns)

/-- The names of the triggers that look for duplicates. -/
def uniqueTriggers : List String :=
  fronted ["cki", "cku", "cks"] setting.uniqueNames

/-- The names of the triggers that write through the view. -/
def writeTriggers : List String :=
  fronted setting.writeWords [setting.objectClass.key]

end ClassSetting

open ClassSetting in
/-- The families of names in a space. -/
def families : Backend → NameSpace → List (ClassSetting → List String)
  | _, .relation =>
      [fun setting => [setting.objectClass.table], fun setting => [setting.objectClass.key],
        keyed collectionTails]
  | _, .index => [fun setting => fronted ["idx"] (setting.keyed indexTails)]
  | .postgres, .function => [onceNames, searchNames, procedureNames]
  | .sqlite, .function => []
  | .postgres, .trigger => [onceNames, searchNames]
  | .sqlite, .trigger =>
      [foreignTriggers, onceNames, domainTriggers, uniqueTriggers, writeTriggers]

/-- The names in a space that are created for the class. -/
def ClassSetting.names (setting : ClassSetting) (space : NameSpace) : List String :=
  (families setting.backend space).flatMap fun family => family setting

/-! ## Families of several classes -/

section Several

variable
    {Item Value : Type}

theorem flatMap_flatMap_perm
    (items : List Item)
    (families : List (Item → List Value)) :
    (items.flatMap fun item => families.flatMap fun family => family item).Perm
      (families.flatMap items.flatMap) := by
  induction families with
  | nil => simp
  | cons family families inductionHypothesis =>
      simp only [List.flatMap_cons]
      refine (List.flatMap_append_perm items family _).symm.trans ?_
      exact inductionHypothesis.append_left _

/-- Nothing is repeated if no family repeats anything and no two families share anything. -/
theorem nodup_families_iff
    {items : List Item}
    {families : List (Item → List Value)} :
    (items.flatMap fun item => families.flatMap fun family => family item).Nodup ↔
      (∀ family ∈ families, (items.flatMap family).Nodup) ∧
        families.Pairwise fun first second =>
          (items.flatMap first).Disjoint (items.flatMap second) := by
  rw [(flatMap_flatMap_perm items families).nodup_iff, List.nodup_flatMap]

end Several

end ClassStore.Schema
