import ClassStore.Proofs.Catalog.DefaultNames
import ClassStore.Proofs.Schema.ComposedNames
import ClassStore.Proofs.Schema.Groups
import ClassStore.Schema.Script

/-!
# Created names

Tables and views share a space of names; indexes, functions and triggers have one
each.  `Statement.nameIn?` says which name a statement creates in a space, and
`sql_of_nameIn?` where it stands in the text of the statement.
-/

namespace ClassStore.Schema

open ClassStore.Catalog

/-! ## Names of statements -/

/-- The spaces in which the names of a schema have to differ. -/
inductive NameSpace where
  | relation
  | index
  | function
  | trigger
deriving DecidableEq, Repr

/-- Every space. -/
def NameSpace.every : List NameSpace :=
  [.relation, .index, .function, .trigger]

/-- What a statement that creates a name in the space begins with. -/
def NameSpace.headings : NameSpace → List String
  | .relation => ["CREATE TABLE ", "CREATE VIEW "]
  | .index => ["CREATE INDEX ", "CREATE UNIQUE INDEX "]
  | .function => ["CREATE FUNCTION "]
  | .trigger => ["CREATE TRIGGER "]

/-- The name that the statement creates in the space; a rule or a script creates none. -/
def Statement.nameIn? (backend : Backend) : NameSpace → Statement → Option String
  | .relation, .table definition => some definition.name
  | .relation, .junctionTable junction => some junction.table
  | .relation, .view definition => some definition.name
  | .relation, .junctionView junction _ => some junction.view
  | .index, .index definition => some definition.name
  | .function, .gtinFunction => some "isa_gtin"
  | .function, .checkFunction check => some check.name
  | .function, .procedure collection action =>
      match backend with
      | .postgres => some (collection.procedureName action)
      | .sqlite => none
  | .trigger, .checkTrigger check => some check.name
  | .trigger, .guard check => some check.trigger.name
  | .trigger, .write definition =>
      match backend with
      | .postgres => none
      | .sqlite => some definition.name
  | _, _ => none

/-- The text begins with the heading, the name and a character that ends the name. -/
def Begins (heading name text : String) : Prop :=
  ∃ delimiter ∈ [' ', '(', '\n'], ∃ rest,
    text.toList = heading.toList ++ name.toList ++ delimiter :: rest

section Begins

variable
    {heading name text : String}

theorem begins_of_separator
    {separator : String}
    (delimits : separator.toList.head?.any [' ', '(', '\n'].contains = true) :
    Begins heading name (heading ++ name ++ separator) := by
  rcases (Option.any_eq_true _ _).mp delimits with ⟨delimiter, isHead, isDelimiter⟩
  rcases List.head?_eq_some_iff.mp isHead with ⟨rest, whole⟩
  exact ⟨delimiter, List.contains_iff_mem.mp isDelimiter, rest,
    by rw [String.toList_append, String.toList_append, whole]⟩

theorem Begins.append
    (begins : Begins heading name text)
    (more : String) :
    Begins heading name (text ++ more) := by
  rcases begins with ⟨delimiter, isDelimiter, rest, whole⟩
  refine ⟨delimiter, isDelimiter, rest ++ more.toList, ?_⟩
  rw [String.toList_append, whole, List.append_assoc, List.cons_append]

theorem Begins.joinLines
    (begins : Begins heading name text)
    (line : String)
    (lines : List String) :
    Begins heading name (Schema.joinLines (text :: line :: lines)) := by
  rw [Schema.joinLines, String.intercalate_cons_cons]
  exact (begins.append _).append _

end Begins

theorem begins_triggerHead (backend : Backend) (name event table : String) :
    Begins "CREATE TRIGGER " name (triggerHead backend name event table) := by
  cases backend with
  | postgres =>
      iterate 6 apply Begins.append
      exact begins_of_separator (by decide)
  | sqlite =>
      iterate 4 apply Begins.append
      exact begins_of_separator (by decide)

theorem begins_triggerSql
    {name head : String}
    (begins : Begins "CREATE TRIGGER " name head)
    (condition : Option String)
    (statements : List String) :
    Begins "CREATE TRIGGER " name (triggerSql head condition statements) := by
  iterate 4 apply Begins.append
  exact begins

theorem begins_indexSql (index : Index) :
    ∃ heading ∈ NameSpace.index.headings, Begins heading index.name index.sql := by
  cases unique : index.unique with
  | true =>
      have heading : "CREATE " ++ "UNIQUE " ++ "INDEX " = "CREATE UNIQUE INDEX " := rfl
      refine ⟨"CREATE UNIQUE INDEX ", by decide, heading ▸ ?_⟩
      unfold Index.sql
      rw [if_pos unique]
      iterate 6 apply Begins.append
      exact begins_of_separator (by decide)
  | false =>
      have heading : "CREATE " ++ "" ++ "INDEX " = "CREATE INDEX " := rfl
      refine ⟨"CREATE INDEX ", by decide, heading ▸ ?_⟩
      unfold Index.sql
      rw [if_neg (by simp [unique])]
      iterate 6 apply Begins.append
      exact begins_of_separator (by decide)

theorem begins_functionSql (function : Function) :
    Begins "CREATE FUNCTION " function.name function.sql := by
  iterate 8 apply Begins.append
  exact begins_of_separator (by decide)

theorem begins_gtinFunctionSql : Begins "CREATE FUNCTION " "isa_gtin" gtinFunctionSql := by
  have first : Begins "CREATE FUNCTION " "isa_gtin"
      "CREATE FUNCTION isa_gtin(code TEXT) RETURNS BOOLEAN AS $$" :=
    ⟨'(', by decide, "code TEXT) RETURNS BOOLEAN AS $$".toList, by decide⟩
  exact first.joinLines _ _

theorem Guard.begins_sql (check : Guard) :
    Begins "CREATE TRIGGER " check.trigger.name check.trigger.sql :=
  begins_triggerSql (begins_triggerHead _ _ _ _) _ _

theorem ViewWrite.begins_sql (write : ViewWrite) :
    Begins "CREATE TRIGGER " write.name (write.sql .sqlite) := by
  apply begins_triggerSql
  iterate 4 apply Begins.append
  exact begins_of_separator (by decide)

theorem begins_tableSql (backend : Backend) (table : Table) :
    Begins "CREATE TABLE " table.name (table.sql backend) := by
  iterate 2 apply Begins.append
  exact begins_of_separator (by decide)

theorem begins_junctionTableSql (junction : Junction) :
    Begins "CREATE TABLE " junction.table (junctionTableSql junction) :=
  (begins_of_separator (by decide)).joinLines _ _

theorem begins_viewSql (view : View) : Begins "CREATE VIEW " view.name view.sql := by
  iterate 4 apply Begins.append
  exact begins_of_separator (by decide)

theorem begins_junctionViewSql (junction : Junction) (memberView : String) :
    Begins "CREATE VIEW " junction.view (junctionViewSql junction memberView) :=
  (begins_of_separator (by decide)).joinLines _ _

/-- A created name stands behind a heading of its space. -/
theorem sql_of_nameIn?
    {backend : Backend}
    {space : NameSpace}
    {statement : Statement}
    {name : String}
    (creates : statement.nameIn? backend space = some name) :
    ∃ heading ∈ space.headings, Begins heading name (statement.sql backend) := by
  cases statement <;> cases space <;>
    simp only [Statement.nameIn?, Option.some.injEq, reduceCtorEq] at creates
  case gtinFunction.function =>
    subst creates
    exact ⟨_, List.mem_singleton_self _, begins_gtinFunctionSql⟩
  case table.relation definition =>
    subst creates
    exact ⟨_, List.mem_cons_self, begins_tableSql backend definition⟩
  case junctionTable.relation junction =>
    subst creates
    exact ⟨_, List.mem_cons_self, begins_junctionTableSql junction⟩
  case index.index definition =>
    subst creates
    exact begins_indexSql definition
  case checkFunction.function check =>
    subst creates
    exact ⟨_, List.mem_singleton_self _, begins_functionSql check.function⟩
  case checkTrigger.trigger check =>
    subst creates
    exact ⟨_, List.mem_singleton_self _, begins_triggerHead .postgres _ _ _⟩
  case guard.trigger check =>
    subst creates
    exact ⟨_, List.mem_singleton_self _, check.begins_sql⟩
  case procedure.function collection action =>
    cases backend with
    | postgres =>
        cases creates
        exact ⟨_, List.mem_singleton_self _, begins_functionSql (collection.function action)⟩
    | sqlite => cases creates
  case view.relation definition =>
    subst creates
    exact ⟨_, List.mem_cons_of_mem _ (List.mem_singleton_self _), begins_viewSql definition⟩
  case junctionView.relation junction memberView =>
    subst creates
    exact ⟨_, List.mem_cons_of_mem _ (List.mem_singleton_self _),
      begins_junctionViewSql junction memberView⟩
  case write.trigger definition =>
    cases backend with
    | postgres => cases creates
    | sqlite =>
        cases creates
        exact ⟨_, List.mem_singleton_self _, definition.begins_sql⟩

/-- What statements begin with that create no name in any of the spaces. -/
def otherOpenings : List String :=
  ["CREATE DOMAIN ", "CREATE SEQUENCE ", "CREATE RULE ", "ALTER TABLE ", "-- "]

theorem prefix_append
    {opening text : String}
    (opens : opening.toList <+: text.toList)
    (more : String) :
    opening.toList <+: (text ++ more).toList := by
  rw [String.toList_append]
  exact opens.trans (List.prefix_append _ _)

theorem prefix_joinLines
    {opening text : String}
    (opens : opening.toList <+: text.toList)
    (line : String)
    (lines : List String) :
    opening.toList <+: (joinLines (text :: line :: lines)).toList := by
  rw [joinLines, String.intercalate_cons_cons]
  exact prefix_append (prefix_append opens _) _

theorem opening_of_nameless
    {backend : Backend}
    {statement : Statement}
    (nameless : ∀ space, statement.nameIn? backend space = none) :
    ∃ opening ∈ otherOpenings, opening.toList <+: (statement.sql backend).toList := by
  cases statement with
  | domain type base =>
      refine ⟨"CREATE DOMAIN ", by decide, ?_⟩
      iterate 8 apply prefix_append
      exact List.prefix_rfl
  | sequence name =>
      refine ⟨"CREATE SEQUENCE ", by decide, ?_⟩
      iterate 2 apply prefix_append
      exact List.prefix_rfl
  | primaryKey relation key =>
      refine ⟨"ALTER TABLE ", by decide, ?_⟩
      iterate 4 apply prefix_append
      exact List.prefix_rfl
  | foreignKey key =>
      refine ⟨"ALTER TABLE ", by decide, ?_⟩
      iterate 10 apply prefix_append
      exact List.prefix_rfl
  | fallbackRule key target =>
      refine ⟨"CREATE RULE ", by decide, ?_⟩
      iterate 4 apply prefix_append
      decide
  | procedure collection action =>
      cases backend with
      | postgres => cases nameless .function
      | sqlite =>
          refine ⟨"-- ", by decide, ?_⟩
          exact prefix_joinLines (prefix_append List.prefix_rfl _) _ _
  | write definition =>
      cases backend with
      | postgres =>
          refine ⟨"CREATE RULE ", by decide, ?_⟩
          iterate 9 apply prefix_append
          exact List.prefix_rfl
      | sqlite => cases nameless .trigger
  | gtinFunction => cases nameless .function
  | table => cases nameless .relation
  | junctionTable => cases nameless .relation
  | index => cases nameless .index
  | checkFunction => cases nameless .function
  | checkTrigger => cases nameless .trigger
  | guard => cases nameless .trigger
  | view => cases nameless .relation
  | junctionView => cases nameless .relation

theorem Begins.opens
    {heading name text : String}
    (begins : Begins heading name text) :
    heading.toList <+: text.toList := by
  rcases begins with ⟨delimiter, _, rest, whole⟩
  rw [whole, List.append_assoc]
  exact List.prefix_append _ _

/-- Headings tell the spaces apart. -/
theorem NameSpace.eq_of_headings
    {space other : NameSpace}
    {heading otherHeading : String}
    (isHeading : heading ∈ space.headings)
    (isOther : otherHeading ∈ other.headings)
    (opens : heading.toList <+: otherHeading.toList) :
    space = other := by
  have apart : ∀ heading ∈ space.headings, ∀ otherHeading ∈ other.headings,
      heading.toList <+: otherHeading.toList → space = other := by
    cases space <;> cases other <;> decide
  exact apart heading isHeading otherHeading isOther opens

/-- A statement creates a name in a space if and only if its text begins with a heading. -/
theorem isSome_nameIn?_iff
    {backend : Backend}
    {space : NameSpace}
    {statement : Statement} :
    (statement.nameIn? backend space).isSome ↔
      ∃ heading ∈ space.headings, heading.toList <+: (statement.sql backend).toList := by
  constructor
  · intro creates
    rcases Option.isSome_iff_exists.mp creates with ⟨name, isName⟩
    rcases sql_of_nameIn? isName with ⟨heading, isHeading, begins⟩
    exact ⟨heading, isHeading, begins.opens⟩
  · rintro ⟨heading, isHeading, opens⟩
    by_cases nameless : ∀ other, statement.nameIn? backend other = none
    · rcases opening_of_nameless nameless with ⟨opening, isOpening, opensToo⟩
      have apart : ∀ heading ∈ space.headings, ∀ opening ∈ otherOpenings,
          ¬ heading.toList <+: opening.toList ∧ ¬ opening.toList <+: heading.toList := by
        cases space <;> decide
      rcases List.prefix_or_prefix_of_prefix opens opensToo with shorter | longer
      · exact absurd shorter (apart heading isHeading opening isOpening).1
      · exact absurd longer (apart heading isHeading opening isOpening).2
    · rcases Classical.not_forall.mp nameless with ⟨other, creates⟩
      rcases Option.ne_none_iff_exists'.mp creates with ⟨name, isName⟩
      rcases sql_of_nameIn? isName with ⟨otherHeading, isOther, begins⟩
      have same : space = other := by
        rcases List.prefix_or_prefix_of_prefix opens begins.opens with shorter | longer
        · exact NameSpace.eq_of_headings isHeading isOther shorter
        · exact (NameSpace.eq_of_headings isOther isHeading longer).symm
      rw [same, isName]
      rfl

/-! ## Names of scripts -/

/-- The names that statements create in a space, in their order. -/
def createdNames (backend : Backend) (space : NameSpace) (statements : List Statement) :
    List String :=
  statements.filterMap (Statement.nameIn? backend space)

section Scripts

variable
    {backend : Backend}
    {space : NameSpace}

theorem createdNames_cons (statement : Statement) (statements : List Statement) :
    createdNames backend space (statement :: statements) =
      (statement.nameIn? backend space).toList ++ createdNames backend space statements := by
  rw [createdNames, List.filterMap_cons]
  cases statement.nameIn? backend space <;> rfl

@[simp]
theorem createdNames_append (front back : List Statement) :
    createdNames backend space (front ++ back) =
      createdNames backend space front ++ createdNames backend space back :=
  List.filterMap_append

@[simp]
theorem createdNames_flatMap
    {Item : Type}
    (items : List Item)
    (statements : Item → List Statement) :
    createdNames backend space (items.flatMap statements) =
      items.flatMap fun item => createdNames backend space (statements item) :=
  List.filterMap_flatMap

/-- Statements made of one item each create the names of their items. -/
theorem createdNames_map
    {Item : Type}
    {statement : Item → Statement}
    {name : Item → String}
    (creates : ∀ item, (statement item).nameIn? backend space = some (name item))
    (items : List Item) :
    createdNames backend space (items.map statement) = items.map name := by
  rw [createdNames, List.filterMap_map]
  simp [creates]

theorem createdNames_eq_nil
    {statements : List Statement}
    (nameless : ∀ statement ∈ statements, statement.nameIn? backend space = none) :
    createdNames backend space statements = [] :=
  List.filterMap_eq_nil_iff.mpr nameless

end Scripts

end ClassStore.Schema
