import ClassStore.Proofs.Schema.Writes
import ClassStore.Schema.ClassSchema

/-!
# Objects of a schema

A schema creates tables, views and sequences, and its statements use what other
statements have created.  `Grounded` says that a list of statements uses nothing
before it is created; it is checked statement by statement, and lists of statements
are put together by `Grounded.append`.
-/

namespace ClassStore.Schema

open ClassStore.Catalog

/-- A table, a view or a sequence. -/
inductive SchemaObject where
  | relation (name : String)
  | sequence (name : String)
deriving DecidableEq, Repr

/-! ## What a statement uses -/

/-- What a value is computed from. -/
def Expression.uses : Expression → List SchemaObject
  | .nextNumber sequence => [.sequence sequence]
  | .currentNumber sequence => [.sequence sequence]
  | .greatestNumber table => [.relation table]
  | .new _ => []
  | .old _ => []
  | .newOrDefault _ _ => []
  | .newOrKept _ _ => []
  | .lastRow => []

/-- The relation that is written to, and what the values are computed from. -/
def WriteStatement.uses (statement : WriteStatement) : List SchemaObject :=
  .relation statement.target :: statement.values.flatMap Expression.uses

/-- The view that is written to, and what the statements use in its place. -/
def ViewWrite.uses (write : ViewWrite) : List SchemaObject :=
  .relation write.view :: write.statements.flatMap WriteStatement.uses

/-- The sequence from which a column of numbers is filled. -/
def IdColumn.uses : IdColumn → List SchemaObject
  | .drawn sequence => [.sequence sequence]
  | .given => []
  | .counted => []
  | .givenKey => []

def Join.relation : Join → String
  | .table name => name
  | .reference _ view _ _ _ => view

/-- The tables that a function searches. -/
def FunctionCheck.searched : FunctionCheck → List String
  | .once _ => []
  | .unique rule => [rule.table, rule.stateTable]
  | .revival rule => [rule.table, rule.stateTable]

/-- The tables that a trigger searches or changes. -/
def Guard.searched : Guard → List String
  | .dangling _ key => [key.target]
  | .deletion key => [key.table]
  | .once _ => []
  | .domain _ _ => []
  | .unique _ rule => [rule.table, rule.stateTable]
  | .revival rule => [rule.table, rule.stateTable]

namespace Statement

/-- What the statement creates. -/
def creates : Statement → List SchemaObject
  | .sequence name => [.sequence name]
  | .table definition => [.relation definition.name]
  | .junctionTable junction => [.relation junction.table]
  | .view definition => [.relation definition.name]
  | .junctionView junction _ => [.relation junction.view]
  | .gtinFunction => []
  | .domain _ _ => []
  | .index _ => []
  | .primaryKey _ _ => []
  | .foreignKey _ => []
  | .checkFunction _ => []
  | .checkTrigger _ => []
  | .guard _ => []
  | .procedure _ _ => []
  | .write _ => []
  | .fallbackRule _ _ => []

/-- What the statement names beside what it creates. -/
def uses : Statement → List SchemaObject
  | .gtinFunction => []
  | .domain _ _ => []
  | .sequence _ => []
  | .table definition => definition.id.uses
  | .junctionTable _ => []
  | .index definition => [.relation definition.table]
  | .primaryKey name _ => [.relation name]
  | .foreignKey key => [.relation key.table, .relation key.target]
  | .checkFunction check => check.searched.map .relation
  | .checkTrigger check => .relation check.table :: check.searched.map .relation
  | .guard check => .relation check.trigger.table :: check.searched.map .relation
  | .procedure collection _ =>
      [.relation collection.table, .relation collection.junction.table]
  | .view definition =>
      .relation definition.root :: definition.joins.map fun join => .relation join.relation
  | .junctionView junction memberView => [.relation junction.table, .relation memberView]
  | .write definition => definition.uses
  | .fallbackRule _ target => [.relation target]

/-- Everything that the statement uses has been created. -/
def Supported (statement : Statement) (created : List SchemaObject) : Prop :=
  ∀ object ∈ statement.uses, object ∈ created

theorem Supported.mono
    {statement : Statement}
    {created more : List SchemaObject}
    (supported : statement.Supported created)
    (contained : created ⊆ more) :
    statement.Supported more :=
  fun object isUsed => contained (supported object isUsed)

end Statement

/-! ## Use after creation -/

/-- Every statement uses only what was created before, or by a statement in front of it. -/
def Grounded (created : List SchemaObject) : List Statement → Prop
  | [] => True
  | statement :: statements =>
      statement.Supported created ∧ Grounded (created ++ statement.creates) statements

section Grounded

variable
    {created more : List SchemaObject}
    {statements others : List Statement}

theorem Grounded.mono
    (grounded : Grounded created statements)
    (contained : created ⊆ more) :
    Grounded more statements := by
  induction statements generalizing created more with
  | nil => trivial
  | cons statement statements inductionHypothesis =>
      refine ⟨grounded.1.mono contained, inductionHypothesis grounded.2 ?_⟩
      exact List.append_subset.mpr
        ⟨List.Subset.trans contained (List.subset_append_left _ _), List.subset_append_right _ _⟩

theorem Grounded.append
    (grounded : Grounded created statements)
    (following : Grounded (created ++ statements.flatMap Statement.creates) others) :
    Grounded created (statements ++ others) := by
  induction statements generalizing created with
  | nil =>
      rw [List.flatMap_nil, List.append_nil] at following
      exact following
  | cons statement statements inductionHypothesis =>
      refine ⟨grounded.1, inductionHypothesis grounded.2 ?_⟩
      rwa [List.append_assoc, ← List.flatMap_cons]

/-- Statements that need nothing of each other may come in any order. -/
theorem grounded_of_supported
    (supported : ∀ statement ∈ statements, statement.Supported created) :
    Grounded created statements := by
  induction statements generalizing created with
  | nil => trivial
  | cons statement statements inductionHypothesis =>
      refine ⟨supported statement List.mem_cons_self, inductionHypothesis ?_⟩
      intro other isOther
      exact (supported other (List.mem_cons_of_mem _ isOther)).mono
        (List.subset_append_left _ _)

/-- What a statement uses was there at the beginning or is created by a statement in front. -/
theorem Grounded.mem_or_exists_creator
    {front back : List Statement}
    {statement : Statement}
    (grounded : Grounded created (front ++ statement :: back))
    {object : SchemaObject}
    (isUsed : object ∈ statement.uses) :
    object ∈ created ∨ ∃ creator ∈ front, object ∈ creator.creates := by
  induction front generalizing created with
  | nil => exact .inl (grounded.1 object isUsed)
  | cons first front inductionHypothesis =>
      rcases inductionHypothesis grounded.2 with isCreated | ⟨creator, inFront, creates⟩
      · rcases List.mem_append.mp isCreated with isOld | creates
        · exact .inl isOld
        · exact .inr ⟨first, List.mem_cons_self, creates⟩
      · exact .inr ⟨creator, List.mem_cons_of_mem _ inFront, creates⟩

end Grounded

/-! ## Statements of constraints -/

theorem ForeignKey.table_deletionTrigger (key : ForeignKey) :
    key.deletionTrigger.table = key.target := by
  rw [deletionTrigger]
  cases key.onDelete <;> rfl

section Constraints

variable
    {created : List SchemaObject}
    {backend : Backend}
    {statement : Statement}

theorem supported_guard
    {check : Guard}
    (host : .relation check.trigger.table ∈ created)
    (searched : ∀ table ∈ check.searched, .relation table ∈ created) :
    (Statement.guard check).Supported created := by
  intro object isUsed
  rcases List.mem_cons.mp isUsed with rfl | isSearched
  · exact host
  · rcases List.mem_map.mp isSearched with ⟨table, inCheck, rfl⟩
    exact searched table inCheck

theorem supported_of_functionCheck
    (check : FunctionCheck)
    (host : .relation check.table ∈ created)
    (searched : ∀ table ∈ check.searched, .relation table ∈ created)
    (isStatement : statement ∈ check.statements) :
    statement.Supported created := by
  have supported : ∀ object ∈ check.searched.map SchemaObject.relation, object ∈ created := by
    intro object isSearched
    rcases List.mem_map.mp isSearched with ⟨table, inCheck, rfl⟩
    exact searched table inCheck
  rcases List.mem_cons.mp isStatement with rfl | isTrigger
  · exact supported
  · rw [List.mem_singleton.mp isTrigger]
    exact List.forall_mem_cons.mpr ⟨host, supported⟩

theorem supported_of_foreignKey
    {key : ForeignKey}
    (table : .relation key.table ∈ created)
    (target : .relation key.target ∈ created)
    (isStatement : statement ∈ key.statements backend) :
    statement.Supported created := by
  cases backend with
  | postgres =>
      rw [List.mem_singleton.mp isStatement]
      exact List.forall_mem_cons.mpr ⟨table, List.forall_mem_singleton.mpr target⟩
  | sqlite =>
      simp only [ForeignKey.statements, List.mem_cons, List.not_mem_nil, or_false] at isStatement
      rcases isStatement with rfl | rfl | rfl
      · exact supported_guard table (List.forall_mem_singleton.mpr target)
      · exact supported_guard table (List.forall_mem_singleton.mpr target)
      · have host : .relation (Guard.deletion key).trigger.table ∈ created := by
          rw [Guard.trigger, ForeignKey.table_deletionTrigger]
          exact target
        exact supported_guard host (List.forall_mem_singleton.mpr table)

theorem supported_of_onceRule
    {rule : OnceRule}
    (table : .relation rule.table ∈ created)
    (isStatement : statement ∈ rule.statements backend) :
    statement.Supported created := by
  cases backend with
  | postgres => exact supported_of_functionCheck (.once rule) table nofun isStatement
  | sqlite =>
      rw [List.mem_singleton.mp isStatement]
      exact supported_guard table nofun

theorem supported_of_domainRule
    {rule : DomainRule}
    (table : .relation rule.table ∈ created)
    (isStatement : statement ∈ rule.statements backend) :
    statement.Supported created := by
  cases backend with
  | postgres => cases isStatement
  | sqlite =>
      rw [DomainRule.statements] at isStatement
      split at isStatement
      · simp only [List.mem_cons, List.not_mem_nil, or_false] at isStatement
        rcases isStatement with rfl | rfl
        · exact supported_guard table nofun
        · exact supported_guard table nofun
      · cases isStatement

theorem supported_of_softUnique
    {rule : SoftUnique}
    (table : .relation rule.table ∈ created)
    (stateTable : .relation rule.stateTable ∈ created)
    (isStatement : statement ∈ rule.statements backend) :
    statement.Supported created := by
  have both : ∀ name ∈ [rule.table, rule.stateTable], SchemaObject.relation name ∈ created :=
    List.forall_mem_cons.mpr ⟨table, List.forall_mem_singleton.mpr stateTable⟩
  cases backend with
  | postgres =>
      rcases List.mem_append.mp isStatement with ofUnique | ofRevival
      · exact supported_of_functionCheck (.unique rule) table both ofUnique
      · exact supported_of_functionCheck (.revival rule) stateTable both ofRevival
  | sqlite =>
      simp only [SoftUnique.statements, List.mem_cons, List.not_mem_nil, or_false] at isStatement
      rcases isStatement with rfl | rfl | rfl
      · exact supported_guard table both
      · exact supported_guard table both
      · exact supported_guard stateTable both

end Constraints

/-! ## Writes -/

namespace ClassSetting

variable
    {setting : ClassSetting}
    {created : List SchemaObject}

theorem uses_newValue (config : Config) (attr : Attribute) :
    (config.newValue attr).uses = [] := by
  rw [Config.newValue]
  split <;> rfl

/-- The row of a class uses the table of the class, and what its numbers are computed from. -/
theorem uses_insertRow_subset
    {linked number : Option Expression}
    {owner : ObjectClass}
    (table : .relation owner.table ∈ created)
    (ofNumber : ∀ value ∈ number, value.uses ⊆ created)
    (ofLinked : ∀ value ∈ linked, value.uses ⊆ created) :
    (setting.insertRow linked number owner).uses ⊆ created := by
  refine List.cons_subset.mpr ⟨table, ?_⟩
  intro object isUsed
  rcases List.mem_flatMap.mp isUsed with ⟨value, isValue, ofValue⟩
  rcases mem_values_insertRow_iff.mp isValue with isNumber | ⟨attr, _, rfl⟩
  · exact ofNumber value isNumber ofValue
  · rcases setting.insertedValue_eq_or linked owner attr with isNew | ⟨_, given⟩
    · rw [isNew, uses_newValue] at ofValue
      cases ofValue
    · exact ofLinked _ given ofValue

end ClassSetting

/-- A statement whose values only read columns uses nothing but the relation it writes to. -/
theorem uses_subset_of_columns
    {statement : WriteStatement}
    {created : List SchemaObject}
    (relation : .relation statement.target ∈ created)
    (columns : ∀ value ∈ statement.values, value.uses = []) :
    statement.uses ⊆ created := by
  refine List.cons_subset.mpr ⟨relation, ?_⟩
  intro object isUsed
  rcases List.mem_flatMap.mp isUsed with ⟨value, isValue, ofValue⟩
  rw [columns value isValue] at ofValue
  cases ofValue

theorem supported_write
    {write : ViewWrite}
    {created : List SchemaObject}
    (view : .relation write.view ∈ created)
    (statements : ∀ statement ∈ write.statements, statement.uses ⊆ created) :
    (Statement.write write).Supported created := by
  refine List.forall_mem_cons.mpr ⟨view, ?_⟩
  intro object isUsed
  rcases List.mem_flatMap.mp isUsed with ⟨statement, isStatement, ofStatement⟩
  exact statements statement isStatement ofStatement

end ClassStore.Schema
