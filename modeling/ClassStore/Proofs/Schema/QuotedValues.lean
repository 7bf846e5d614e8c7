import ClassStore.Proofs.Schema.LaidOutDefaults
import ClassStore.Proofs.Sql.ClosedLiterals

/-!
# Values that a schema quotes

Defaults of columns, the texts in the checks of domains and the messages with which SQLite
aborts a change are written as string literals.  No such value ends its literal early,
whatever quotes and line feeds it has (`quoted_values_closed`).

Names are never quoted, as they are not in SQL.  The exceptions of PostgreSQL hold nothing
but names, and are written between quotes as they are; a name without quotes leaves them
closed (`exception_closed`).
-/

namespace ClassStore.Schema

open ClassStore.Catalog

/-! ## The values -/

/-- A value that is written as a literal, with what stands right in front of the literal. -/
structure QuotedValue where
  lead : String
  value : String
deriving DecidableEq, Repr

/-- The value as it reads in a rule or trigger. -/
def QuotedValue.inBlock (quoted : QuotedValue) : QuotedValue :=
  ⟨laidOut quoted.lead, laidOut quoted.value⟩

/-- The texts that a check of values of the type has in it, whatever it is a check of. -/
def checkedTexts : SemanticType → List QuotedValue
  | .operator => Search.Operator.every.map fun operator => ⟨"", operator.word⟩
  | .mediaType => [⟨"", mediaTypePattern⟩]
  | .version => [⟨"", versionPattern⟩]
  | _ => []

/-- The text of a default that is written as a literal. -/
def DefaultValue.text? : DefaultValue → Option String
  | .text value => some value
  | .generated _ => none
  | .integer _ => none
  | .truth _ => none

/-- The text in the default of a column, behind all else that is said of the column. -/
def Column.quoted? (column : Column) : Option QuotedValue :=
  (column.default.bind DefaultValue.text?).map fun text =>
    ⟨column.name ++ " " ++ column.type ++ (if column.required then " NOT NULL" else "") ++
      " DEFAULT ", text⟩

/-- The text that stands in for a new value. -/
def Expression.quoted? : Expression → Option QuotedValue
  | .newOrDefault column default =>
      default.text?.map fun text => ⟨"COALESCE(NEW." ++ column ++ ", ", text⟩
  | _ => none

/-- The texts in an insert; other writes have no defaults. -/
def WriteStatement.quoted : WriteStatement → List QuotedValue
  | .insert _ _ values => values.filterMap Expression.quoted?
  | .update _ _ _ => []
  | .delete _ => []

/-- What a guard says of a change that it aborts; some guards change other rows instead. -/
def Guard.message? : Guard → Option String
  | .dangling _ key => some (key.violation "insert or update" key.table)
  | .deletion key =>
      match key.onDelete with
      | .restrict => some (key.violation "delete" key.target)
      | .cascade => none
      | .setNull => none
  | .once rule => some rule.message
  | .domain _ rule => some rule.message
  | .unique _ rule => some rule.message
  | .revival rule => some rule.message

/-- The texts in the condition of a guard. -/
def Guard.checkedTexts : Guard → List QuotedValue
  | .domain _ rule => Schema.checkedTexts rule.type
  | .dangling _ _ => []
  | .deletion _ => []
  | .once _ => []
  | .unique _ _ => []
  | .revival _ => []

/-- The message with which a change is aborted. -/
def abortMessage (message : String) : QuotedValue :=
  ⟨"SELECT RAISE(ABORT, ", message⟩

/-- The values that a statement writes as literals, laid out where the statement is. -/
def Statement.quoted : Statement → List QuotedValue
  | .domain type _ => checkedTexts type
  | .table definition => definition.columns.filterMap Column.quoted?
  | .guard check =>
      check.checkedTexts ++ check.message?.toList.map fun message => (abortMessage message).inBlock
  | .write definition =>
      (definition.statements.flatMap WriteStatement.quoted).map QuotedValue.inBlock
  | _ => []

/-! ## Checks -/

theorem quotes_operatorLiterals
    {quoted : QuotedValue}
    (isWord : quoted ∈ checkedTexts .operator) :
    Sql.Quotes operatorLiterals quoted.lead quoted.value := by
  rcases List.mem_map.mp isWord with ⟨operator, isOperator, rfl⟩
  have isLiteral : "" ++ Sql.literal operator.word ∈
      Search.Operator.every.map fun operator => Sql.literal operator.word := by
    rewrite [String.empty_append]
    exact List.mem_map_of_mem isOperator
  rewrite [operatorLiterals]
  exact (Sql.Quotes.of_literal "" operator.word).of_mem_intercalate isLiteral (by decide)

/-- The check of a type quotes the texts that it has in it. -/
theorem exists_domainCheck
    {type : SemanticType}
    {quoted : QuotedValue}
    (isChecked : quoted ∈ checkedTexts type)
    (backend : Backend)
    (value : String) :
    ∃ check,
      domainCheck backend type value = some check ∧
      Sql.Quotes check quoted.lead quoted.value := by
  have matched : ∀ pattern, Sql.Quotes
      (value ++ " " ++ regexOperator backend ++ " " ++ Sql.literal pattern) "" pattern := by
    intro pattern
    have written := Sql.Quotes.of_literal "" pattern
    rewrite [String.empty_append] at written
    exact written.behind _
  cases type with
  | operator =>
      exact ⟨_, rfl, (quotes_operatorLiterals isChecked).within (value ++ " IN (") (by decide)⟩
  | mediaType =>
      cases List.mem_singleton.mp isChecked
      exact ⟨_, rfl, matched mediaTypePattern⟩
  | version =>
      cases List.mem_singleton.mp isChecked
      exact ⟨_, rfl, matched versionPattern⟩
  | _ => cases isChecked

theorem quotes_domainSql
    {type : SemanticType}
    {quoted : QuotedValue}
    (isChecked : quoted ∈ checkedTexts type)
    (backend : Backend)
    (base : String) :
    Sql.Quotes (domainSql backend type base) quoted.lead quoted.value := by
  rcases exists_domainCheck isChecked backend "VALUE" with ⟨check, isCheck, quotes⟩
  unfold domainSql
  rewrite [isCheck, Option.getD_some]
  exact quotes.within _ (by decide)

theorem DomainRule.quotes_isViolated
    {rule : DomainRule}
    {quoted : QuotedValue}
    (isChecked : quoted ∈ checkedTexts rule.type) :
    Sql.Quotes rule.isViolated quoted.lead quoted.value := by
  rcases exists_domainCheck isChecked .sqlite ("NEW." ++ rule.column) with
    ⟨check, isCheck, quotes⟩
  rewrite [isViolated, predicate?, isCheck, Option.getD_some]
  exact quotes.within _ (by decide)

/-! ## Defaults -/

section Defaults

variable
    {backend : Backend}
    {quoted : QuotedValue}

theorem sql_of_text?
    {default : DefaultValue}
    {text : String}
    (isText : default.text? = some text) :
    default.sql backend = Sql.literal text := by
  cases default with
  | text value =>
      cases isText
      rfl
  | generated _ => cases isText
  | integer _ => cases isText
  | truth _ => cases isText

/-- A column ends with the literal of its default. -/
theorem Column.quotes_sql
    {column : Column}
    (isQuoted : column.quoted? = some quoted) :
    Sql.Quotes (column.sql backend) quoted.lead quoted.value := by
  rcases Option.map_eq_some_iff.mp isQuoted with ⟨text, isText, rfl⟩
  rcases Option.bind_eq_some_iff.mp isText with ⟨default, hasDefault, isText⟩
  have written : column.sql backend =
      column.name ++ " " ++ column.type ++ (if column.required then " NOT NULL" else "") ++
        " DEFAULT " ++ Sql.literal text := by
    rw [Column.sql, hasDefault]
    simp only [sql_of_text? isText, String.append_assoc]
  rewrite [written]
  exact Sql.Quotes.of_literal _ text

theorem Table.quotes_sql
    {table : Table}
    (isQuoted : quoted ∈ table.columns.filterMap Column.quoted?) :
    Sql.Quotes (table.sql backend) quoted.lead quoted.value := by
  rcases List.mem_filterMap.mp isQuoted with ⟨column, isColumn, ofColumn⟩
  have inColumns : column.sql backend ∈ table.id.sql :: table.columns.map (Column.sql backend) :=
    List.mem_cons_of_mem _ (List.mem_map_of_mem isColumn)
  exact ((Column.quotes_sql ofColumn).of_mem_intercalate inColumns (by decide)).within _
    (by decide)

/-- A value that may be missing is written with the literal of its default. -/
theorem Expression.quotes_sql
    {value : Expression}
    (isQuoted : value.quoted? = some quoted) :
    Sql.Quotes (value.sql backend) quoted.lead quoted.value ∧
      Text.opensInline quoted.lead = true := by
  rw [Expression.quoted?.eq_def] at isQuoted
  split at isQuoted
  · next column default =>
      rcases Option.map_eq_some_iff.mp isQuoted with ⟨text, isText, rfl⟩
      have written : (Expression.newOrDefault column default).sql backend =
          "COALESCE(NEW." ++ column ++ ", " ++ Sql.literal text ++ ")" := by
        rw [← sql_of_text? isText]
        rfl
      constructor
      · rewrite [written]
        exact (Sql.Quotes.of_literal _ text).append (by decide)
      · exact Text.opensInline_append (Text.opensInline_append (by decide) _) _
  · cases isQuoted

/-- An insert quotes the texts of its defaults. -/
theorem WriteStatement.quotes_sql_insert
    {target : String}
    {columns : List String}
    {values : List Expression}
    (isQuoted : quoted ∈ (WriteStatement.insert target columns values).quoted) :
    Sql.Quotes ((WriteStatement.insert target columns values).sql backend)
        quoted.lead quoted.value ∧
      Text.opensInline quoted.lead = true := by
  rcases List.mem_filterMap.mp isQuoted with ⟨value, isValue, ofValue⟩
  have inValues : value.sql backend ∈ values.map (Expression.sql backend) :=
    List.mem_map_of_mem isValue
  rcases Expression.quotes_sql ofValue with ⟨quotes, leadOpens⟩
  refine ⟨?_, leadOpens⟩
  rewrite [sql_insert]
  exact (quotes.of_mem_intercalate inValues (by decide)).within _ (by decide)

end Defaults

/-! ## Rules and triggers -/

section Layout

variable
    {statement lead value : String}
    {statements : List String}

/-- Statements that are laid out quote what their values become. -/
theorem quotes_statementBlock
    (isStatement : statement ∈ statements)
    (opens : Text.opensInline statement = true)
    (closes : Text.closesInline statement = true)
    (leadOpens : Text.opensInline lead = true)
    (quotes : Sql.Quotes statement lead value) :
    Sql.Quotes (statementBlock statements) (laidOut lead) (laidOut value) := by
  have ended : Sql.Quotes (Text.indent 2 statement ++ ";") (laidOut lead) (laidOut value) :=
    (quotes.indent leadOpens opens closes).append (by decide)
  have inBlock : Text.indent 2 statement ++ ";" ∈
      statements.map fun statement => Text.indent 2 statement ++ ";" :=
    List.mem_map_of_mem isStatement
  rewrite [statementBlock]
  exact ended.of_mem_intercalate inBlock (by decide)

theorem quotes_triggerSql_of_statements
    (quotes : Sql.Quotes (statementBlock statements) lead value)
    (head : String)
    (condition : Option String) :
    Sql.Quotes (triggerSql head condition statements) lead value :=
  quotes.within _ (by decide)

theorem quotes_triggerSql_of_condition
    {condition : String}
    (quotes : Sql.Quotes condition lead value)
    (head : String)
    (statements : List String) :
    Sql.Quotes (triggerSql head (some condition) statements) lead value := by
  have split : triggerSql head (some condition) statements =
      head ++ ("\nWHEN " ++ condition) ++
        ("\nBEGIN\n" ++ statementBlock statements ++ "\nEND;") := by
    simp only [triggerSql, String.append_assoc]
  have ended : ("\nBEGIN\n" ++ statementBlock statements ++ "\nEND;").toList.head? ≠
      some '\'' := by
    simp [String.toList_append]
  rewrite [split]
  exact ((quotes.behind "\nWHEN ").behind head).append ended

end Layout

/-- A rule or trigger quotes the texts of its inserts, laid out. -/
theorem ViewWrite.quotes_sql
    {write : ViewWrite}
    {quoted : QuotedValue}
    (isQuoted : quoted ∈ write.statements.flatMap WriteStatement.quoted)
    (backend : Backend) :
    Sql.Quotes (write.sql backend) quoted.inBlock.lead quoted.inBlock.value := by
  rcases List.mem_flatMap.mp isQuoted with ⟨writing, isStatement, ofWriting⟩
  cases writing with
  | insert target columns values =>
      rcases WriteStatement.quotes_sql_insert ofWriting with ⟨quotes, leadOpens⟩
      have inBlock : Sql.Quotes
          (statementBlock (write.statements.map (WriteStatement.sql backend)))
          quoted.inBlock.lead quoted.inBlock.value :=
        quotes_statementBlock (List.mem_map_of_mem isStatement)
          (opensInline_sql_insert backend target columns values)
          (closesInline_sql_insert backend target columns values) leadOpens quotes
      cases backend with
      | postgres => exact inBlock.within _ (by decide)
      | sqlite => exact quotes_triggerSql_of_statements inBlock _ _
  | update target assignments id => cases ofWriting
  | delete target => cases ofWriting

/-- A trigger that aborts a change quotes its message, laid out. -/
theorem quotes_abortStatement
    (message head : String)
    (condition : Option String) :
    Sql.Quotes (triggerSql head condition [abortStatement message])
      (abortMessage message).inBlock.lead (abortMessage message).inBlock.value := by
  have quotes : Sql.Quotes (abortStatement message) "SELECT RAISE(ABORT, " message :=
    (Sql.Quotes.of_literal _ message).append (by decide)
  have opens : Text.opensInline (abortStatement message) = true :=
    Text.opensInline_append (Text.opensInline_append (by decide) _) _
  have closes : Text.closesInline (abortStatement message) = true :=
    Text.closesInline_append (by decide) _
  have inBlock := quotes_statementBlock (List.mem_singleton_self _) opens closes (by decide) quotes
  exact quotes_triggerSql_of_statements inBlock head condition

theorem Guard.statement_trigger
    {check : Guard}
    {message : String}
    (isMessage : check.message? = some message) :
    check.trigger.statement = abortStatement message := by
  cases check with
  | deletion key =>
      rw [message?] at isMessage
      rw [trigger, ForeignKey.deletionTrigger]
      cases onDelete : key.onDelete with
      | restrict =>
          rw [onDelete] at isMessage
          cases isMessage
          rfl
      | cascade =>
          rw [onDelete] at isMessage
          cases isMessage
      | setNull =>
          rw [onDelete] at isMessage
          cases isMessage
  | _ =>
      cases isMessage
      rfl

/-- A guard quotes the texts in its condition and its message. -/
theorem Guard.quotes_sql
    {check : Guard}
    {quoted : QuotedValue}
    (isQuoted : quoted ∈ (Statement.guard check).quoted) :
    Sql.Quotes check.trigger.sql quoted.lead quoted.value := by
  rcases List.mem_append.mp isQuoted with isChecked | isLaidOut
  · cases check with
    | domain event rule =>
        exact quotes_triggerSql_of_condition (rule.quotes_isViolated isChecked) _ _
    | _ => cases isChecked
  · rcases List.mem_map.mp isLaidOut with ⟨message, isMessage, rfl⟩
    rewrite [Trigger.sql, check.statement_trigger (Option.mem_toList.mp isMessage)]
    exact quotes_abortStatement message _ _

/-! ## Exceptions -/

theorem opensInline_joinLines
    {line : String}
    (opens : Text.opensInline line = true)
    (lines : List String) :
    Text.opensInline (joinLines (line :: lines)) = true := by
  cases lines with
  | nil => simpa [joinLines] using opens
  | cons following lines =>
      rw [joinLines, String.intercalate_cons_cons]
      exact Text.opensInline_append (Text.opensInline_append opens _) _

theorem closesInline_joinLines
    {lines : List String}
    (line : String)
    (isLast : lines.getLast? = some line)
    (closes : Text.closesInline line = true) :
    Text.closesInline (joinLines lines) = true := by
  rcases List.getLast?_eq_some_iff.mp isLast with ⟨others, rfl⟩
  cases others with
  | nil => simpa [joinLines] using closes
  | cons first others =>
      rw [joinLines, String.intercalate_append_of_ne_nil (by simp) (by simp),
        String.intercalate_singleton]
      exact Text.closesInline_append closes _

/-- A message without quotes is closed by the quotes around it. -/
theorem quotes_raise
    {message : String}
    (plain : '\'' ∉ message.toList) :
    Sql.Quotes ("    RAISE EXCEPTION '" ++ message ++ "';") "RAISE EXCEPTION " message := by
  have front : "    RAISE EXCEPTION '" = "    " ++ "RAISE EXCEPTION " ++ "'" := by rfl
  have back : "';" = "'" ++ ";" := by rfl
  have split : "    RAISE EXCEPTION '" ++ message ++ "';" =
      "    " ++ ("RAISE EXCEPTION " ++ Sql.literal message) ++ ";" := by
    rw [Sql.literal_of_not_mem plain, front, back]
    simp only [String.append_assoc]
  rewrite [split]
  exact (Sql.Quotes.of_literal _ message).within _ (by decide)

theorem quotes_raiseDuplicate
    {rule : SoftUnique}
    (plain : '\'' ∉ rule.message.toList)
    (value : String) :
    Sql.Quotes (Text.indent 4 (FunctionCheck.raiseDuplicate rule value))
      "RAISE EXCEPTION " (Text.shift 4 rule.message) := by
  have quotes : Sql.Quotes (FunctionCheck.raiseDuplicate rule value)
      "RAISE EXCEPTION " rule.message := by
    unfold FunctionCheck.raiseDuplicate joinLines
    exact (quotes_raise plain).of_mem_intercalate (by simp) (by decide)
  apply quotes.indent (by decide)
  · exact opensInline_joinLines (opensInline_joinLines (by decide) _) _
  · exact closesInline_joinLines "END IF;" rfl (by decide)

namespace FunctionCheck

/-- What a function of PostgreSQL says when it raises an exception. -/
def message : FunctionCheck → String
  | .once rule => rule.message
  | .unique rule => rule.message
  | .revival rule => rule.message

/-- The message as it reads in the function, where a search and what follows it is indented. -/
def exception : FunctionCheck → String
  | .once rule => Text.shift 4 rule.message
  | .unique rule => Text.shift 4 (Text.shift 4 rule.message)
  | .revival rule => Text.shift 4 (Text.shift 4 rule.message)

theorem opensInline_body (check : FunctionCheck) : Text.opensInline check.body = true := by
  cases check
  all_goals
    apply opensInline_joinLines
    simp only [String.append_assoc]
    exact Text.opensInline_append (by decide) _

theorem closesInline_body (check : FunctionCheck) : Text.closesInline check.body = true := by
  cases check
  all_goals exact closesInline_joinLines "RETURN NEW;" rfl (by decide)

/-- The body of a check has its message in it. -/
theorem quotes_body
    {check : FunctionCheck}
    (plain : '\'' ∉ check.message.toList) :
    ∃ value,
      Sql.Quotes check.body "RAISE EXCEPTION " value ∧
      Text.shift 4 value = check.exception := by
  cases check with
  | once rule =>
      refine ⟨rule.message, ?_, rfl⟩
      have front : "    RAISE EXCEPTION 'value of \"" =
          "    RAISE EXCEPTION '" ++ "value of \"" := by rfl
      have back : "\" cannot be changed';" = "\" cannot be changed" ++ "';" := by rfl
      have isLine : "    RAISE EXCEPTION '" ++ rule.message ++ "';" =
          "    RAISE EXCEPTION 'value of \"" ++ rule.column ++ "\" cannot be changed';" := by
        rw [front, back, OnceRule.message]
        simp only [String.append_assoc]
      have quotes : Sql.Quotes ("    RAISE EXCEPTION '" ++ rule.message ++ "';")
          "RAISE EXCEPTION " rule.message :=
        quotes_raise plain
      rewrite [isLine] at quotes
      unfold body joinLines
      exact quotes.of_mem_intercalate (by simp) (by decide)
  | unique rule =>
      refine ⟨Text.shift 4 rule.message, ?_, rfl⟩
      unfold body joinLines
      exact (quotes_raiseDuplicate plain rule.newValue).of_mem_intercalate (by simp) (by decide)
  | revival rule =>
      refine ⟨Text.shift 4 rule.message, ?_, rfl⟩
      unfold body joinLines
      exact (quotes_raiseDuplicate plain rule.keptValue).of_mem_intercalate (by simp) (by decide)

end FunctionCheck

/-- The exception of a function is closed if no name in its message has a quote. -/
theorem exception_closed
    {check : FunctionCheck}
    (plain : '\'' ∉ check.message.toList)
    (backend : Backend) :
    Sql.Quotes ((Statement.checkFunction check).sql backend)
      "RAISE EXCEPTION " check.exception := by
  rcases FunctionCheck.quotes_body plain with ⟨value, quotes, isException⟩
  rewrite [← isException]
  exact (quotes.indent (by decide) check.opensInline_body check.closesInline_body).within _
    (by decide)

/-! ## Values -/

/--
Values that a schema quotes are closed.

A reader that starts at a literal reads the value and goes on behind the literal, unless a
quote follows it, and different values have different literals.  Wherever a statement
writes a default, a checked text or the message of a guard, the literal behind its lead is
read like that: it ends where it was ended, and not earlier.
-/
theorem quoted_values_closed :
    (∀ value back : String, back.toList.head? ≠ some '\'' →
      Sql.readString (Sql.literal value ++ back) = some (value, back)) ∧
    Function.Injective Sql.literal ∧
    ∀ (backend : Backend) (statement : Statement), ∀ quoted ∈ statement.quoted,
      Sql.Quotes (statement.sql backend) quoted.lead quoted.value := by
  refine ⟨?_, Sql.literal_injective, ?_⟩
  · intro value back ended
    exact Sql.readString_literal_append_of_ended ended value
  · intro backend statement quoted isQuoted
    cases statement with
    | domain type base => exact quotes_domainSql isQuoted backend base
    | table definition => exact Table.quotes_sql isQuoted
    | guard check => exact check.quotes_sql isQuoted
    | write definition =>
        rcases List.mem_map.mp isQuoted with ⟨inner, isInner, rfl⟩
        exact ViewWrite.quotes_sql isInner backend
    | _ => cases isQuoted

/-- A note with quotes at both ends of its default, in its table and in its insert. -/
theorem quoted_note_closed :
    ∃ catalog schema created inserting,
      Catalog.build [classOf "note" [(Attribute.declare "text" .string).withInitial "'it's'"]] =
        .ok catalog ∧
      classSchema .standard catalog "note" = .ok schema ∧
      created ∈ schema.tables ∧
      inserting ∈ schema.insert ∧
      Sql.Quotes (created.sql .postgres) "text TEXT DEFAULT " "'it's'" ∧
      Sql.Quotes (inserting.sql .postgres) "COALESCE(NEW.text, " "'it's'" := by
  have checked : ((Catalog.build
      [classOf "note" [(Attribute.declare "text" .string).withInitial "'it's'"]]).toOption.any
      fun catalog => (classSchema .standard catalog "note").toOption.any fun schema =>
        schema.tables.any (fun statement =>
          statement.quoted.contains ⟨"text TEXT DEFAULT ", "'it's'"⟩) &&
        schema.insert.any fun statement =>
          statement.quoted.contains ⟨"COALESCE(NEW.text, ", "'it's'"⟩) = true := by
    decide +kernel
  simp only [Option.any_eq_true, toOption_eq_some_iff, Bool.and_eq_true, List.any_eq_true,
    List.contains_iff_mem] at checked
  rcases checked with ⟨catalog, built, schema, generated, ⟨created, inTables, byTable⟩,
    inserting, inInserts, byInsert⟩
  have closed := quoted_values_closed.2.2
  have ofTable := closed .postgres created _ byTable
  have ofInsert := closed .postgres inserting _ byInsert
  exact ⟨catalog, schema, created, inserting, built, generated, inTables, inInserts, ofTable,
    ofInsert⟩

end ClassStore.Schema
