import ClassStore.Proofs.Query.Placeholders

/-!
# One search on two backends

Both backends compile a search by the same steps.  SQLite formats dates and
names its operator for regular expressions differently, takes an offset only
after a limit, and has its own form for truth values, for dates and for
patterns.

The text of a condition is cut into pieces (`Fragment.pieces`), of which only
two kinds are written differently.  What a leaf is compiled into does not depend
on the backend at all.  The values of the backends are related one by one by
`sqliteForm`, and no value is affected by an operator other than that of its own
leaf.
-/

namespace ClassStore.Query

open ClassStore.Catalog
open ClassStore.Date
open ClassStore.Search
open Compiling

/-! ## The text of a condition -/

/-- A piece of a condition: text that the backends share, or something that each writes its way. -/
inductive Piece where
  | shared (text : String)
  | datePart (column : String) (segments : SegmentSet)
  | matching (negated : Bool)

/-- The piece as a backend writes it. -/
def Piece.sql : Backend → Piece → String
  | _, .shared text => text
  | .postgres, .datePart column segments =>
      "TO_CHAR(" ++ column ++ ", '" ++ segments.pattern .postgres ++ "')"
  | .sqlite, .datePart column segments =>
      "STRFTIME('" ++ segments.pattern .sqlite ++ "', " ++ column ++ ")"
  | .postgres, .matching negated => if negated then "!~*" else "~*"
  | .sqlite, .matching negated => if negated then "NOT REGEXP" else "REGEXP"

/-- The pieces as a backend writes them, one after the other. -/
def piecesText (backend : Backend) : List Piece → String
  | [] => ""
  | piece :: pieces => piece.sql backend ++ piecesText backend pieces

@[simp]
theorem piecesText_nil (backend : Backend) : piecesText backend [] = "" :=
  rfl

@[simp]
theorem piecesText_cons (backend : Backend) (piece : Piece) (pieces : List Piece) :
    piecesText backend (piece :: pieces) = piece.sql backend ++ piecesText backend pieces :=
  rfl

@[simp]
theorem piecesText_append (backend : Backend) (front back : List Piece) :
    piecesText backend (front ++ back) = piecesText backend front ++ piecesText backend back := by
  induction front with
  | nil => rw [List.nil_append, piecesText_nil, String.empty_append]
  | cons piece pieces inductionHypothesis =>
      rw [List.cons_append, piecesText_cons, piecesText_cons, inductionHypothesis,
        String.append_assoc]

@[simp]
theorem sql_shared (backend : Backend) (text : String) :
    (Piece.shared text).sql backend = text := by
  cases backend <;> rfl

/-- Some lists of pieces with a text that the backends share in between. -/
def separated (separator : String) (lists : List (List Piece)) : List Piece :=
  List.intercalate [.shared separator] lists

theorem piecesText_separated
    (backend : Backend)
    (separator : String)
    (lists : List (List Piece)) :
    piecesText backend (separated separator lists) =
      String.intercalate separator (lists.map (piecesText backend)) := by
  induction lists with
  | nil => rfl
  | cons pieces lists inductionHypothesis =>
      cases lists with
      | nil => simp [separated]
      | cons following lists =>
          rw [separated] at inductionHypothesis
          rw [separated, List.intercalate_cons_cons, piecesText_append, piecesText_append,
            inductionHypothesis, List.map_cons, List.map_cons, List.map_cons,
            String.intercalate_cons_cons, piecesText_cons, sql_shared, piecesText_nil,
            String.append_empty]

/-- A comparison is written the same way unless it is one with a pattern. -/
def SqlComparison.piece : SqlComparison → Piece
  | .regex => .matching false
  | .notRegex => .matching true
  | comparison => .shared (comparison.sql .postgres)

theorem sql_piece (backend : Backend) (comparison : SqlComparison) :
    comparison.piece.sql backend = comparison.sql backend := by
  cases backend <;> cases comparison <;> rfl

mutual

/-- The pieces that a condition is written in. -/
def Fragment.pieces : Fragment → List Piece
  | .column name folded => [.shared (Fragment.foldedSql folded name)]
  | .placeholder folded => [.shared (Fragment.foldedSql folded "?")]
  | .datePart name segments => [.datePart name segments]
  | .compare left comparison right =>
      left.pieces ++ [.shared " ", comparison.piece, .shared " "] ++ right.pieces
  | .between subject low high negated =>
      subject.pieces ++ [.shared " ", .shared (Fragment.negation negated), .shared "BETWEEN "] ++
        low.pieces ++ [.shared " AND "] ++ high.pieces
  | .among subject items negated =>
      subject.pieces ++ [.shared " ", .shared (Fragment.negation negated), .shared "IN ("] ++
        separated ", " (Fragment.listPieces items) ++ [.shared ")"]
  | .isNull subject negated =>
      subject.pieces ++ [.shared " IS ", .shared (Fragment.negation negated), .shared "NULL"]
  | .group combinator members parenthesized =>
      let pieces := separated (Fragment.separator combinator) (Fragment.listPieces members)
      if parenthesized then [.shared "("] ++ pieces ++ [.shared ")"] else pieces

/-- The pieces of each of some conditions. -/
def Fragment.listPieces : List Fragment → List (List Piece)
  | [] => []
  | fragment :: fragments => fragment.pieces :: Fragment.listPieces fragments

end

theorem sql_datePart (backend : Backend) (column : String) (segments : SegmentSet) :
    (Piece.datePart column segments).sql backend =
      Fragment.datePartSql column segments backend := by
  cases backend <;> rfl

mutual

/-- On either backend the pieces of a condition make its text. -/
theorem piecesText_pieces (backend : Backend) (fragment : Fragment) :
    piecesText backend fragment.pieces = fragment.sql backend := by
  cases fragment with
  | column name folded => simp [Fragment.pieces, Fragment.sql]
  | placeholder folded => simp [Fragment.pieces, Fragment.sql]
  | datePart column segments => simp [Fragment.pieces, Fragment.sql, sql_datePart]
  | compare left comparison right =>
      simp [Fragment.pieces, Fragment.sql, sql_piece, piecesText_pieces backend left,
        piecesText_pieces backend right, String.append_assoc]
  | between subject low high negated =>
      simp [Fragment.pieces, Fragment.sql, piecesText_pieces backend subject,
        piecesText_pieces backend low, piecesText_pieces backend high, String.append_assoc]
  | among subject items negated =>
      simp [Fragment.pieces, Fragment.sql, piecesText_pieces backend subject,
        piecesText_separated, piecesText_listPieces backend items, String.append_assoc]
  | isNull subject negated =>
      simp [Fragment.pieces, Fragment.sql, piecesText_pieces backend subject,
        String.append_assoc]
  | group combinator members parenthesized =>
      have text :
          piecesText backend
              (separated (Fragment.separator combinator) (Fragment.listPieces members)) =
            String.intercalate (Fragment.separator combinator)
              (Fragment.sqls backend members) := by
        rw [piecesText_separated, piecesText_listPieces backend members]
      cases parenthesized with
      | false => simp [Fragment.pieces, Fragment.sql, text]
      | true => simp [Fragment.pieces, Fragment.sql, text, String.append_assoc]

theorem piecesText_listPieces (backend : Backend) (fragments : List Fragment) :
    (Fragment.listPieces fragments).map (piecesText backend) =
      Fragment.sqls backend fragments := by
  cases fragments with
  | nil => rfl
  | cons fragment fragments =>
      rw [Fragment.listPieces, Fragment.sqls, List.map_cons, piecesText_pieces backend fragment,
        piecesText_listPieces backend fragments]

end

/-- The texts that a condition has on the backends differ in two kinds of pieces only. -/
theorem exists_pieces_of_conditionText (fragment? : Option Fragment) :
    ∃ pieces, ∀ backend, conditionText backend fragment? = piecesText backend pieces := by
  cases fragment? with
  | none => exact ⟨[], fun _ => rfl⟩
  | some fragment => exact ⟨fragment.pieces, fun backend => (piecesText_pieces backend fragment).symm⟩

/-! ## What leaves and trees are compiled into -/

theorem result_compileComparison_eq
    (backend other : Backend)
    (leaf : Leaf)
    (column : String)
    (type : SemanticType)
    (comparison : Comparison)
    (value : Scalar) :
    (compileComparison backend leaf column type comparison value).result =
      (compileComparison other leaf column type comparison value).result := by
  by_cases dated : value.variant = .date
  · rcases exists_date_of_variant dated with ⟨date, rfl⟩
    simp only [compileComparison, result, run_compileDateComparison]
    split
    · rfl
    · split
      · rfl
      · split <;> rfl
  · simp only [result, run_compileComparison _ leaf column type comparison dated]

theorem result_compileBetween_eq
    (backend other : Backend)
    (leaf : Leaf)
    (column : String)
    (type : SemanticType)
    (low high : Scalar) :
    (compileBetween backend leaf column type low high).result =
      (compileBetween other leaf column type low high).result := by
  by_cases alike : low.kind = high.kind
  · by_cases dated : low.variant = .date
    · rcases exists_dates_of_kind_eq alike dated with ⟨lowDate, highDate, rfl, rfl, sameSegments⟩
      simp only [result, run_compileBetween_dates _ leaf column type sameSegments,
        run_compilePlainBetween]
      split <;> rfl
    · simp only [result, run_compileBetween_plain _ leaf column type alike dated,
        run_compilePlainBetween]
  · simp only [result, run_compileBetween_unlike _ leaf column type alike]

theorem result_compileAny_eq
    (backend other : Backend)
    (leaf : Leaf)
    (column : String)
    (type : SemanticType)
    (values : List Scalar) :
    (compileAny backend leaf column type values).result =
      (compileAny other leaf column type values).result := by
  cases values with
  | nil => rfl
  | cons first values =>
      simp only [result, run_compileAny, run_compileAnyDate]
      split
      · rfl
      · split <;> rfl

theorem result_compileOnColumn_eq
    (backend other : Backend)
    (leaf : Leaf)
    (column : String)
    (type : SemanticType) :
    (compileOnColumn backend leaf column type).result =
      (compileOnColumn other leaf column type).result := by
  rw [compileOnColumn, compileOnColumn]
  split
  · rfl
  · rfl
  · rfl
  · exact result_compileComparison_eq backend other leaf column type _ _
  · rfl
  · exact result_compileBetween_eq backend other leaf column type _ _
  · exact result_compileAny_eq backend other leaf column type _
  · rfl

variable {catalog : Catalog} {key : String}

/-- What a leaf is compiled into, or why it is not, does not depend on the backend. -/
theorem result_compileLeaf_eq (backend other : Backend) (leaf : Leaf) :
    (Target.compileLeaf ⟨backend, catalog, key⟩ leaf).result =
      (Target.compileLeaf ⟨other, catalog, key⟩ leaf).result := by
  simp only [Target.compileLeaf, Target.column]
  cases catalog.resolvePath? key leaf.path with
  | none => rfl
  | some resolved => exact result_compileOnColumn_eq backend other leaf _ _

mutual

/-- What a tree is compiled into, or why it is not, does not depend on the backend. -/
theorem result_compileNode_eq
    (backend other : Backend)
    (parenthesized : Bool)
    (node : Node) :
    (Target.compileNode ⟨backend, catalog, key⟩ parenthesized node).result =
      (Target.compileNode ⟨other, catalog, key⟩ parenthesized node).result := by
  cases node with
  | leaf content =>
      rw [result_compileNode_leaf, result_compileNode_leaf, result_compileLeaf_eq backend other]
  | group combinator members =>
      rw [result_compileNode_group, result_compileNode_group,
        result_compileMembers_eq backend other members]

theorem result_compileMembers_eq (backend other : Backend) (nodes : List Node) :
    (Target.compileMembers ⟨backend, catalog, key⟩ nodes).result =
      (Target.compileMembers ⟨other, catalog, key⟩ nodes).result := by
  cases nodes with
  | nil => rfl
  | cons node nodes =>
      rw [result_compileMembers_cons, result_compileMembers_cons,
        result_compileNode_eq backend other true node, result_compileMembers_eq backend other nodes]

end

/-! ## Values -/

/-- What SQLite takes for a value that PostgreSQL binds for an operator. -/
def sqliteForm (operator : Operator) : Scalar → Scalar
  | .boolean truth => .integer (if truth then 1 else 0)
  | .date date =>
      .string (match date.toDateTime? with
        | some moment => moment.text " "
        | none => date.segmentText)
  | .string text => .string (if operator = .compare .regex then "(?i)" ++ text else text)
  | .integer number => .integer number

/-- SQLite is given texts and numbers only. -/
theorem variant_sqliteForm (operator : Operator) (value : Scalar) :
    (sqliteForm operator value).variant = .string ∨
      (sqliteForm operator value).variant = .integer := by
  cases value with
  | string text => exact .inl rfl
  | integer number => exact .inr rfl
  | boolean truth => exact .inr rfl
  | date date => exact .inl rfl

/-- Without a pattern the form of a value is the one that every value has on SQLite. -/
theorem sqliteForm_eq_boundValue
    {operator : Operator}
    (unlike : operator ≠ .compare .regex)
    (value : Scalar) :
    sqliteForm operator value = boundValue .sqlite value := by
  cases value with
  | string text => simp [sqliteForm, boundValue, unlike]
  | integer number => rfl
  | boolean truth => rfl
  | date date =>
      simp only [sqliteForm, boundValue]
      cases date.toDateTime? <;> rfl

/-- A pattern is no date, so that its form is that of a text or of a plain value. -/
theorem sqliteForm_comparedValue
    (comparison : Comparison)
    {value : Scalar}
    (plain : value.variant ≠ .date) :
    sqliteForm (.compare comparison) value = comparedValue .sqlite comparison value := by
  cases value with
  | date date => exact absurd rfl plain
  | string text => cases comparison <;> rfl
  | integer number => cases comparison <;> rfl
  | boolean truth => cases comparison <;> rfl

/-- The values of an operand on the two backends, where no date is compared with a pattern. -/
theorem sqliteForm_boundOperand
    {operator : Operator}
    {value : Scalar}
    (plain : operator = .compare .regex → value.variant ≠ .date) :
    sqliteForm operator (boundOperand .postgres operator value) =
      boundOperand .sqlite operator value := by
  by_cases dated : value.variant = .date
  · have unlike : operator ≠ .compare .regex := fun asks => plain asks dated
    rcases exists_date_of_variant dated with ⟨date, rfl⟩
    rw [sqliteForm_eq_boundValue unlike]
    simp only [boundOperand]
    split <;> rfl
  · rcases boundOperand_of_plain .postgres dated with ⟨compared, between, any⟩
    rcases boundOperand_of_plain .sqlite dated with ⟨comparedForm, betweenForm, anyForm⟩
    cases operator with
    | compare comparison =>
        rw [compared, comparedForm, ← sqliteForm_comparedValue comparison dated]
        cases comparison <;> rfl
    | between =>
        rw [between, betweenForm]
        exact sqliteForm_eq_boundValue (by simp) value
    | any =>
        rw [any, anyForm]
        exact sqliteForm_eq_boundValue (by simp) value

/-- A leaf that asks for a pattern and is compiled has one value, which is not a date. -/
theorem exists_pattern_of_compileLeaf
    {target : Target}
    {leaf : Leaf}
    {fragment : Fragment}
    (asks : leaf.operator = .compare .regex)
    (compiled : (target.compileLeaf leaf).result = .ok fragment) :
    ∃ value, leaf.value = .scalar value ∧ value.variant ≠ .date := by
  rcases leaf with ⟨path, operator, negated, value⟩
  cases asks
  simp only [Target.compileLeaf] at compiled
  split at compiled
  · cases value with
    | null => cases compiled
    | pair low high => cases compiled
    | list values => cases compiled
    | scalar value =>
        refine ⟨value, rfl, fun dated => ?_⟩
        rcases exists_date_of_variant dated with ⟨date, rfl⟩
        cases compiled
  · cases compiled

/-- The values that a leaf binds on SQLite are those that it binds on PostgreSQL in another form. -/
theorem binds_compileLeaf_sqlite
    {leaf : Leaf}
    {fragment : Fragment}
    (compiled : (Target.compileLeaf ⟨.postgres, catalog, key⟩ leaf).result = .ok fragment) :
    (Target.compileLeaf ⟨.sqlite, catalog, key⟩ leaf).binds =
      (Target.compileLeaf ⟨.postgres, catalog, key⟩ leaf).binds.map
        (sqliteForm leaf.operator) := by
  have plain : ∀ value ∈ operands leaf.value,
      leaf.operator = .compare .regex → value.variant ≠ .date := by
    intro value isOperand asks
    rcases exists_pattern_of_compileLeaf asks compiled with ⟨pattern, holds, plain⟩
    rw [holds, operands, List.mem_singleton] at isOperand
    rwa [isOperand]
  have onSqlite :
      (Target.compileLeaf ⟨.sqlite, catalog, key⟩ leaf).result = .ok fragment :=
    (result_compileLeaf_eq .sqlite .postgres leaf).trans compiled
  rw [(linesUp_compileLeaf compiled).leafBinds leaf List.mem_cons_self,
    (linesUp_compileLeaf onSqlite).leafBinds leaf List.mem_cons_self, List.map_map]
  apply List.map_congr_left
  intro value isOperand
  exact (sqliteForm_boundOperand (plain value isOperand)).symm

/-- The values of a tree on SQLite are those on PostgreSQL, each in the form of its own leaf. -/
theorem binds_compileNode_sqlite
    {node : Node}
    {fragment? : Option Fragment}
    (compiled :
      (Target.compileNode ⟨.postgres, catalog, key⟩ false node).result = .ok fragment?) :
    (Target.compileNode ⟨.sqlite, catalog, key⟩ false node).binds =
      node.leaves.flatMap fun leaf =>
        (Target.compileLeaf ⟨.postgres, catalog, key⟩ leaf).binds.map
          (sqliteForm leaf.operator) := by
  have onSqlite :
      (Target.compileNode ⟨.sqlite, catalog, key⟩ false node).result = .ok fragment? :=
    (result_compileNode_eq .sqlite .postgres false node).trans compiled
  rw [(linesUp_compileNode node onSqlite).binds]
  apply List.flatMap_congr
  intro leaf isLeaf
  rcases exists_compileLeaf_of_compileNode compiled isLeaf with ⟨fragment, compiledLeaf⟩
  exact binds_compileLeaf_sqlite compiledLeaf

/-- PostgreSQL is given no date of which segments are open. -/
theorem isComplete_of_boundOperand
    {operator : Operator}
    {value : Scalar}
    {date : PartialDate}
    (bound : boundOperand .postgres operator value = .date date) :
    date.isComplete = true := by
  by_cases dated : value.variant = .date
  · rcases exists_date_of_variant dated with ⟨other, rfl⟩
    rw [boundOperand] at bound
    split at bound
    · next complete =>
        cases bound
        exact complete
    · cases bound
  · rcases boundOperand_of_plain .postgres dated with ⟨compared, between, any⟩
    have unchanged : boundOperand .postgres operator value = value := by
      cases operator with
      | compare comparison => exact (compared comparison).trans (by cases comparison <;> rfl)
      | between => exact between
      | any => exact any
    rw [unchanged] at bound
    exact absurd (congrArg Scalar.variant bound) dated

/-! ## Order and extent -/

theorem orderTerms_eq
    (backend other : Backend)
    (paths : List String)
    (sortOrders : List SortOrder) :
    Target.orderTerms ⟨backend, catalog, key⟩ paths sortOrders =
      Target.orderTerms ⟨other, catalog, key⟩ paths sortOrders := by
  induction paths generalizing sortOrders with
  | nil => rfl
  | cons path paths inductionHypothesis =>
      simp only [Target.orderTerms, inductionHypothesis]
      rfl

/-- The order of a result, or why there is none, does not depend on the backend. -/
theorem orderClause_eq (backend other : Backend) (constraints : Constraints) :
    Target.orderClause ⟨backend, catalog, key⟩ constraints =
      Target.orderClause ⟨other, catalog, key⟩ constraints := by
  simp only [Target.orderClause, orderTerms_eq backend other]

/-- The extent of a result as SQLite writes it. -/
def sqliteLimit (constraints : Constraints) (clause : String) : String :=
  if constraints.limit = none ∧ constraints.offset ≠ none then "LIMIT -1 OFFSET ?" else clause

/-- The extents differ only in the text for an offset alone. -/
theorem limitClause_sqlite (constraints : Constraints) :
    (limitClause .sqlite constraints).result =
        (limitClause .postgres constraints).result.map (sqliteLimit constraints) ∧
      (limitClause .sqlite constraints).binds = (limitClause .postgres constraints).binds := by
  have appendsText (text : String) : Appends (pure text : Compiling String) := appends_pure text
  rcases constraints with ⟨orderBy, sortOrder, limit, offset⟩
  cases limit with
  | none =>
      cases offset with
      | none => exact ⟨rfl, rfl⟩
      | some offset =>
          simp only [limitClause, result_bind fun _ => appendsText _,
            binds_bind fun _ => appendsText _]
          cases (bindCount "offset" offset).result with
          | error error => exact ⟨rfl, rfl⟩
          | ok bound => exact ⟨rfl, rfl⟩
  | some limit =>
      have unchanged : sqliteLimit ⟨orderBy, sortOrder, some limit, offset⟩ = id := by
        funext clause
        simp [sqliteLimit]
      rw [unchanged, Except.map_id]
      cases offset <;> exact ⟨rfl, rfl⟩

/-! ## Queries -/

/-- What a search is compiled into on SQLite, next to what it is compiled into on PostgreSQL. -/
structure Counterparts (catalog : Catalog) (key : String) (node : Node)
    (constraints : Constraints) (postgres sqlite : Compiled) : Prop where
  /-- One condition is written on both backends. -/
  condition :
    ∃ fragment?,
      (∀ backend,
        (Target.compileNode ⟨backend, catalog, key⟩ false node).result = .ok fragment?) ∧
      postgres.whereClause = conditionText .postgres fragment? ∧
      sqlite.whereClause = conditionText .sqlite fragment?
  /-- Its texts differ in formatted dates and in operators for patterns only. -/
  texts :
    ∃ pieces,
      postgres.whereClause = piecesText .postgres pieces ∧
      sqlite.whereClause = piecesText .sqlite pieces
  order : sqlite.orderClause = postgres.orderClause
  limit : sqlite.limitClause = sqliteLimit constraints postgres.limitClause
  /-- The values are related one by one, and the numbers of rows are the same. -/
  binds :
    ∃ counts : List Int64,
      postgres.binds =
        (node.leaves.flatMap fun leaf =>
          (Target.compileLeaf ⟨.postgres, catalog, key⟩ leaf).binds) ++
          counts.map Scalar.integer ∧
      sqlite.binds =
        (node.leaves.flatMap fun leaf =>
          (Target.compileLeaf ⟨.postgres, catalog, key⟩ leaf).binds.map
            (sqliteForm leaf.operator)) ++
          counts.map Scalar.integer
  sameLength : sqlite.binds.length = postgres.binds.length
  /-- A date that takes part as a whole has all of its segments. -/
  dates : ∀ date, .date date ∈ postgres.binds → date.isComplete = true
  kinds : ∀ value ∈ sqlite.binds, value.variant = .string ∨ value.variant = .integer

/-- A search that fails on PostgreSQL fails on SQLite with the same error. -/
theorem compile_sqlite_eq_error
    {node : Node}
    {constraints : Constraints}
    {error : CompileError}
    (fails : compile .postgres catalog key node constraints = .error error) :
    compile .sqlite catalog key node constraints = .error error := by
  rw [compile_eq] at fails ⊢
  rw [result_compileNode_eq .sqlite .postgres, orderClause_eq .sqlite .postgres,
    (limitClause_sqlite constraints).1]
  cases outcome : (Target.compileNode ⟨.postgres, catalog, key⟩ false node).result with
  | error fault => simpa only [outcome, Except.bind] using fails
  | ok fragment? =>
      cases ordered : Target.orderClause ⟨.postgres, catalog, key⟩ constraints with
      | error fault => simpa only [outcome, ordered, Except.bind] using fails
      | ok order =>
          cases limited : (limitClause .postgres constraints).result with
          | error fault =>
              simpa only [outcome, ordered, limited, Except.bind, Except.map] using fails
          | ok limit =>
              simp only [outcome, ordered, limited, Except.bind, Except.map] at fails
              cases fails

/-- A search that is compiled on PostgreSQL has a counterpart on SQLite. -/
theorem exists_counterpart
    {node : Node}
    {constraints : Constraints}
    {postgres : Compiled}
    (compiles : compile .postgres catalog key node constraints = .ok postgres) :
    ∃ sqlite,
      compile .sqlite catalog key node constraints = .ok sqlite ∧
      Counterparts catalog key node constraints postgres sqlite := by
  rcases parts_of_compile compiles with ⟨fragment?, outcome, condition, ordered, limited, binds⟩
  rcases counts_of_limitClause limited with ⟨counts, extentBinds, -, -⟩
  have outcomes (backend : Backend) :
      (Target.compileNode ⟨backend, catalog, key⟩ false node).result = .ok fragment? :=
    (result_compileNode_eq backend .postgres false node).trans outcome
  rcases limitClause_sqlite constraints with ⟨sqliteLimited, sqliteExtentBinds⟩
  have linesUp := linesUp_compileNode node outcome
  rcases exists_pieces_of_conditionText fragment? with ⟨pieces, text⟩
  let sqlite : Compiled :=
    ⟨conditionText .sqlite fragment?, postgres.orderClause,
      sqliteLimit constraints postgres.limitClause,
      (Target.compileNode ⟨.sqlite, catalog, key⟩ false node).binds ++
        (limitClause .sqlite constraints).binds⟩
  have onSqlite : compile .sqlite catalog key node constraints = .ok sqlite := by
    rw [compile_eq, outcomes .sqlite, orderClause_eq .sqlite .postgres, ordered, sqliteLimited,
      limited]
    rfl
  have postgresBinds :
      postgres.binds =
        (node.leaves.flatMap fun leaf =>
          (Target.compileLeaf ⟨.postgres, catalog, key⟩ leaf).binds) ++
          counts.map Scalar.integer := by
    rw [binds, linesUp.binds, extentBinds]
  have sqliteBinds :
      sqlite.binds =
        (node.leaves.flatMap fun leaf =>
          (Target.compileLeaf ⟨.postgres, catalog, key⟩ leaf).binds.map
            (sqliteForm leaf.operator)) ++
          counts.map Scalar.integer := by
    rw [← extentBinds, ← sqliteExtentBinds, ← binds_compileNode_sqlite outcome]
  refine ⟨sqlite, onSqlite, ⟨fragment?, outcomes, condition, rfl⟩,
    ⟨pieces, condition.trans (text .postgres), text .sqlite⟩, rfl, rfl,
    ⟨counts, postgresBinds, sqliteBinds⟩, ?_, ?_, ?_⟩
  · simp only [postgresBinds, sqliteBinds, List.length_append, List.length_flatMap,
      List.length_map]
  · intro date isBound
    rw [postgresBinds, List.mem_append, List.mem_flatMap] at isBound
    rcases isBound with ⟨leaf, isLeaf, isBound⟩ | isCount
    · rw [linesUp.leafBinds leaf isLeaf] at isBound
      rcases List.mem_map.mp isBound with ⟨value, _, bound⟩
      exact isComplete_of_boundOperand bound
    · rcases List.mem_map.mp isCount with ⟨count, _, equal⟩
      cases equal
  · intro value isBound
    rw [sqliteBinds, List.mem_append, List.mem_flatMap] at isBound
    rcases isBound with ⟨leaf, _, isBound⟩ | isCount
    · rcases List.mem_map.mp isBound with ⟨value, _, rfl⟩
      exact variant_sqliteForm leaf.operator value
    · rcases List.mem_map.mp isCount with ⟨count, _, rfl⟩
      exact .inr rfl

/--
The backends agree.

A search fails on both backends with the same error, or it is compiled on both.
Then one condition is written with the same order, and the texts differ only in
formatted dates, in the operators for patterns and in the extent of an offset
alone.  The values correspond one by one: SQLite gets a number for a truth value,
a text for a date, and a pattern that asks for letter case to be ignored, and it
gets nothing but texts and numbers.
-/
theorem backends_agree
    (catalog : Catalog)
    (key : String)
    (node : Node)
    (constraints : Constraints) :
    (∃ error, ∀ backend, compile backend catalog key node constraints = .error error) ∨
    ∃ postgres sqlite,
      compile .postgres catalog key node constraints = .ok postgres ∧
      compile .sqlite catalog key node constraints = .ok sqlite ∧
      Counterparts catalog key node constraints postgres sqlite := by
  cases onPostgres : compile .postgres catalog key node constraints with
  | error error =>
      refine .inl ⟨error, fun backend => ?_⟩
      cases backend with
      | postgres => exact onPostgres
      | sqlite => exact compile_sqlite_eq_error onPostgres
  | ok postgres =>
      rcases exists_counterpart onPostgres with ⟨sqlite, onSqlite, counterparts⟩
      exact .inr ⟨postgres, sqlite, rfl, onSqlite, counterparts⟩

end ClassStore.Query
