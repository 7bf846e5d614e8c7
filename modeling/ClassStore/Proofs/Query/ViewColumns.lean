import ClassStore.Proofs.Catalog.Columns
import ClassStore.Proofs.Query.Tree

/-!
# Columns of a query

A query on a class names columns of the view of the class and no others, in its
condition and in its order, and every column of the view can be searched.  What
a leaf is compiled into names the column of its path only, so this follows from
the agreement of paths and views.
-/

namespace ClassStore.Query

open ClassStore.Catalog
open ClassStore.Search
open Compiling

mutual

/-- The columns that a condition names, from left to right. -/
def Fragment.columns : Fragment → List String
  | .column name _ => [name]
  | .placeholder _ => []
  | .datePart name _ => [name]
  | .compare left _ right => left.columns ++ right.columns
  | .between subject low high _ => subject.columns ++ low.columns ++ high.columns
  | .among subject items _ => subject.columns ++ Fragment.listColumns items
  | .isNull subject _ => subject.columns
  | .group _ members _ => Fragment.listColumns members

/-- The columns that conditions name, from left to right. -/
def Fragment.listColumns : List Fragment → List String
  | [] => []
  | fragment :: fragments => fragment.columns ++ Fragment.listColumns fragments

end

theorem Fragment.mem_listColumns
    {fragments : List Fragment}
    {name : String} :
    name ∈ Fragment.listColumns fragments ↔
      ∃ fragment ∈ fragments, name ∈ fragment.columns := by
  induction fragments with
  | nil => simp [Fragment.listColumns]
  | cons fragment fragments inductionHypothesis =>
      simp [Fragment.listColumns, inductionHypothesis]

/-! ## Columns of a leaf -/

theorem Fragment.Subject.columns_eq
    {column : String}
    {subject : Fragment}
    (isSubject : Fragment.Subject column subject) :
    subject.columns = [column] := by
  cases isSubject <;> rfl

/-- A comparison names its column only. -/
theorem Fragment.Comparing.eq_of_mem_columns
    {column name : String}
    {fragment : Fragment}
    (comparing : Fragment.Comparing column fragment)
    (isNamed : name ∈ fragment.columns) :
    name = column := by
  cases comparing with
  | compare isSubject comparison folded =>
      simpa [Fragment.columns, isSubject.columns_eq] using isNamed
  | between isSubject folded negated =>
      simpa [Fragment.columns, isSubject.columns_eq] using isNamed
  | among isSubject count positive folded negated =>
      rw [Fragment.columns, isSubject.columns_eq] at isNamed
      rcases List.mem_append.mp isNamed with isSubject | isItem
      · exact List.mem_singleton.mp isSubject
      · rcases Fragment.mem_listColumns.mp isItem with ⟨item, isPlaceholder, inItem⟩
        rw [List.eq_of_mem_replicate isPlaceholder] at inItem
        cases inItem
  | isNull isSubject negated =>
      simpa [Fragment.columns, isSubject.columns_eq] using isNamed

/-- What a leaf is compiled into names the column of its path only. -/
theorem Fragment.OfLeaf.eq_of_mem_columns
    {column name : String}
    {fragment : Fragment}
    (ofLeaf : Fragment.OfLeaf column fragment)
    (isNamed : name ∈ fragment.columns) :
    name = column := by
  cases ofLeaf with
  | one comparing => exact comparing.eq_of_mem_columns isNamed
  | several combinator comparing plural =>
      rcases Fragment.mem_listColumns.mp isNamed with ⟨member, isMember, inMember⟩
      exact (comparing member isMember).eq_of_mem_columns inMember

/-! ## Columns of a query -/

/-- The column is the one of a path on the class of a target. -/
def Target.Searches (target : Target) (column : String) : Prop :=
  ∃ path resolved,
    target.catalog.resolvePath? target.key path = some resolved ∧ resolved.column = column

mutual

/-- What a tree is compiled into names columns of paths only. -/
theorem searches_of_compileNode
    {target : Target}
    {parenthesized : Bool}
    (node : Node)
    {fragment : Fragment}
    (compiled : (target.compileNode parenthesized node).result = .ok (some fragment)) :
    ∀ column ∈ fragment.columns, target.Searches column := by
  cases node with
  | leaf content =>
      rcases result_compileNode_leaf_eq_ok compiled with ⟨ofLeaf, outcome, same⟩
      rw [Option.some.inj same]
      intro column isNamed
      rcases exists_ofLeaf_of_compileLeaf outcome with ⟨resolved, found, form⟩
      exact ⟨content.path, resolved, found, (form.eq_of_mem_columns isNamed).symm⟩
  | group combinator members =>
      rcases result_compileNode_group_eq_ok compiled with ⟨fragments, outcome, grouped⟩
      rcases groupFragment?_eq_some grouped.symm with ⟨_, rfl⟩
      intro column isNamed
      rcases Fragment.mem_listColumns.mp isNamed with ⟨member, isMember, inMember⟩
      exact searches_of_compileMembers members outcome member isMember column inMember

theorem searches_of_compileMembers
    {target : Target}
    (nodes : List Node)
    {fragments : List Fragment}
    (compiled : (target.compileMembers nodes).result = .ok fragments) :
    ∀ fragment ∈ fragments, ∀ column ∈ fragment.columns, target.Searches column := by
  cases nodes with
  | nil =>
      cases compiled
      simp
  | cons node nodes =>
      rcases result_compileMembers_cons_eq_ok compiled with
        ⟨fragment?, others, first, rest, rfl⟩
      intro fragment isMember
      rcases List.mem_append.mp isMember with isFirst | isOther
      · rw [Option.mem_toList] at isFirst
        rw [isFirst] at first
        exact searches_of_compileNode node first
      · exact searches_of_compileMembers nodes rest fragment isOther

end

/-- The text of an order by columns, each with its direction. -/
def orderText (columns : List (String × SortOrder)) : String :=
  if columns.isEmpty then
    ""
  else
    "ORDER BY " ++
      String.intercalate ", " (columns.map fun term => term.1 ++ " " ++ term.2.sql)

theorem searches_of_column
    {target : Target}
    {path column : String}
    {type : SemanticType}
    (found : target.column path = .ok (column, type)) :
    target.Searches column := by
  rw [Target.column] at found
  split at found
  · next resolved resolves =>
      cases found
      exact ⟨path, resolved, resolves, rfl⟩
  · cases found

theorem searches_of_orderTerms
    {target : Target}
    {paths : List String}
    {sortOrders : List SortOrder}
    {terms : List String}
    (ordered : target.orderTerms paths sortOrders = .ok terms) :
    ∃ columns : List (String × SortOrder),
      terms = (columns.map fun term => term.1 ++ " " ++ term.2.sql) ∧
      columns.length = paths.length ∧
      ∀ term ∈ columns, target.Searches term.1 := by
  induction paths generalizing sortOrders terms with
  | nil =>
      cases ordered
      exact ⟨[], rfl, rfl, by simp⟩
  | cons path paths inductionHypothesis =>
      rw [Target.orderTerms] at ordered
      rcases exists_of_bind_eq_ok ordered with ⟨⟨column, type⟩, found, ordered⟩
      rcases exists_of_bind_eq_ok ordered with ⟨others, rest, ordered⟩
      cases ordered
      rcases inductionHypothesis rest with ⟨columns, rfl, sameLength, searched⟩
      refine ⟨(column, sortOrders.head?.getD .ascending) :: columns, rfl, ?_, ?_⟩
      · simp [sameLength]
      · intro term isTerm
        rcases List.mem_cons.mp isTerm with rfl | later
        · exact searches_of_column found
        · exact searched term later

/-- The order of a query names columns of paths only. -/
theorem searches_of_orderClause
    {target : Target}
    {constraints : Constraints}
    {clause : String}
    (ordered : target.orderClause constraints = .ok clause) :
    ∃ columns : List (String × SortOrder),
      clause = orderText columns ∧
      columns.length = constraints.orderBy.length ∧
      ∀ term ∈ columns, target.Searches term.1 := by
  rw [Target.orderClause] at ordered
  split at ordered
  · cases ordered
  · split at ordered
    · next empty =>
        cases ordered
        rw [List.isEmpty_iff.mp empty]
        exact ⟨[], rfl, rfl, by simp⟩
    · next nonempty =>
        rcases exists_of_bind_eq_ok ordered with ⟨terms, outcome, printed⟩
        cases printed
        rcases searches_of_orderTerms outcome with ⟨columns, rfl, sameLength, searched⟩
        refine ⟨columns, ?_, sameLength, searched⟩
        rw [orderText, if_neg]
        intro empty
        apply nonempty
        rw [List.isEmpty_iff, ← List.length_eq_zero_iff, ← sameLength,
          List.isEmpty_iff.mp empty]
        rfl

/-- A column of a path can be searched on every backend. -/
theorem exists_compile_of_searches
    {catalog : Catalog}
    {key column : String}
    (backend : Backend)
    (searches : Target.Searches ⟨backend, catalog, key⟩ column) :
    ∃ path,
      compile backend catalog key (.leaf ⟨path, .compare .eq, false, .null⟩) Constraints.none =
        .ok ⟨column ++ " IS NULL", "", "", []⟩ := by
  rcases searches with ⟨path, resolved, found, rfl⟩
  refine ⟨path, ?_⟩
  have node :
      Target.compileNode ⟨backend, catalog, key⟩ false
          (.leaf ⟨path, .compare .eq, false, .null⟩) =
        pure (some (.isNull (.column resolved.column false) false)) := by
    simp only [Target.compileNode, Target.compileLeaf, Target.column, found]
    rfl
  have text : (Fragment.isNull (.column resolved.column false) false).sql backend =
      resolved.column ++ " IS NULL" := by
    apply String.toList_inj.mp
    simp [Fragment.sql, Fragment.foldedSql, Fragment.negation]
  rw [compile_eq, node, ← text]
  rfl

/--
The columns of a query are those of the view.

On a catalog of declared classes in which no attribute has the name of the
identifier, the paths on a class mean exactly the columns of its view.  So a
query that is compiled names columns of the view only, in its condition and in
its order, and every column of the view can be searched on every backend.
-/
theorem mem_viewColumns_iff_searched
    {declared : List ObjectClass}
    {catalog : Catalog}
    (built : Catalog.build declared = .ok catalog)
    (wellDeclared : ∀ objectClass ∈ declared, WellDeclared objectClass)
    (noIdentifier :
      ∀ objectClass ∈ catalog.classes, ∀ attr ∈ objectClass.attributes, attr.name ≠ "id")
    (key : String) :
    (∀ column,
      (∃ path resolved,
        catalog.resolvePath? key path = some resolved ∧ resolved.column = column) ↔
      column ∈ catalog.viewColumns key) ∧
    (∀ backend node constraints compiled,
      compile backend catalog key node constraints = .ok compiled →
      (∃ fragment?,
        (Target.compileNode ⟨backend, catalog, key⟩ false node).result = .ok fragment? ∧
        compiled.whereClause = conditionText backend fragment? ∧
        ∀ fragment ∈ fragment?, ∀ column ∈ fragment.columns,
          column ∈ catalog.viewColumns key) ∧
      ∃ columns : List (String × SortOrder),
        compiled.orderClause = orderText columns ∧
        columns.length = constraints.orderBy.length ∧
        ∀ term ∈ columns, term.1 ∈ catalog.viewColumns key) ∧
    (∀ column ∈ catalog.viewColumns key, ∀ backend, ∃ path,
      compile backend catalog key (.leaf ⟨path, .compare .eq, false, .null⟩) Constraints.none =
        .ok ⟨column ++ " IS NULL", "", "", []⟩) := by
  have settled := settled_of_build
    (fun objectClass isDeclared => (wellDeclared objectClass isDeclared).selfFree) built
  have agreement := WellNamed.exists_resolvePath?_iff ⟨settled, wellDeclared, noIdentifier⟩ key
  refine ⟨agreement, ?_, ?_⟩
  · intro backend node constraints compiled compiles
    rcases clauses_of_compile compiles with ⟨fragment?, outcome, condition, ordered⟩
    constructor
    · refine ⟨fragment?, outcome, condition, ?_⟩
      rintro fragment rfl column isNamed
      exact (agreement column).mp (searches_of_compileNode node outcome column isNamed)
    · rcases searches_of_orderClause ordered with ⟨columns, clause, sameLength, searched⟩
      refine ⟨columns, clause, sameLength, ?_⟩
      intro term isTerm
      exact (agreement term.1).mp (searched term isTerm)
  · intro column isColumn backend
    exact exists_compile_of_searches backend ((agreement column).mpr isColumn)

/-- The name of an author as a person is a column of the view of books, and can be searched. -/
theorem author_name_searched_on_library :
    ∃ catalog,
      Catalog.build library = .ok catalog ∧
      (∃ path resolved,
        catalog.resolvePath? "book" path = some resolved ∧
        resolved.column = "author__person__name") ∧
      "author__name" ∉ catalog.viewColumns "book" := by
  rcases exists_wellNamed_library with ⟨catalog, built, wellNamed, columns⟩
  refine ⟨catalog, built, ?_, ?_⟩
  · apply ((mem_viewColumns_iff_searched built wellNamed.wellDeclared wellNamed.noIdentifier
      "book").1 "author__person__name").mpr
    rw [columns]
    decide
  · rw [columns]
    decide

end ClassStore.Query
