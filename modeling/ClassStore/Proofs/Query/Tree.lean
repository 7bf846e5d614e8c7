import ClassStore.Proofs.Query.Binding

/-!
# Compilation of a tree by its leaves

A leaf is compiled into one comparison of its column, or into a group of such
comparisons where dates with different segments are alternatives: this is
`exists_ofLeaf_of_compileLeaf`.  A tree is compiled into the fragments that its
leaves have on their own, in groups of the same combinators, where groups without
members are left out.  `compile_eq` puts the clauses together.
-/

namespace ClassStore.Query

open ClassStore.Catalog
open ClassStore.Date
open ClassStore.Search
open Compiling

/-- A scalar of the variant of dates is a date. -/
theorem exists_date_of_variant
    {value : Scalar}
    (dated : value.variant = .date) :
    ∃ date, value = .date date := by
  cases value with
  | date date => exact ⟨date, rfl⟩
  | string text => cases dated
  | integer number => cases dated
  | boolean truth => cases dated

theorem exists_date_of_kind_eq
    {date : PartialDate}
    {value : Scalar}
    (kind : (Scalar.date date).kind = value.kind) :
    ∃ other, value = .date other ∧ date.segments = other.segments := by
  cases value with
  | date other => exact ⟨other, rfl, ScalarKind.date.inj kind⟩
  | string text => cases kind
  | integer number => cases kind
  | boolean truth => cases kind

/-- Scalars of one kind, the first of which is a date, are dates with the same segments. -/
theorem exists_dates_of_kind_eq
    {low high : Scalar}
    (alike : low.kind = high.kind)
    (dated : low.variant = .date) :
    ∃ lowDate highDate : PartialDate,
      low = .date lowDate ∧ high = .date highDate ∧ lowDate.segments = highDate.segments := by
  rcases exists_date_of_variant dated with ⟨lowDate, rfl⟩
  rcases exists_date_of_kind_eq alike with ⟨highDate, rfl, sameSegments⟩
  exact ⟨lowDate, highDate, rfl, rfl, sameSegments⟩

/-- The value can be ordered: of a date, the segments form one run. -/
def isOrderable : Scalar → Bool
  | .date date => date.isComplete || date.segments.isContiguous
  | _ => true

theorem isOrderable_congr
    {low high : Scalar}
    (alike : low.kind = high.kind) :
    isOrderable low = isOrderable high := by
  cases low <;> cases high <;> simp_all [Scalar.kind, isOrderable, PartialDate.isComplete]

/-! ## Leaves only append -/

namespace Compiling

theorem appends_compileDateComparison
    (backend : Backend)
    (leaf : Leaf)
    (column : String)
    (comparison : Comparison)
    (date : PartialDate) :
    Appends (compileDateComparison backend leaf column comparison date) := by
  intro earlier
  simp only [result, binds, run_compileDateComparison]
  split
  · simp
  · split
    · simp
    · split <;> simp

theorem appends_compileComparison
    (backend : Backend)
    (leaf : Leaf)
    (column : String)
    (type : SemanticType)
    (comparison : Comparison)
    (value : Scalar) :
    Appends (compileComparison backend leaf column type comparison value) := by
  by_cases dated : value.variant = .date
  · obtain ⟨date, rfl⟩ := exists_date_of_variant dated
    exact appends_compileDateComparison backend leaf column comparison date
  · exact .of_run (run_compileComparison backend leaf column type comparison dated)

theorem appends_compileBetween
    (backend : Backend)
    (leaf : Leaf)
    (column : String)
    (type : SemanticType)
    (low high : Scalar) :
    Appends (compileBetween backend leaf column type low high) := by
  intro earlier
  by_cases alike : low.kind = high.kind
  · by_cases dated : low.variant = .date
    · obtain ⟨lowDate, highDate, rfl, rfl, sameSegments⟩ := exists_dates_of_kind_eq alike dated
      simp only [result, binds, run_compileBetween_dates backend leaf column type sameSegments,
        run_compilePlainBetween, run_compileDateBetween]
      split
      · simp
      · split <;> simp
    · simp [result, binds, run_compileBetween_plain backend leaf column type alike dated,
        run_compilePlainBetween]
  · simp [result, binds, run_compileBetween_unlike backend leaf column type alike]

theorem appends_compileAny
    (backend : Backend)
    (leaf : Leaf)
    (column : String)
    (type : SemanticType)
    (values : List Scalar) :
    Appends (compileAny backend leaf column type values) := by
  cases values with
  | nil => exact appends_throw _
  | cons first values =>
      intro earlier
      simp only [result, binds, run_compileAny]
      split
      · simp [run_compileAnyDate]
      · split <;> simp

theorem appends_compileOnColumn
    (backend : Backend)
    (leaf : Leaf)
    (column : String)
    (type : SemanticType) :
    Appends (compileOnColumn backend leaf column type) := by
  rw [compileOnColumn]
  split
  · exact appends_pure _
  · exact appends_pure _
  · exact appends_throw _
  · exact appends_compileComparison _ _ _ _ _ _
  · exact appends_throw _
  · exact appends_compileBetween _ _ _ _ _ _
  · exact appends_compileAny _ _ _ _ _
  · exact appends_throw _

/-- What a leaf is compiled into does not depend on the values bound earlier. -/
theorem appends_compileLeaf (target : Target) (leaf : Leaf) :
    Appends (target.compileLeaf leaf) := by
  rw [Target.compileLeaf]
  split
  · exact appends_compileOnColumn _ _ _ _
  · exact appends_throw _

end Compiling

/-! ## The form of a leaf -/

namespace Fragment

/-- A column, whole or formatted as some segments. -/
inductive Subject (column : String) : Fragment → Prop where
  | column (folded : Bool) : Subject column (.column column folded)
  | datePart (segments : SegmentSet) : Subject column (.datePart column segments)

/-- One comparison of a column with placeholders. -/
inductive Comparing (column : String) : Fragment → Prop where
  | compare {subject : Fragment} (isSubject : Subject column subject)
      (comparison : SqlComparison) (folded : Bool) :
      Comparing column (.compare subject comparison (.placeholder folded))
  | between {subject : Fragment} (isSubject : Subject column subject)
      (folded negated : Bool) :
      Comparing column (.between subject (.placeholder folded) (.placeholder folded) negated)
  | among {subject : Fragment} (isSubject : Subject column subject)
      (count : Nat) (positive : 0 < count) (folded negated : Bool) :
      Comparing column (.among subject (placeholders count folded) negated)
  | isNull {subject : Fragment} (isSubject : Subject column subject) (negated : Bool) :
      Comparing column (.isNull subject negated)

/-- What a leaf on a column is compiled into: one comparison, or several between parentheses. -/
inductive OfLeaf (column : String) : Fragment → Prop where
  | one {fragment : Fragment} (comparing : Comparing column fragment) : OfLeaf column fragment
  | several (combinator : Combinator) {members : List Fragment}
      (comparing : ∀ member ∈ members, Comparing column member)
      (plural : 2 ≤ members.length) :
      OfLeaf column (.group combinator members true)

end Fragment

open Fragment

/-- Adding a date to groups leaves no group empty. -/
theorem forall_ne_nil_addToGroups
    {groups : List (SegmentSet × List PartialDate)}
    (filled : ∀ group ∈ groups, group.2 ≠ [])
    (date : PartialDate) :
    ∀ group ∈ addToGroups date groups, group.2 ≠ [] := by
  induction groups with
  | nil => simp [addToGroups]
  | cons first groups inductionHypothesis =>
      obtain ⟨segments, dates⟩ := first
      have rest : ∀ group ∈ groups, group.2 ≠ [] := fun group member =>
        filled group (List.mem_cons_of_mem _ member)
      simp only [addToGroups]
      split
      · intro group member
        rcases List.mem_cons.mp member with rfl | member
        · simp
        · exact rest group member
      · intro group member
        rcases List.mem_cons.mp member with rfl | member
        · exact filled _ List.mem_cons_self
        · exact inductionHypothesis rest group member

/-- No group of dates is empty. -/
theorem forall_ne_nil_groupBySegments (dates : List PartialDate) :
    ∀ group ∈ groupBySegments dates, group.2 ≠ [] := by
  have general : ∀ (dates : List PartialDate) (groups : List (SegmentSet × List PartialDate)),
      (∀ group ∈ groups, group.2 ≠ []) →
      ∀ group ∈ dates.foldl (fun groups date => addToGroups date groups) groups,
        group.2 ≠ [] := by
    intro dates
    induction dates with
    | nil => exact fun _ filled => filled
    | cons date dates inductionHypothesis =>
        intro groups filled
        exact inductionHypothesis _ (forall_ne_nil_addToGroups filled date)
  exact general dates [] (by simp)

theorem addToGroups_ne_nil
    (date : PartialDate)
    (groups : List (SegmentSet × List PartialDate)) :
    addToGroups date groups ≠ [] := by
  cases groups with
  | nil => simp [addToGroups]
  | cons group groups =>
      simp only [addToGroups]
      split <;> simp

/-- Some dates have at least one group. -/
theorem groupBySegments_ne_nil
    {dates : List PartialDate}
    (some : dates ≠ []) :
    groupBySegments dates ≠ [] := by
  obtain ⟨front, last, rfl⟩ := List.eq_nil_or_concat dates |>.resolve_left some
  simp only [List.concat_eq_append, groupBySegments, List.foldl_append, List.foldl_cons,
    List.foldl_nil]
  exact addToGroups_ne_nil last _

theorem comparing_dateGroupFragment
    (leaf : Leaf)
    (column : String)
    {group : SegmentSet × List PartialDate}
    (filled : group.2 ≠ []) :
    Comparing column (dateGroupFragment leaf column group) := by
  have positive : 0 < group.2.length := List.length_pos_iff.mpr filled
  rw [dateGroupFragment]
  split
  · exact .among (.column false) _ positive false leaf.negated
  · exact .among (.datePart group.1) _ positive false leaf.negated

/-- Alternatives of dates are one comparison or several between parentheses. -/
theorem ofLeaf_anyDateFragment
    (leaf : Leaf)
    (column : String)
    {dates : List PartialDate}
    (some : dates ≠ []) :
    OfLeaf column
      (anyDateFragment leaf ((groupBySegments dates).map (dateGroupFragment leaf column))) := by
  have comparing : ∀ fragment ∈ (groupBySegments dates).map (dateGroupFragment leaf column),
      Comparing column fragment := by
    intro fragment member
    obtain ⟨group, inGroups, rfl⟩ := List.mem_map.mp member
    exact comparing_dateGroupFragment leaf column
      (forall_ne_nil_groupBySegments dates group inGroups)
  have filled : (groupBySegments dates).map (dateGroupFragment leaf column) ≠ [] := by
    simpa using groupBySegments_ne_nil some
  generalize (groupBySegments dates).map (dateGroupFragment leaf column) = fragments
    at comparing filled
  rcases fragments with _ | ⟨fragment, _ | ⟨following, fragments⟩⟩
  · exact absurd rfl filled
  · exact .one (comparing fragment List.mem_cons_self)
  · exact .several _ comparing (by simp)

theorem allDates?_ne_nil
    {first : Scalar}
    {values : List Scalar}
    {dates : List PartialDate}
    (all : allDates? (first :: values) = some dates) :
    dates ≠ [] := by
  simp only [allDates?, Option.bind_eq_bind, Option.bind_eq_some_iff] at all
  obtain ⟨date, -, rest, -, equal⟩ := all
  simp only [Option.some.injEq] at equal
  simp [← equal]

theorem comparing_of_compileComparison
    {backend : Backend}
    {leaf : Leaf}
    {column : String}
    {type : SemanticType}
    {comparison : Comparison}
    {value : Scalar}
    {fragment : Fragment}
    (compiled :
      (compileComparison backend leaf column type comparison value).result = .ok fragment) :
    Comparing column fragment := by
  by_cases dated : value.variant = .date
  · obtain ⟨date, rfl⟩ := exists_date_of_variant dated
    simp only [compileComparison, result, run_compileDateComparison] at compiled
    split at compiled
    · simp at compiled
    · split at compiled
      · simp only [Except.ok.injEq] at compiled
        subst compiled
        exact .compare (.column false) _ false
      · split at compiled
        · simp at compiled
        · simp only [Except.ok.injEq] at compiled
          subst compiled
          exact .compare (.datePart _) _ false
  · simp only [result, run_compileComparison backend leaf column type comparison dated,
      Except.ok.injEq] at compiled
    subst compiled
    exact .compare (.column _) _ _

theorem comparing_of_compileBetween
    {backend : Backend}
    {leaf : Leaf}
    {column : String}
    {type : SemanticType}
    {low high : Scalar}
    {fragment : Fragment}
    (compiled : (compileBetween backend leaf column type low high).result = .ok fragment) :
    Comparing column fragment := by
  by_cases alike : low.kind = high.kind
  · by_cases dated : low.variant = .date
    · obtain ⟨lowDate, highDate, rfl, rfl, sameSegments⟩ := exists_dates_of_kind_eq alike dated
      simp only [result, run_compileBetween_dates backend leaf column type sameSegments,
        run_compilePlainBetween, run_compileDateBetween] at compiled
      split at compiled
      · simp only [Except.ok.injEq] at compiled
        subst compiled
        exact .between (.column _) _ _
      · split at compiled
        · simp only [Except.ok.injEq] at compiled
          subst compiled
          exact .between (.datePart _) _ _
        · simp at compiled
    · simp only [result, run_compileBetween_plain backend leaf column type alike dated,
        run_compilePlainBetween, Except.ok.injEq] at compiled
      subst compiled
      exact .between (.column _) _ _
  · simp [result, run_compileBetween_unlike backend leaf column type alike] at compiled

theorem ofLeaf_of_compileAny
    {backend : Backend}
    {leaf : Leaf}
    {column : String}
    {type : SemanticType}
    {values : List Scalar}
    {fragment : Fragment}
    (compiled : (compileAny backend leaf column type values).result = .ok fragment) :
    OfLeaf column fragment := by
  cases values with
  | nil => simp [compileAny, result] at compiled
  | cons first values =>
      simp only [result, run_compileAny] at compiled
      split at compiled
      · next dates all =>
          simp only [run_compileAnyDate, Except.ok.injEq] at compiled
          subst compiled
          exact ofLeaf_anyDateFragment leaf column (allDates?_ne_nil all)
      · split at compiled
        · simp at compiled
        · simp only [Except.ok.injEq] at compiled
          subst compiled
          exact .one (.among (.column _) _ (Nat.succ_pos _) _ _)

/-- A leaf on a column is compiled into one comparison of it, or several in a group. -/
theorem ofLeaf_of_compileOnColumn
    {backend : Backend}
    {leaf : Leaf}
    {column : String}
    {type : SemanticType}
    {fragment : Fragment}
    (compiled : (compileOnColumn backend leaf column type).result = .ok fragment) :
    OfLeaf column fragment := by
  rw [compileOnColumn] at compiled
  split at compiled
  · simp only [result, run_pure, Except.ok.injEq] at compiled
    subst compiled
    exact .one (.isNull (.column false) _)
  · simp only [result, run_pure, Except.ok.injEq] at compiled
    subst compiled
    exact .one (.isNull (.column false) _)
  · simp [result] at compiled
  · exact .one (comparing_of_compileComparison compiled)
  · simp [result] at compiled
  · exact .one (comparing_of_compileBetween compiled)
  · exact ofLeaf_of_compileAny compiled
  · simp [result] at compiled

/-- A leaf that is compiled has a path to a column, and is compiled into comparisons of it. -/
theorem exists_ofLeaf_of_compileLeaf
    {target : Target}
    {leaf : Leaf}
    {fragment : Fragment}
    (compiled : (target.compileLeaf leaf).result = .ok fragment) :
    ∃ resolved, target.catalog.resolvePath? target.key leaf.path = some resolved ∧
      OfLeaf resolved.column fragment := by
  rw [Target.compileLeaf, Target.column] at compiled
  cases found : target.catalog.resolvePath? target.key leaf.path with
  | none => simp [found, result] at compiled
  | some resolved =>
      simp only [found] at compiled
      exact ⟨resolved, rfl, ofLeaf_of_compileOnColumn compiled⟩

/-! ## Trees -/

/-- The group of some fragments, or nothing if there are none. -/
def groupFragment? (combinator : Combinator) (parenthesized : Bool)
    (fragments : List Fragment) : Option Fragment :=
  if fragments.isEmpty then none else some (.group combinator fragments parenthesized)

theorem groupFragment?_eq_some
    {combinator : Combinator}
    {parenthesized : Bool}
    {fragments : List Fragment}
    {fragment : Fragment}
    (grouped : groupFragment? combinator parenthesized fragments = some fragment) :
    fragments ≠ [] ∧ fragment = .group combinator fragments parenthesized := by
  rw [groupFragment?] at grouped
  split at grouped
  · cases grouped
  · next nonempty =>
      exact ⟨by simpa using nonempty, (Option.some.inj grouped).symm⟩

mutual

/-- What a tree is compiled into does not depend on the values bound earlier. -/
theorem appends_compileNode
    (target : Target)
    (parenthesized : Bool)
    (node : Node) :
    Appends (target.compileNode parenthesized node) := by
  cases node with
  | leaf content =>
      exact (appends_compileLeaf target content).bind fun _ => appends_pure _
  | group combinator members =>
      exact (appends_compileMembers target members).bind fun _ => appends_pure _

/-- What the members of a group are compiled into does not depend on earlier values. -/
theorem appends_compileMembers
    (target : Target)
    (nodes : List Node) :
    Appends (target.compileMembers nodes) := by
  cases nodes with
  | nil => exact appends_pure _
  | cons node nodes =>
      exact (appends_compileNode target true node).bind fun _ =>
        (appends_compileMembers target nodes).bind fun _ => appends_pure _

end

theorem result_compileNode_leaf
    (target : Target)
    (parenthesized : Bool)
    (content : Leaf) :
    (target.compileNode parenthesized (.leaf content)).result =
      (target.compileLeaf content).result.map some := by
  rw [Target.compileNode, result_bind fun _ => appends_pure _]
  cases (target.compileLeaf content).result <;> rfl

theorem result_compileNode_group
    (target : Target)
    (parenthesized : Bool)
    (combinator : Combinator)
    (members : List Node) :
    (target.compileNode parenthesized (.group combinator members)).result =
      (target.compileMembers members).result.map (groupFragment? combinator parenthesized) := by
  rw [Target.compileNode, result_bind fun _ => appends_pure _]
  cases (target.compileMembers members).result <;> rfl

theorem result_compileMembers_cons
    (target : Target)
    (node : Node)
    (nodes : List Node) :
    (target.compileMembers (node :: nodes)).result =
      (target.compileNode true node).result.bind fun fragment =>
        (target.compileMembers nodes).result.map (fragment.toList ++ ·) := by
  rw [Target.compileMembers, result_bind fun _ =>
    (appends_compileMembers target nodes).bind fun _ => appends_pure _]
  cases (target.compileNode true node).result with
  | error error => rfl
  | ok fragment =>
      simp only [Except.bind]
      rw [result_bind fun _ => appends_pure _]
      cases (target.compileMembers nodes).result <;> rfl

theorem result_compileNode_leaf_eq_ok
    {target : Target}
    {parenthesized : Bool}
    {content : Leaf}
    {fragment? : Option Fragment}
    (compiled : (target.compileNode parenthesized (.leaf content)).result = .ok fragment?) :
    ∃ fragment,
      (target.compileLeaf content).result = .ok fragment ∧ fragment? = some fragment := by
  rw [result_compileNode_leaf] at compiled
  cases outcome : (target.compileLeaf content).result with
  | error error => simp [outcome, Except.map] at compiled
  | ok fragment =>
      simp only [outcome, Except.map, Except.ok.injEq] at compiled
      exact ⟨fragment, rfl, compiled.symm⟩

theorem result_compileNode_group_eq_ok
    {target : Target}
    {parenthesized : Bool}
    {combinator : Combinator}
    {members : List Node}
    {fragment? : Option Fragment}
    (compiled :
      (target.compileNode parenthesized (.group combinator members)).result = .ok fragment?) :
    ∃ fragments,
      (target.compileMembers members).result = .ok fragments ∧
      fragment? = groupFragment? combinator parenthesized fragments := by
  rw [result_compileNode_group] at compiled
  cases outcome : (target.compileMembers members).result with
  | error error => simp [outcome, Except.map] at compiled
  | ok fragments =>
      simp only [outcome, Except.map, Except.ok.injEq] at compiled
      exact ⟨fragments, rfl, compiled.symm⟩

theorem result_compileMembers_cons_eq_ok
    {target : Target}
    {node : Node}
    {nodes : List Node}
    {fragments : List Fragment}
    (compiled : (target.compileMembers (node :: nodes)).result = .ok fragments) :
    ∃ fragment? others,
      (target.compileNode true node).result = .ok fragment? ∧
      (target.compileMembers nodes).result = .ok others ∧
      fragments = fragment?.toList ++ others := by
  rw [result_compileMembers_cons] at compiled
  cases first : (target.compileNode true node).result with
  | error error => simp [first, Except.bind] at compiled
  | ok fragment? =>
      cases rest : (target.compileMembers nodes).result with
      | error error => simp [first, rest, Except.bind, Except.map] at compiled
      | ok others =>
          simp only [first, rest, Except.bind, Except.map, Except.ok.injEq] at compiled
          exact ⟨fragment?, others, rfl, rfl, compiled.symm⟩

/-! ## Faults -/

/-- The error that a computation results in, if it fails. -/
def fault? {Output : Type} (computation : Compiling Output) : Option CompileError :=
  match computation.result with
  | .ok _ => none
  | .error error => some error

theorem fault?_eq_none_iff
    {Output : Type}
    {computation : Compiling Output} :
    fault? computation = none ↔ ∃ output, computation.result = .ok output := by
  rw [fault?]
  cases computation.result <;> simp

theorem fault?_eq_some_iff
    {Output : Type}
    {computation : Compiling Output}
    {error : CompileError} :
    fault? computation = some error ↔ computation.result = .error error := by
  rw [fault?]
  cases computation.result <;> simp

mutual

/-- A tree fails with the error of the first of its leaves that fails. -/
theorem fault?_compileNode
    (target : Target)
    (parenthesized : Bool)
    (node : Node) :
    fault? (target.compileNode parenthesized node) =
      node.leaves.findSome? fun leaf => fault? (target.compileLeaf leaf) := by
  cases node with
  | leaf content =>
      rw [Node.leaves, List.findSome?_cons, List.findSome?_nil, fault?, fault?,
        result_compileNode_leaf]
      cases (target.compileLeaf content).result <;> rfl
  | group combinator members =>
      rw [Node.leaves, ← fault?_compileMembers target members, fault?, fault?,
        result_compileNode_group]
      cases (target.compileMembers members).result <;> rfl

theorem fault?_compileMembers
    (target : Target)
    (nodes : List Node) :
    fault? (target.compileMembers nodes) =
      (Node.listLeaves nodes).findSome? fun leaf => fault? (target.compileLeaf leaf) := by
  cases nodes with
  | nil => rfl
  | cons node nodes =>
      rw [Node.listLeaves, List.findSome?_append, ← fault?_compileNode target true node,
        ← fault?_compileMembers target nodes, fault?, fault?, fault?, result_compileMembers_cons]
      cases (target.compileNode true node).result with
      | error error => rfl
      | ok fragment => cases (target.compileMembers nodes).result <;> rfl

end

/-- Every leaf of a tree that is compiled is compiled. -/
theorem exists_compileLeaf_of_compileNode
    {target : Target}
    {parenthesized : Bool}
    {node : Node}
    {fragment? : Option Fragment}
    (compiled : (target.compileNode parenthesized node).result = .ok fragment?)
    {leaf : Leaf}
    (isLeaf : leaf ∈ node.leaves) :
    ∃ fragment, (target.compileLeaf leaf).result = .ok fragment := by
  have faultless := fault?_eq_none_iff.mpr ⟨fragment?, compiled⟩
  rw [fault?_compileNode, List.findSome?_eq_none_iff] at faultless
  exact fault?_eq_none_iff.mp (faultless leaf isLeaf)

/-! ## Clauses -/

theorem Fragment.sqls_eq_map
    (backend : Backend)
    (fragments : List Fragment) :
    Fragment.sqls backend fragments = fragments.map (Fragment.sql backend) := by
  induction fragments with
  | nil => rfl
  | cons fragment fragments inductionHypothesis =>
      rw [Fragment.sqls, inductionHypothesis, List.map_cons]

/-- The text of a condition, empty if nothing is demanded. -/
def conditionText (backend : Backend) : Option Fragment → String
  | some fragment => fragment.sql backend
  | none => ""

theorem run_whereClause
    (target : Target)
    (node : Node)
    (earlier : List Scalar) :
    (target.whereClause node).runOn earlier =
      ((target.compileNode false node).result.map (conditionText target.backend),
        earlier ++ (target.compileNode false node).binds) := by
  rw [Target.whereClause, run_bind, appends_compileNode target false node earlier]
  cases (target.compileNode false node).result with
  | error error => rfl
  | ok fragment => cases fragment <;> rfl

theorem appends_bindCount
    (what : String)
    (value : UInt64) :
    Appends (bindCount what value) := by
  rw [bindCount]
  split
  · exact appends_bindValue _
  · exact appends_throw _

/-- The extent of a result does not depend on the values of the condition. -/
theorem appends_limitClause
    (backend : Backend)
    (constraints : Constraints) :
    Appends (limitClause backend constraints) := by
  unfold limitClause
  split
  · exact appends_pure _
  · exact (appends_bindCount _ _).bind fun _ => appends_pure _
  · exact (appends_bindCount _ _).bind fun _ =>
      (appends_bindCount _ _).bind fun _ => appends_pure _
  · refine (appends_bindCount _ _).bind fun _ => ?_
    cases backend <;> exact appends_pure _

/-- A search is compiled clause by clause, and the values of the condition come first. -/
theorem compile_eq
    (backend : Backend)
    (catalog : Catalog)
    (key : String)
    (node : Node)
    (constraints : Constraints) :
    compile backend catalog key node constraints =
      (Target.compileNode ⟨backend, catalog, key⟩ false node).result.bind fun fragment =>
        (Target.orderClause ⟨backend, catalog, key⟩ constraints).bind fun order =>
          (limitClause backend constraints).result.map fun limit =>
            ⟨conditionText backend fragment, order, limit,
              (Target.compileNode ⟨backend, catalog, key⟩ false node).binds ++
                (limitClause backend constraints).binds⟩ := by
  have clauses :
      (Target.compileClauses ⟨backend, catalog, key⟩ node constraints).runOn [] =
        match (Target.compileNode ⟨backend, catalog, key⟩ false node).result with
        | .error error =>
            (.error error, (Target.compileNode ⟨backend, catalog, key⟩ false node).binds)
        | .ok fragment =>
            match Target.orderClause ⟨backend, catalog, key⟩ constraints with
            | .error error =>
                (.error error, (Target.compileNode ⟨backend, catalog, key⟩ false node).binds)
            | .ok order =>
                ((limitClause backend constraints).result.map fun limit =>
                    (conditionText backend fragment, order, limit),
                  (Target.compileNode ⟨backend, catalog, key⟩ false node).binds ++
                    (limitClause backend constraints).binds) := by
    rw [Target.compileClauses, run_bind, run_whereClause]
    cases (Target.compileNode ⟨backend, catalog, key⟩ false node).result with
    | error error => rfl
    | ok fragment =>
        simp only [Except.map, List.nil_append]
        rw [run_bind]
        cases Target.orderClause ⟨backend, catalog, key⟩ constraints with
        | error error => rfl
        | ok order =>
            simp only [run_outcome]
            rw [run_bind, appends_limitClause backend constraints]
            cases (limitClause backend constraints).result <;> rfl
  rw [compile]
  rw [show (Target.compileClauses ⟨backend, catalog, key⟩ node constraints).run.run [] = _
    from clauses]
  cases (Target.compileNode ⟨backend, catalog, key⟩ false node).result with
  | error error => rfl
  | ok fragment =>
      cases Target.orderClause ⟨backend, catalog, key⟩ constraints with
      | error error => rfl
      | ok order => cases (limitClause backend constraints).result <;> rfl

/-- A compiled search clause by clause; the values of the condition stand before the others. -/
theorem parts_of_compile
    {backend : Backend}
    {catalog : Catalog}
    {key : String}
    {node : Node}
    {constraints : Constraints}
    {compiled : Compiled}
    (compiles : compile backend catalog key node constraints = .ok compiled) :
    ∃ fragment?,
      (Target.compileNode ⟨backend, catalog, key⟩ false node).result = .ok fragment? ∧
      compiled.whereClause = conditionText backend fragment? ∧
      Target.orderClause ⟨backend, catalog, key⟩ constraints = .ok compiled.orderClause ∧
      (limitClause backend constraints).result = .ok compiled.limitClause ∧
      compiled.binds =
        (Target.compileNode ⟨backend, catalog, key⟩ false node).binds ++
          (limitClause backend constraints).binds := by
  rw [compile_eq] at compiles
  cases outcome : (Target.compileNode ⟨backend, catalog, key⟩ false node).result with
  | error error => simp [outcome, Except.bind] at compiles
  | ok fragment? =>
      cases ordered : Target.orderClause ⟨backend, catalog, key⟩ constraints with
      | error error => simp [outcome, ordered, Except.bind] at compiles
      | ok order =>
          cases limited : (limitClause backend constraints).result with
          | error error => simp [outcome, ordered, limited, Except.bind, Except.map] at compiles
          | ok limit =>
              simp only [outcome, ordered, limited, Except.bind, Except.map,
                Except.ok.injEq] at compiles
              subst compiles
              exact ⟨fragment?, rfl, rfl, rfl, rfl, rfl⟩

/-- The condition and the order of a compiled search are those of its tree and constraints. -/
theorem clauses_of_compile
    {backend : Backend}
    {catalog : Catalog}
    {key : String}
    {node : Node}
    {constraints : Constraints}
    {compiled : Compiled}
    (compiles : compile backend catalog key node constraints = .ok compiled) :
    ∃ fragment?,
      (Target.compileNode ⟨backend, catalog, key⟩ false node).result = .ok fragment? ∧
      compiled.whereClause = conditionText backend fragment? ∧
      Target.orderClause ⟨backend, catalog, key⟩ constraints = .ok compiled.orderClause := by
  rcases parts_of_compile compiles with ⟨fragment?, outcome, condition, ordered, _, _⟩
  exact ⟨fragment?, outcome, condition, ordered⟩

end ClassStore.Query
