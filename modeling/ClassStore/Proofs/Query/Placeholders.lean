import ClassStore.Proofs.Query.DateGroups
import ClassStore.Proofs.Query.ViewColumns
import Mathlib.Algebra.GroupWithZero.Nat
import Mathlib.Data.List.Forall2

/-!
# Placeholders and their values

The text of a condition and the values bound to it are made apart from each
other.  They belong together by position only, so the placeholders must be
written in the order in which the values are bound.

`Fragment.sides` lists, for the placeholders of a condition from left to right,
what each is compared with.  `operands` lists the values of a leaf in the
order in which they are bound.  `LinesUp` says that the two agree: every value
meets the column of its leaf, and a date of which segments are open meets exactly
its own segments of that column.
-/

namespace ClassStore.Query

open ClassStore.Catalog
open ClassStore.Date
open ClassStore.Search
open Compiling

/-! ## Placeholders of a text -/

/-- The number of placeholders in a text. -/
def placeholderCount (text : String) : Nat :=
  text.toList.count '?'

@[simp]
theorem placeholderCount_append (front back : String) :
    placeholderCount (front ++ back) = placeholderCount front + placeholderCount back := by
  simp [placeholderCount]

/-- A separator without placeholders adds none. -/
theorem placeholderCount_intercalate
    {separator : String}
    (plain : placeholderCount separator = 0)
    (texts : List String) :
    placeholderCount (String.intercalate separator texts) =
      (texts.map placeholderCount).sum := by
  induction texts with
  | nil => rfl
  | cons text texts inductionHypothesis =>
      cases texts with
      | nil => simp
      | cons following texts =>
          rw [String.intercalate_cons_cons, placeholderCount_append, placeholderCount_append,
            plain, inductionHypothesis, Nat.add_zero]
          rfl

theorem placeholderCount_foldedSql (folded : Bool) (expression : String) :
    placeholderCount (Fragment.foldedSql folded expression) = placeholderCount expression := by
  cases folded with
  | false => rfl
  | true =>
      rw [Fragment.foldedSql, if_pos rfl, placeholderCount_append, placeholderCount_append]
      change 0 + _ + 0 = _
      omega

theorem placeholderCount_comparison (backend : Backend) (comparison : SqlComparison) :
    placeholderCount (comparison.sql backend) = 0 := by
  cases backend <;> cases comparison <;> decide

theorem placeholderCount_negation (negated : Bool) :
    placeholderCount (Fragment.negation negated) = 0 := by
  cases negated <;> decide

theorem placeholderCount_pattern (backend : Backend) (segments : SegmentSet) :
    placeholderCount (segments.pattern backend) = 0 := by
  have each : ∀ segment : Segment, '?' ∉ (segment.pattern backend).toList := by
    intro segment
    cases backend <;> cases segment <;> decide
  rw [placeholderCount, List.count_eq_zero, SegmentSet.pattern, String.toList_join]
  intro isMark
  rcases List.mem_flatMap.mp isMark with ⟨_, isPattern, inside⟩
  rcases List.mem_map.mp isPattern with ⟨segment, _, rfl⟩
  exact each segment inside

theorem placeholderCount_datePartSql
    (backend : Backend)
    (column : String)
    (segments : SegmentSet) :
    placeholderCount (Fragment.datePartSql column segments backend) =
      placeholderCount column := by
  cases backend with
  | postgres =>
      simp only [Fragment.datePartSql, placeholderCount_append, placeholderCount_pattern]
      change 0 + _ + 0 + 0 + 0 = _
      omega
  | sqlite =>
      simp only [Fragment.datePartSql, placeholderCount_append, placeholderCount_pattern]
      change 0 + 0 + 0 + _ + 0 = _
      omega

/-! ## Placeholders of a condition -/

mutual

/--
What the placeholders of a condition are compared with, from left to right.

The condition itself stands against `other`, if it is one side of a comparison.
-/
def Fragment.sides : Fragment → Option Fragment → List (Option Fragment)
  | .column _ _, _ => []
  | .placeholder _, other => [other]
  | .datePart _ _, _ => []
  | .compare left _ right, _ => left.sides (some right) ++ right.sides (some left)
  | .between subject low high _, _ =>
      subject.sides none ++ low.sides (some subject) ++ high.sides (some subject)
  | .among subject items _, _ => subject.sides none ++ Fragment.listSides items (some subject)
  | .isNull subject _, _ => subject.sides none
  | .group _ members _, _ => Fragment.listSides members none

/-- What the placeholders of conditions are compared with, from left to right. -/
def Fragment.listSides : List Fragment → Option Fragment → List (Option Fragment)
  | [], _ => []
  | fragment :: fragments, other => fragment.sides other ++ Fragment.listSides fragments other

end

theorem Fragment.listSides_append
    (front back : List Fragment)
    (other : Option Fragment) :
    Fragment.listSides (front ++ back) other =
      Fragment.listSides front other ++ Fragment.listSides back other := by
  induction front with
  | nil => rfl
  | cons fragment fragments inductionHypothesis =>
      simp only [List.cons_append, Fragment.listSides, inductionHypothesis, List.append_assoc]

/-- Each of some placeholders is compared with the same. -/
theorem Fragment.listSides_placeholders
    (count : Nat)
    (folded : Bool)
    (other : Option Fragment) :
    Fragment.listSides (placeholders count folded) other = List.replicate count other := by
  induction count with
  | zero => rfl
  | succ count inductionHypothesis =>
      rw [placeholders] at inductionHypothesis ⊢
      rw [List.replicate_succ, List.replicate_succ, Fragment.listSides, inductionHypothesis]
      rfl

mutual

/-- The text of a condition has the placeholders of the condition and no others. -/
theorem placeholderCount_sql
    (backend : Backend)
    (fragment : Fragment)
    (other : Option Fragment)
    (plain : ∀ column ∈ fragment.columns, placeholderCount column = 0) :
    placeholderCount (fragment.sql backend) = (fragment.sides other).length := by
  cases fragment with
  | column name folded =>
      rw [Fragment.sql, placeholderCount_foldedSql]
      exact plain name List.mem_cons_self
  | placeholder folded =>
      rw [Fragment.sql, placeholderCount_foldedSql]
      rfl
  | datePart name segments =>
      rw [Fragment.sql, placeholderCount_datePartSql]
      exact plain name List.mem_cons_self
  | compare left comparison right =>
      simp only [Fragment.columns, List.forall_mem_append] at plain
      have leftCount := placeholderCount_sql backend left (some right) plain.1
      have rightCount := placeholderCount_sql backend right (some left) plain.2
      simp only [Fragment.sql, placeholderCount_append, placeholderCount_comparison, leftCount,
        rightCount, Fragment.sides, List.length_append]
      rfl
  | between subject low high negated =>
      simp only [Fragment.columns, List.forall_mem_append] at plain
      have subjectCount := placeholderCount_sql backend subject none plain.1.1
      have lowCount := placeholderCount_sql backend low (some subject) plain.1.2
      have highCount := placeholderCount_sql backend high (some subject) plain.2
      simp only [Fragment.sql, placeholderCount_append, placeholderCount_negation, subjectCount,
        lowCount, highCount, Fragment.sides, List.length_append]
      rfl
  | among subject items negated =>
      simp only [Fragment.columns, List.forall_mem_append] at plain
      have subjectCount := placeholderCount_sql backend subject none plain.1
      have itemsCount := placeholderCount_sqls backend items (some subject) plain.2
      have comma : placeholderCount ", " = 0 := by decide
      simp only [Fragment.sql, placeholderCount_append, placeholderCount_negation, subjectCount,
        placeholderCount_intercalate comma, itemsCount, Fragment.sides, List.length_append]
      rfl
  | isNull subject negated =>
      have subjectCount := placeholderCount_sql backend subject none plain
      simp only [Fragment.sql, placeholderCount_append, placeholderCount_negation, subjectCount,
        Fragment.sides]
      rfl
  | group combinator members parenthesized =>
      have membersCount := placeholderCount_sqls backend members none plain
      have separator : placeholderCount (Fragment.separator combinator) = 0 := by
        cases combinator <;> decide
      have text := (placeholderCount_intercalate separator (Fragment.sqls backend members)).trans
        membersCount
      simp only [Fragment.sql, Fragment.sides]
      split
      · rw [placeholderCount_append, placeholderCount_append, text]
        exact Nat.zero_add _
      · exact text

theorem placeholderCount_sqls
    (backend : Backend)
    (fragments : List Fragment)
    (other : Option Fragment)
    (plain : ∀ column ∈ Fragment.listColumns fragments, placeholderCount column = 0) :
    ((Fragment.sqls backend fragments).map placeholderCount).sum =
      (Fragment.listSides fragments other).length := by
  cases fragments with
  | nil => rfl
  | cons fragment fragments =>
      simp only [Fragment.listColumns, List.forall_mem_append] at plain
      rw [Fragment.sqls, Fragment.listSides, List.map_cons, List.sum_cons, List.length_append,
        placeholderCount_sql backend fragment other plain.1,
        placeholderCount_sqls backend fragments other plain.2]

end

/-! ## Values of a leaf -/

/-- The values that a leaf compares with, in the order in which they are bound. -/
def operands : Value → List Scalar
  | .null => []
  | .scalar value => [value]
  | .pair low high => [low, high]
  | .list values =>
      match allDates? values with
      | some dates => (bySegments dates).map Scalar.date
      | none => values

/-- The value as it is bound for an operator; of a date only the defined segments are. -/
def boundOperand (backend : Backend) (operator : Operator) (value : Scalar) : Scalar :=
  match value, operator with
  | .date date, _ =>
      if date.isComplete then boundValue backend (.date date) else .string date.segmentText
  | value, .compare comparison => comparedValue backend comparison value
  | value, _ => boundValue backend value

/-- A value meets its column, and a date with open segments exactly its segments of the column. -/
inductive Meets (column : String) : Option Fragment → Scalar → Prop where
  | whole {value : Scalar} (isWhole : ∀ date, value = .date date → date.isComplete)
      (folded : Bool) :
      Meets column (some (.column column folded)) value
  | segments {date : PartialDate} (isOpen : date.isComplete = false) :
      Meets column (some (.datePart column date.segments)) (.date date)

/-! ## Leaves -/

/-- What a leaf is compiled into has a placeholder for each of its values, in their order. -/
structure LinesUp (backend : Backend) (leaf : Leaf) (column : String)
    (fragment : Fragment) (binds : List Scalar) : Prop where
  sides : List.Forall₂ (Meets column) (fragment.sides none) (operands leaf.value)
  binds : binds = (operands leaf.value).map (boundOperand backend leaf.operator)

theorem forall₂_replicate
    {Side Item : Type}
    {Relation : Side → Item → Prop}
    {side : Side}
    {items : List Item}
    (each : ∀ item ∈ items, Relation side item) :
    List.Forall₂ Relation (List.replicate items.length side) items := by
  induction items with
  | nil => exact .nil
  | cons item items inductionHypothesis =>
      rw [List.forall_mem_cons] at each
      exact .cons each.1 (inductionHypothesis each.2)

/-- A value that is not a date meets its column. -/
theorem meets_of_plain
    {value : Scalar}
    (plain : value.variant ≠ .date)
    (column : String)
    (folded : Bool) :
    Meets column (some (.column column folded)) value := by
  apply Meets.whole
  rintro date rfl
  exact absurd rfl plain

theorem meets_of_complete
    {date : PartialDate}
    (complete : date.isComplete = true)
    (column : String)
    (folded : Bool) :
    Meets column (some (.column column folded)) (.date date) := by
  apply Meets.whole
  rintro _ ⟨⟩
  exact complete

theorem boundOperand_of_plain
    (backend : Backend)
    {value : Scalar}
    (plain : value.variant ≠ .date) :
    (∀ comparison,
      boundOperand backend (.compare comparison) value =
        comparedValue backend comparison value) ∧
    boundOperand backend .between value = boundValue backend value ∧
    boundOperand backend .any value = boundValue backend value := by
  cases value with
  | date date => exact absurd rfl plain
  | string text => exact ⟨fun _ => rfl, rfl, rfl⟩
  | integer number => exact ⟨fun _ => rfl, rfl, rfl⟩
  | boolean truth => exact ⟨fun _ => rfl, rfl, rfl⟩

theorem linesUp_compileComparison
    {backend : Backend}
    {leaf : Leaf}
    {column : String}
    {type : SemanticType}
    {comparison : Comparison}
    {value : Scalar}
    {fragment : Fragment}
    (asks : leaf.operator = .compare comparison)
    (holds : leaf.value = .scalar value)
    (compiled :
      (compileComparison backend leaf column type comparison value).result = .ok fragment) :
    LinesUp backend leaf column fragment
      (compileComparison backend leaf column type comparison value).binds := by
  have compared : operands leaf.value = [value] := by rw [holds, operands]
  by_cases dated : value.variant = .date
  · rcases exists_date_of_variant dated with ⟨date, rfl⟩
    simp only [compileComparison, result, binds, run_compileDateComparison] at compiled ⊢
    split at compiled
    · cases compiled
    · next unlike =>
        rw [if_neg unlike]
        split at compiled
        · next complete =>
            cases compiled
            constructor
            · rw [compared]
              exact .cons (meets_of_complete complete column false) .nil
            · simp [compared, boundOperand, complete]
        · next isOpen =>
            split at compiled
            · cases compiled
            · next ordered =>
                cases compiled
                rw [if_neg isOpen, if_neg ordered]
                constructor
                · rw [compared]
                  exact .cons (.segments (by simpa using isOpen)) .nil
                · simp [compared, boundOperand, isOpen]
  · simp only [result, binds,
      run_compileComparison backend leaf column type comparison dated] at compiled ⊢
    cases compiled
    constructor
    · rw [compared]
      exact .cons (meets_of_plain dated column _) .nil
    · rw [compared, asks, List.map_singleton, (boundOperand_of_plain backend dated).1]
      rfl

theorem linesUp_compileBetween
    {backend : Backend}
    {leaf : Leaf}
    {column : String}
    {type : SemanticType}
    {low high : Scalar}
    {fragment : Fragment}
    (asks : leaf.operator = .between)
    (holds : leaf.value = .pair low high)
    (compiled : (compileBetween backend leaf column type low high).result = .ok fragment) :
    LinesUp backend leaf column fragment
      (compileBetween backend leaf column type low high).binds := by
  have compared : operands leaf.value = [low, high] := by rw [holds, operands]
  by_cases alike : low.kind = high.kind
  · by_cases dated : low.variant = .date
    · rcases exists_dates_of_kind_eq alike dated with
        ⟨lowDate, highDate, rfl, rfl, sameSegments⟩
      simp only [result, binds, run_compileBetween_dates backend leaf column type sameSegments,
        run_compilePlainBetween, run_compileDateBetween] at compiled ⊢
      split at compiled
      · next complete =>
          have highComplete : highDate.isComplete = true := by
            rwa [PartialDate.isComplete, ← sameSegments]
          cases compiled
          constructor
          · rw [compared]
            exact .cons (meets_of_complete complete column _)
              (.cons (meets_of_complete highComplete column _) .nil)
          · simp [compared, boundOperand, complete, highComplete]
      · next isOpen =>
          have highOpen : ¬highDate.isComplete = true := by
            rwa [PartialDate.isComplete, ← sameSegments]
          split at compiled
          · next ordered =>
              cases compiled
              constructor
              · rw [compared]
                refine .cons (.segments (by simpa using isOpen)) (.cons ?_ .nil)
                rw [sameSegments]
                exact .segments (by simpa using highOpen)
              · simp [compared, boundOperand, isOpen, highOpen, ordered]
          · cases compiled
    · have highPlain : high.variant ≠ .date := by
        rwa [Scalar.variant, ← alike]
      simp only [result, binds, run_compileBetween_plain backend leaf column type alike dated,
        run_compilePlainBetween] at compiled ⊢
      cases compiled
      constructor
      · rw [compared]
        exact .cons (meets_of_plain dated column _) (.cons (meets_of_plain highPlain column _) .nil)
      · rw [compared, asks]
        simp only [List.map_cons, List.map_nil, (boundOperand_of_plain backend dated).2.1,
          (boundOperand_of_plain backend highPlain).2.1, List.nil_append]
  · simp [result, run_compileBetween_unlike backend leaf column type alike] at compiled

/-- Dates with the same segments meet these segments of the column, or all of it. -/
theorem meets_dateGroupFragment
    (leaf : Leaf)
    (column : String)
    {group : SegmentSet × List PartialDate}
    (alike : ∀ date ∈ group.2, date.segments = group.1) :
    List.Forall₂ (Meets column)
      ((dateGroupFragment leaf column group).sides none)
      (group.2.map Scalar.date) := by
  have noPlaceholder :
      (if group.1 = SegmentSet.full then Fragment.column column false
        else Fragment.datePart column group.1).sides none = [] := by
    split <;> rfl
  have count : group.2.length = (group.2.map Scalar.date).length := by rw [List.length_map]
  rw [dateGroupFragment, Fragment.sides, noPlaceholder, List.nil_append,
    Fragment.listSides_placeholders, count]
  apply forall₂_replicate
  intro value isDate
  rcases List.mem_map.mp isDate with ⟨date, isMember, rfl⟩
  rw [← alike date isMember]
  split
  · next full =>
      apply meets_of_complete
      rw [PartialDate.isComplete, full, beq_self_eq_true]
  · next notFull => exact .segments (by simpa [PartialDate.isComplete] using notFull)

theorem dateGroupBinds_eq
    (backend : Backend)
    {group : SegmentSet × List PartialDate}
    (alike : ∀ date ∈ group.2, date.segments = group.1) :
    dateGroupBinds backend group =
      (group.2.map Scalar.date).map (boundOperand backend .any) := by
  rw [dateGroupBinds, List.map_map]
  split
  · next full =>
      apply List.map_congr_left
      intro date isMember
      simp [boundOperand, PartialDate.isComplete, alike date isMember, full]
  · next notFull =>
      apply List.map_congr_left
      intro date isMember
      simp [boundOperand, PartialDate.isComplete, alike date isMember, notFull]

/-- The groups of dates line up one after the other. -/
theorem meets_dateGroups
    (backend : Backend)
    (leaf : Leaf)
    (column : String)
    {groups : List (SegmentSet × List PartialDate)}
    (alike : ∀ group ∈ groups, ∀ date ∈ group.2, date.segments = group.1) :
    List.Forall₂ (Meets column)
        (Fragment.listSides (groups.map (dateGroupFragment leaf column)) none)
        ((groups.flatMap Prod.snd).map Scalar.date) ∧
      groups.flatMap (dateGroupBinds backend) =
        ((groups.flatMap Prod.snd).map Scalar.date).map (boundOperand backend .any) := by
  induction groups with
  | nil => exact ⟨.nil, rfl⟩
  | cons group groups inductionHypothesis =>
      rw [List.forall_mem_cons] at alike
      rcases inductionHypothesis alike.2 with ⟨sides, binds⟩
      constructor
      · rw [List.map_cons, Fragment.listSides, List.flatMap_cons, List.map_append]
        exact List.rel_append (meets_dateGroupFragment leaf column alike.1) sides
      · rw [List.flatMap_cons, List.flatMap_cons, List.map_append, List.map_append, binds,
          dateGroupBinds_eq backend alike.1]

/-- A single group of dates stands alone, but its placeholders are the same. -/
theorem sides_anyDateFragment
    (leaf : Leaf)
    (column : String)
    (groups : List (SegmentSet × List PartialDate)) :
    (anyDateFragment leaf (groups.map (dateGroupFragment leaf column))).sides none =
      Fragment.listSides (groups.map (dateGroupFragment leaf column)) none := by
  rcases groups with _ | ⟨group, _ | ⟨following, groups⟩⟩
  · rfl
  · exact (List.append_nil _).symm
  · rfl

theorem exists_allDates?_eq_some
    {values : List Scalar}
    (dated : ∀ value ∈ values, value.variant = .date) :
    ∃ dates, allDates? values = some dates := by
  induction values with
  | nil => exact ⟨[], rfl⟩
  | cons value values inductionHypothesis =>
      rw [List.forall_mem_cons] at dated
      rcases exists_date_of_variant dated.1 with ⟨date, rfl⟩
      rcases inductionHypothesis dated.2 with ⟨dates, others⟩
      exact ⟨date :: dates, by simp [allDates?, Scalar.date?, others]⟩

theorem eq_map_of_allDates?
    {values : List Scalar}
    {dates : List PartialDate}
    (all : allDates? values = some dates) :
    values = dates.map Scalar.date := by
  induction values generalizing dates with
  | nil =>
      cases all
      rfl
  | cons value values inductionHypothesis =>
      simp only [allDates?, Option.bind_eq_bind, Option.bind_eq_some_iff] at all
      obtain ⟨date, isDate, rest, others, equal⟩ := all
      cases equal
      cases value with
      | date date =>
          cases isDate
          rw [List.map_cons, ← inductionHypothesis others]
      | _ => cases isDate

/-- Values of one variant that are not all dates contain no date. -/
theorem plain_of_not_odd
    {first : Scalar}
    {values : List Scalar}
    (mixed : allDates? (first :: values) = none)
    (uniform : findOdd? first (first :: values) = none) :
    ∀ value ∈ first :: values, value.variant ≠ .date := by
  have sameVariant := findOdd?_eq_none_iff.mp uniform
  intro value isMember dated
  have allDated : ∀ other ∈ first :: values, other.variant = .date := by
    intro other isOther
    rw [sameVariant other isOther, ← sameVariant value isMember, dated]
  rcases exists_allDates?_eq_some allDated with ⟨dates, all⟩
  rw [mixed] at all
  cases all

theorem linesUp_compileAny
    {backend : Backend}
    {leaf : Leaf}
    {column : String}
    {type : SemanticType}
    {values : List Scalar}
    {fragment : Fragment}
    (asks : leaf.operator = .any)
    (holds : leaf.value = .list values)
    (compiled : (compileAny backend leaf column type values).result = .ok fragment) :
    LinesUp backend leaf column fragment (compileAny backend leaf column type values).binds := by
  cases values with
  | nil => simp [compileAny, result] at compiled
  | cons first values =>
      simp only [result, binds, run_compileAny] at compiled ⊢
      cases all : allDates? (first :: values) with
      | some dates =>
          have compared : operands leaf.value = (bySegments dates).map Scalar.date := by
            rw [holds, operands, all]
          simp only [all, run_compileAnyDate] at compiled ⊢
          cases compiled
          rcases meets_dateGroups backend leaf column
            (fun group => segments_eq_of_mem_groupBySegments) with ⟨sides, binds⟩
          constructor
          · rw [compared, bySegments_eq, sides_anyDateFragment]
            exact sides
          · rw [compared, bySegments_eq, asks]
            exact binds
      | none =>
          have compared : operands leaf.value = first :: values := by
            rw [holds, operands, all]
          simp only [all] at compiled ⊢
          cases odd : findOdd? first (first :: values) with
          | some other => simp [odd] at compiled
          | none =>
              simp only [odd] at compiled ⊢
              cases compiled
              have plain := plain_of_not_odd all odd
              constructor
              · rw [compared, Fragment.sides, Fragment.listSides_placeholders]
                exact forall₂_replicate fun value isMember =>
                  meets_of_plain (plain value isMember) column _
              · rw [compared, asks, List.nil_append]
                apply List.map_congr_left
                intro value isMember
                exact (boundOperand_of_plain backend (plain value isMember)).2.2.symm

/-- A leaf on a column binds its values in the order of their placeholders. -/
theorem linesUp_compileOnColumn
    {backend : Backend}
    {leaf : Leaf}
    {column : String}
    {type : SemanticType}
    {fragment : Fragment}
    (compiled : (compileOnColumn backend leaf column type).result = .ok fragment) :
    LinesUp backend leaf column fragment (compileOnColumn backend leaf column type).binds := by
  have unbound {negated : Bool} (holds : leaf.value = .null) :
      LinesUp backend leaf column (.isNull (.column column false) negated) [] := by
    constructor
    · rw [holds]
      exact .nil
    · rw [holds]
      rfl
  rw [compileOnColumn] at compiled ⊢
  split at compiled
  · next holds asks =>
      cases compiled
      exact unbound holds
  · next holds asks =>
      cases compiled
      exact unbound holds
  · cases compiled
  · next value comparison holds asks =>
      exact linesUp_compileComparison asks holds compiled
  · cases compiled
  · next low high holds asks => exact linesUp_compileBetween asks holds compiled
  · next values holds asks => exact linesUp_compileAny asks holds compiled
  · cases compiled

/-! ## Trees -/

/-- The values of leaves in the order in which they are bound, each with its leaf. -/
def listOperands (leaves : List Leaf) : List (Leaf × Scalar) :=
  leaves.flatMap fun leaf => (operands leaf.value).map (leaf, ·)

/-- The value meets the column that the path of its leaf has on a class. -/
def Target.Meets (target : Target) (side : Option Fragment) (operand : Leaf × Scalar) : Prop :=
  ∃ resolved,
    target.catalog.resolvePath? target.key operand.1.path = some resolved ∧
    Query.Meets resolved.column side operand.2

/-- What leaves are compiled into has a placeholder for each of their values, in their order. -/
structure Target.LinesUp (target : Target) (leaves : List Leaf) (fragments : List Fragment)
    (binds : List Scalar) : Prop where
  sides : List.Forall₂ target.Meets (Fragment.listSides fragments none) (listOperands leaves)
  binds : binds = leaves.flatMap fun leaf => (target.compileLeaf leaf).binds
  leafBinds :
    ∀ leaf ∈ leaves,
      (target.compileLeaf leaf).binds =
        (operands leaf.value).map (boundOperand target.backend leaf.operator)

theorem Target.linesUp_nil (target : Target) : target.LinesUp [] [] [] :=
  ⟨.nil, rfl, by simp⟩

theorem Target.LinesUp.append
    {target : Target}
    {leaves otherLeaves : List Leaf}
    {fragments otherFragments : List Fragment}
    {binds otherBinds : List Scalar}
    (first : target.LinesUp leaves fragments binds)
    (second : target.LinesUp otherLeaves otherFragments otherBinds) :
    target.LinesUp (leaves ++ otherLeaves) (fragments ++ otherFragments) (binds ++ otherBinds) := by
  constructor
  · rw [Fragment.listSides_append, listOperands, List.flatMap_append]
    exact List.rel_append first.sides second.sides
  · rw [first.binds, second.binds, List.flatMap_append]
  · rw [List.forall_mem_append]
    exact ⟨first.leafBinds, second.leafBinds⟩

theorem linesUp_compileLeaf
    {target : Target}
    {leaf : Leaf}
    {fragment : Fragment}
    (compiled : (target.compileLeaf leaf).result = .ok fragment) :
    target.LinesUp [leaf] [fragment] (target.compileLeaf leaf).binds := by
  rw [Target.compileLeaf, Target.column] at compiled
  cases found : target.catalog.resolvePath? target.key leaf.path with
  | none => simp [found, result] at compiled
  | some resolved =>
      simp only [found] at compiled
      have onColumn : target.compileLeaf leaf =
          compileOnColumn target.backend leaf resolved.column resolved.attr.searchType := by
        rw [Target.compileLeaf, Target.column, found]
      have linesUp := linesUp_compileOnColumn compiled
      rw [← onColumn] at linesUp
      constructor
      · rw [Fragment.listSides, Fragment.listSides, List.append_nil, listOperands,
          List.flatMap_singleton, List.forall₂_map_right_iff]
        exact linesUp.sides.imp fun side value meets => ⟨resolved, found, meets⟩
      · exact (List.flatMap_singleton _ _).symm
      · rw [List.forall_mem_singleton]
        exact linesUp.binds

theorem binds_compileNode_leaf
    {target : Target}
    {parenthesized : Bool}
    {leaf : Leaf}
    {fragment : Fragment}
    (compiled : (target.compileLeaf leaf).result = .ok fragment) :
    (target.compileNode parenthesized (.leaf leaf)).binds = (target.compileLeaf leaf).binds := by
  rw [Target.compileNode, binds_bind fun _ => appends_pure _, compiled]
  exact List.append_nil _

theorem binds_compileNode_group
    {target : Target}
    {parenthesized : Bool}
    {combinator : Combinator}
    {members : List Node}
    {fragments : List Fragment}
    (compiled : (target.compileMembers members).result = .ok fragments) :
    (target.compileNode parenthesized (.group combinator members)).binds =
      (target.compileMembers members).binds := by
  rw [Target.compileNode, binds_bind fun _ => appends_pure _, compiled]
  exact List.append_nil _

theorem binds_compileMembers_cons
    {target : Target}
    {node : Node}
    {nodes : List Node}
    {fragment? : Option Fragment}
    {fragments : List Fragment}
    (first : (target.compileNode true node).result = .ok fragment?)
    (rest : (target.compileMembers nodes).result = .ok fragments) :
    (target.compileMembers (node :: nodes)).binds =
      (target.compileNode true node).binds ++ (target.compileMembers nodes).binds := by
  rw [Target.compileMembers, binds_bind fun _ =>
    (appends_compileMembers target nodes).bind fun _ => appends_pure _, first]
  simp only
  rw [binds_bind fun _ => appends_pure _, rest]
  exact congrArg _ (List.append_nil _)

/-- The placeholders of a group are those of its members, and a group without members has none. -/
theorem listSides_groupFragment?
    (combinator : Combinator)
    (parenthesized : Bool)
    (fragments : List Fragment) :
    Fragment.listSides (groupFragment? combinator parenthesized fragments).toList none =
      Fragment.listSides fragments none := by
  cases fragments with
  | nil => rfl
  | cons fragment fragments => exact List.append_nil _

mutual

/-- A tree binds the values of its leaves in the order of their placeholders. -/
theorem linesUp_compileNode
    {target : Target}
    {parenthesized : Bool}
    (node : Node)
    {fragment? : Option Fragment}
    (compiled : (target.compileNode parenthesized node).result = .ok fragment?) :
    target.LinesUp node.leaves fragment?.toList (target.compileNode parenthesized node).binds := by
  cases node with
  | leaf content =>
      rcases result_compileNode_leaf_eq_ok compiled with ⟨fragment, outcome, rfl⟩
      rw [binds_compileNode_leaf outcome]
      exact linesUp_compileLeaf outcome
  | group combinator members =>
      rcases result_compileNode_group_eq_ok compiled with ⟨fragments, outcome, rfl⟩
      have linesUp := linesUp_compileMembers members outcome
      rw [binds_compileNode_group outcome]
      refine ⟨?_, linesUp.binds, linesUp.leafBinds⟩
      rw [listSides_groupFragment?]
      exact linesUp.sides

theorem linesUp_compileMembers
    {target : Target}
    (nodes : List Node)
    {fragments : List Fragment}
    (compiled : (target.compileMembers nodes).result = .ok fragments) :
    target.LinesUp (Node.listLeaves nodes) fragments (target.compileMembers nodes).binds := by
  cases nodes with
  | nil =>
      cases compiled
      exact target.linesUp_nil
  | cons node nodes =>
      rcases result_compileMembers_cons_eq_ok compiled with
        ⟨fragment?, others, first, rest, rfl⟩
      rw [binds_compileMembers_cons first rest]
      exact (linesUp_compileNode node first).append (linesUp_compileMembers nodes rest)

end

/-! ## The extent of a result -/

theorem toInt_of_toInt64?
    {value : Int}
    {count : Int64}
    (fits : Text.toInt64? value = some count) :
    count.toInt = value := by
  rw [Text.toInt64?] at fits
  split at fits
  · next range =>
      cases fits
      rw [Int64.toInt_minValue, Int64.toInt_maxValue] at range
      exact Int64.toInt_ofInt_of_le range.1 (by omega)
  · cases fits

/-- A number of rows is bound in front of what follows. -/
theorem exists_count_of_bindCount
    {what clause : String}
    {value : UInt64}
    {following : Compiling String}
    (appends : Appends following)
    (outcome : (bindCount what value >>= fun _ => following).result = .ok clause) :
    ∃ count : Int64,
      count.toInt = (value.toNat : Int) ∧
      following.result = .ok clause ∧
      (bindCount what value >>= fun _ => following).binds = .integer count :: following.binds := by
  rw [result_bind fun _ => appends] at outcome
  rw [binds_bind fun _ => appends]
  rw [bindCount] at outcome ⊢
  split at outcome
  · next count fits => exact ⟨count, toInt_of_toInt64? fits, outcome, rfl⟩
  · cases outcome

/-- A single number of rows is bound to a single placeholder. -/
theorem counts_of_bindCount
    {what text clause : String}
    {value : UInt64}
    (single : placeholderCount text = 1)
    (limited : (bindCount what value >>= fun _ => pure text).result = .ok clause) :
    ∃ counts : List Int64,
      (bindCount what value >>= fun _ => (pure text : Compiling String)).binds =
        counts.map Scalar.integer ∧
      counts.map Int64.toInt = [(value.toNat : Int)] ∧
      placeholderCount clause = counts.length := by
  rcases exists_count_of_bindCount (appends_pure _) limited with
    ⟨count, exact, printed, binds⟩
  cases printed
  exact ⟨[count], binds, congrArg (fun number => [number]) exact, single⟩

/-- The extent binds the limit before the offset, each to its placeholder. -/
theorem counts_of_limitClause
    {backend : Backend}
    {constraints : Constraints}
    {clause : String}
    (limited : (limitClause backend constraints).result = .ok clause) :
    ∃ counts : List Int64,
      (limitClause backend constraints).binds = counts.map Scalar.integer ∧
      counts.map Int64.toInt =
        (constraints.limit.toList ++ constraints.offset.toList).map
          (fun value => (value.toNat : Int)) ∧
      placeholderCount clause = counts.length := by
  rcases constraints with ⟨orderBy, sortOrder, limit, offset⟩
  cases limit with
  | none =>
      cases offset with
      | none =>
          cases limited
          exact ⟨[], rfl, rfl, rfl⟩
      | some offset =>
          cases backend with
          | postgres => exact counts_of_bindCount rfl limited
          | sqlite => exact counts_of_bindCount rfl limited
  | some limit =>
      cases offset with
      | none => exact counts_of_bindCount rfl limited
      | some offset =>
          rcases exists_count_of_bindCount
              ((appends_bindCount "offset" offset).bind fun _ => appends_pure _) limited with
            ⟨limitCount, limitExact, rest, limitBinds⟩
          rcases exists_count_of_bindCount (appends_pure _) rest with
            ⟨offsetCount, offsetExact, printed, offsetBinds⟩
          cases printed
          refine ⟨[limitCount, offsetCount], ?_, ?_, rfl⟩
          · exact limitBinds.trans (congrArg _ offsetBinds)
          · simp [limitExact, offsetExact]

/-! ## Queries -/

/--
Placeholders and values line up.

If no column has a question mark in its name, a query has as many placeholders in
its condition and its extent as values bound to it.  The values are those that the
leaves bind on their own, from left to right, followed by the limit and the offset
where these are given.  Every placeholder of the condition meets the value at its
position: a date of which segments are open is compared with exactly its segments
of the column of its leaf, and any other value with the column itself.
-/
theorem placeholders_line_up
    {backend : Backend}
    {catalog : Catalog}
    {key : String}
    (plain : ∀ path resolved,
      catalog.resolvePath? key path = some resolved → '?' ∉ resolved.column.toList)
    {node : Node}
    {constraints : Constraints}
    {compiled : Compiled}
    (compiles : compile backend catalog key node constraints = .ok compiled) :
    placeholderCount (compiled.whereClause ++ compiled.limitClause) = compiled.binds.length ∧
    (∃ counts : List Int64,
      compiled.binds =
        (node.leaves.flatMap fun leaf =>
          (Target.compileLeaf ⟨backend, catalog, key⟩ leaf).binds) ++
          counts.map Scalar.integer ∧
      counts.map Int64.toInt =
        (constraints.limit.toList ++ constraints.offset.toList).map
          fun value => (value.toNat : Int)) ∧
    (∀ leaf ∈ node.leaves,
      (Target.compileLeaf ⟨backend, catalog, key⟩ leaf).binds =
        (operands leaf.value).map (boundOperand backend leaf.operator)) ∧
    ∃ fragment?,
      (Target.compileNode ⟨backend, catalog, key⟩ false node).result = .ok fragment? ∧
      compiled.whereClause = conditionText backend fragment? ∧
      List.Forall₂ (Target.Meets ⟨backend, catalog, key⟩)
        (Fragment.listSides fragment?.toList none) (listOperands node.leaves) := by
  rcases parts_of_compile compiles with ⟨fragment?, outcome, condition, _, limited, binds⟩
  have linesUp := linesUp_compileNode node outcome
  rcases counts_of_limitClause limited with ⟨counts, extentBinds, exact, extentCount⟩
  have conditionCount :
      placeholderCount compiled.whereClause =
        (Fragment.listSides fragment?.toList none).length := by
    rw [condition]
    cases fragment? with
    | none => rfl
    | some fragment =>
        rw [Option.toList_some, Fragment.listSides, Fragment.listSides, List.append_nil]
        apply placeholderCount_sql
        intro column isNamed
        rcases searches_of_compileNode node outcome column isNamed with
          ⟨path, resolved, found, rfl⟩
        exact List.count_eq_zero.mpr (plain path resolved found)
  have leafBindsCount :
      (listOperands node.leaves).length =
        (Target.compileNode ⟨backend, catalog, key⟩ false node).binds.length := by
    rw [linesUp.binds, listOperands, List.length_flatMap, List.length_flatMap]
    congr 1
    apply List.map_congr_left
    intro leaf isLeaf
    rw [linesUp.leafBinds leaf isLeaf, List.length_map, List.length_map]
  refine ⟨?_, ⟨counts, ?_, exact⟩, linesUp.leafBinds, fragment?, outcome, condition,
    linesUp.sides⟩
  · rw [placeholderCount_append, conditionCount, linesUp.sides.length_eq, leafBindsCount,
      extentCount, binds, extentBinds, List.length_append, List.length_map]
  · rw [binds, extentBinds, linesUp.binds]

/-- Books with a title of some form that were printed in one of two years or in a January. -/
def reprinted : Node :=
  .group .all
    [.leaf ⟨"title", .compare .regex, false, .scalar (.string "^a")⟩,
      .group .any [],
      .leaf ⟨"printed", .any, true,
        .list
          [.date ⟨some 1816, none, none, none, none, none⟩,
            .date ⟨none, some 1, none, none, none, none⟩,
            .date ⟨some 1818, none, none, none, none, none⟩]⟩]

/-- Of interleaved years and months the years are bound first, and the offset comes last. -/
theorem reprinted_lines_up_on_library :
    ∃ catalog compiled,
      Catalog.build library = .ok catalog ∧
      compile .sqlite catalog "book" reprinted ⟨[], [], none, some 5⟩ = .ok compiled ∧
      compiled.binds =
        [.string "(?i)^a", .string "1816", .string "1818", .string "01", .integer 5] ∧
      placeholderCount (compiled.whereClause ++ compiled.limitClause) = 5 := by
  rcases exists_wellNamed_library with ⟨catalog, built, wellNamed, columns⟩
  have checked : (match Catalog.build library with
      | .ok catalog =>
          match compile .sqlite catalog "book" reprinted ⟨[], [], none, some 5⟩ with
          | .ok compiled =>
              compiled.binds ==
                [.string "(?i)^a", .string "1816", .string "1818", .string "01", .integer 5]
          | .error _ => false
      | .error _ => false) = true := by
    decide +kernel
  simp only [built] at checked
  have plain : ∀ path resolved,
      catalog.resolvePath? "book" path = some resolved → '?' ∉ resolved.column.toList := by
    intro path resolved found
    have isColumn := (wellNamed.exists_resolvePath?_iff "book" resolved.column).mp
      ⟨path, resolved, found, rfl⟩
    have each : ∀ column ∈ catalog.viewColumns "book", '?' ∉ column.toList := by
      rw [columns]
      decide
    exact each resolved.column isColumn
  split at checked
  · next compiled compiles =>
      have binds := eq_of_beq checked
      refine ⟨catalog, compiled, built, compiles, binds, ?_⟩
      rw [(placeholders_line_up plain compiles).1, binds]
      rfl
  · cases checked

end ClassStore.Query
