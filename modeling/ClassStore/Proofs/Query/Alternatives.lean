import ClassStore.Proofs.Query.Evaluation
import ClassStore.Proofs.Query.Placeholders

/-!
# Alternatives and ranges

ANY and BETWEEN can be done without.  A leaf with ANY is compiled into a condition
that holds of the same rows as the group of a leaf with EQ for each of its values,
combined by OR, or by AND if the leaf is negated.  The values are bound in another
order only where dates with different segments are grouped.  A leaf with BETWEEN is
compiled if the two leaves with GE and LE are, and holds of the same rows as both of
them together.

A value is compared with one side of its own, which is the column or some segments
of it, whatever the operator is.  So each operator is described by what it makes of
that side and of the bound value.
-/

namespace ClassStore.Query

open ClassStore.Catalog
open ClassStore.Date
open ClassStore.Search
open Compiling

/-- Whatever is bound before, the computation succeeds and binds the values behind it. -/
def Compiles {Output : Type} (computation : Compiling Output) (output : Output)
    (values : List Scalar) : Prop :=
  ∀ earlier, computation.runOn earlier = (.ok output, earlier ++ values)

theorem Compiles.unique
    {Output : Type}
    {computation : Compiling Output}
    {left right : Output}
    {leftBinds rightBinds : List Scalar}
    (leftCompiles : Compiles computation left leftBinds)
    (rightCompiles : Compiles computation right rightBinds) :
    left = right ∧ leftBinds = rightBinds := by
  have same := (leftCompiles []).symm.trans (rightCompiles [])
  simpa using same

/-- How the alternatives of a leaf are combined. -/
def alternation (negated : Bool) : Combinator :=
  if negated then .all else .any

/-! ## What a value is compared with -/

/-- What a value is compared with: the column, or the segments that a date has. -/
def comparedSide (column : String) (type : SemanticType) : Scalar → Fragment
  | .date date =>
      if date.isComplete then .column column false else .datePart column date.segments
  | value => .column column (foldsCase type value)

theorem isSubject_comparedSide (column : String) (type : SemanticType) (value : Scalar) :
    (comparedSide column type value).IsSubject := by
  cases value with
  | date date =>
      rw [comparedSide]
      split <;> trivial
  | _ => trivial

theorem comparedSide_of_plain
    (column : String)
    (type : SemanticType)
    {value : Scalar}
    (plain : value.variant ≠ .date) :
    comparedSide column type value = .column column (foldsCase type value) := by
  cases value with
  | date date => exact absurd rfl plain
  | _ => rfl

theorem foldsCase_date (type : SemanticType) (date : PartialDate) :
    foldsCase type (.date date) = false := by
  simp [foldsCase, Scalar.variant, Scalar.kind, ScalarKind.variant]

/-- Values of one variant are folded alike. -/
theorem foldsCase_eq_of_variant_eq
    (type : SemanticType)
    {left right : Scalar}
    (alike : left.variant = right.variant) :
    foldsCase type left = foldsCase type right := by
  rw [foldsCase, foldsCase, alike]

/-- Values of one kind are compared with one side. -/
theorem comparedSide_congr
    (column : String)
    (type : SemanticType)
    {left right : Scalar}
    (alike : left.kind = right.kind) :
    comparedSide column type left = comparedSide column type right ∧
      foldsCase type left = foldsCase type right := by
  have sameVariant : left.variant = right.variant := congrArg ScalarKind.variant alike
  have sameFold := foldsCase_eq_of_variant_eq type sameVariant
  refine ⟨?_, sameFold⟩
  by_cases dated : left.variant = .date
  · obtain ⟨leftDate, rightDate, rfl, rfl, sameSegments⟩ := exists_dates_of_kind_eq alike dated
    rw [comparedSide, comparedSide, PartialDate.isComplete, PartialDate.isComplete, sameSegments]
  · have rightPlain : right.variant ≠ .date := by rwa [← sameVariant]
    rw [comparedSide_of_plain column type dated, comparedSide_of_plain column type rightPlain,
      sameFold]

/-- The value is bound alike for every comparison that takes dates. -/
theorem comparedValue_eq
    (backend : Backend)
    {comparison : Comparison}
    (literal : comparison ≠ .regex)
    {value : Scalar}
    (plain : value.variant ≠ .date) :
    comparedValue backend comparison value = boundOperand backend .any value := by
  cases backend <;> cases comparison <;> cases value <;>
    first | rfl | exact absurd rfl literal | exact absurd rfl plain

/-! ## Comparisons -/

/-- A value that can be compared is compared with its side. -/
theorem compiles_compileComparison
    (backend : Backend)
    (leaf : Leaf)
    (column : String)
    (type : SemanticType)
    {comparison : Comparison}
    {value : Scalar}
    (literal : comparison ≠ .like ∧ comparison ≠ .regex)
    (ordered : comparison.isOrdering = true → isOrderable value = true) :
    Compiles (compileComparison backend leaf column type comparison value)
      (.compare (comparedSide column type value) (.ofComparison comparison leaf.negated)
        (.placeholder (foldsCase type value)))
      [boundOperand backend .any value] := by
  intro earlier
  by_cases dated : value.variant = .date
  · obtain ⟨date, rfl⟩ := exists_date_of_variant dated
    have noPattern : ¬(comparison = .like ∨ comparison = .regex) := by
      simpa [not_or] using literal
    change (compileDateComparison backend leaf column comparison date).runOn earlier = _
    rw [run_compileDateComparison, if_neg noPattern, foldsCase_date, comparedSide, boundOperand]
    cases complete : date.isComplete with
    | true => simp
    | false =>
        have inOrder : (comparison.isOrdering && !date.segments.isContiguous) = false := by
          cases ordering : comparison.isOrdering with
          | false => rfl
          | true => simpa [isOrderable, complete] using ordered ordering
        simp [inOrder]
  · have exact' : (comparison != .regex) = true := by simpa using literal.2
    rw [run_compileComparison backend leaf column type comparison dated, exact', Bool.and_true,
      comparedSide_of_plain column type dated, comparedValue_eq backend literal.2 dated]

/-- A date whose segments do not form one run is not ordered. -/
theorem not_compiles_compileComparison
    (backend : Backend)
    (leaf : Leaf)
    (column : String)
    (type : SemanticType)
    {comparison : Comparison}
    {value : Scalar}
    (ordering : comparison.isOrdering = true)
    (broken : isOrderable value = false)
    (fragment : Fragment)
    (values : List Scalar) :
    ¬Compiles (compileComparison backend leaf column type comparison value) fragment values := by
  intro compiles
  have outcome := compiles []
  cases value with
  | date date =>
      change (compileDateComparison backend leaf column comparison date).runOn [] = _ at outcome
      simp only [isOrderable, Bool.or_eq_false_iff] at broken
      rw [run_compileDateComparison] at outcome
      split at outcome
      · cases outcome
      · simp [broken, ordering] at outcome
  | _ => cases broken

/-! ## Ranges -/

/-- Bounds of one kind that can be ordered are compared with the side of the lower one. -/
theorem compiles_compileBetween
    (backend : Backend)
    (leaf : Leaf)
    (column : String)
    (type : SemanticType)
    {low high : Scalar}
    (alike : low.kind = high.kind)
    (orderable : isOrderable low = true) :
    Compiles (compileBetween backend leaf column type low high)
      (.between (comparedSide column type low) (.placeholder (foldsCase type low))
        (.placeholder (foldsCase type low)) leaf.negated)
      [boundOperand backend .any low, boundOperand backend .any high] := by
  intro earlier
  by_cases dated : low.variant = .date
  · obtain ⟨lowDate, highDate, rfl, rfl, sameSegments⟩ := exists_dates_of_kind_eq alike dated
    have sameCompleteness : highDate.isComplete = lowDate.isComplete := by
      rw [PartialDate.isComplete, PartialDate.isComplete, sameSegments]
    rw [run_compileBetween_dates backend leaf column type sameSegments, foldsCase_date,
      comparedSide, boundOperand, boundOperand, sameCompleteness]
    cases complete : lowDate.isComplete with
    | true => simp [run_compilePlainBetween, foldsCase_date]
    | false =>
        have contiguous : lowDate.segments.isContiguous = true := by
          simpa [isOrderable, complete] using orderable
        simp [run_compileDateBetween, contiguous]
  · have highPlain : high.variant ≠ .date := by rwa [Scalar.variant, ← alike]
    rw [run_compileBetween_plain backend leaf column type alike dated, run_compilePlainBetween,
      comparedSide_of_plain column type dated, (boundOperand_of_plain backend dated).2.2,
      (boundOperand_of_plain backend highPlain).2.2]

/-- Dates of which the segments do not form one run are no bounds. -/
theorem not_compiles_compileBetween
    (backend : Backend)
    (leaf : Leaf)
    (column : String)
    (type : SemanticType)
    {low high : Scalar}
    (alike : low.kind = high.kind)
    (broken : isOrderable low = false)
    (fragment : Fragment)
    (values : List Scalar) :
    ¬Compiles (compileBetween backend leaf column type low high) fragment values := by
  intro compiles
  have outcome := compiles []
  cases low with
  | date lowDate =>
      obtain ⟨_, highDate, ⟨⟩, rfl, sameSegments⟩ := exists_dates_of_kind_eq alike rfl
      simp only [isOrderable, Bool.or_eq_false_iff] at broken
      rw [run_compileBetween_dates backend leaf column type sameSegments] at outcome
      simp [broken, run_compileDateBetween] at outcome
  | _ => cases broken

/-! ## Truth of comparisons -/

section

variable {Datum : Type} (meaning : Interpretation Datum) (row : String → Option Datum)
  (bind : Scalar → Option Datum) (backend : Backend) (column : String) (type : SemanticType)

/-- Whether a comparison holds between the side of a value and the value as it is bound. -/
def valueTruth (comparison : SqlComparison) (value : Scalar) : Truth :=
  comparison.truth meaning ((comparedSide column type value).subjectValue meaning row)
    (meaning.fold (foldsCase type value) (bind (boundOperand backend .any value)))

/-- What a comparison with a value is compiled into. -/
def comparisonFragment (negated : Bool) (item : Comparison × Scalar) : Fragment :=
  .compare (comparedSide column type item.2) (.ofComparison item.1 negated)
    (.placeholder (foldsCase type item.2))

/-- Each of some comparisons takes its own value. -/
theorem truths_comparisonFragments
    (negated : Bool)
    (items : List (Comparison × Scalar))
    (rest : List (Option Datum)) :
    Fragment.truths meaning row (items.map (comparisonFragment column type negated))
        ((items.map fun item => boundOperand backend .any item.2).map bind ++ rest) =
      (items.map fun item =>
        valueTruth meaning row bind backend column type (.ofComparison item.1 negated) item.2,
        rest) := by
  induction items with
  | nil => rfl
  | cons item items inductionHypothesis =>
      simp only [List.map_cons, List.cons_append, Fragment.truths, comparisonFragment,
        Fragment.truth_compare_placeholder meaning row
          (isSubject_comparedSide column type item.2)]
      rw [inductionHypothesis]
      rfl

/-- To be among some values is to equal one of them, and not to be is to differ from all. -/
theorem truth_among_of_side
    (negated : Bool)
    {subject : Fragment}
    {folded : Bool}
    {values : List Scalar}
    (side : ∀ value ∈ values,
      comparedSide column type value = subject ∧ foldsCase type value = folded)
    (isSubject : subject.IsSubject)
    (rest : List (Option Datum)) :
    (Fragment.among subject (placeholders values.length folded) negated).truth meaning row
        ((values.map (boundOperand backend .any)).map bind ++ rest) =
      (.combine (alternation negated) (values.map
        (valueTruth meaning row bind backend column type (.ofComparison .eq negated))),
        rest) := by
  have count : values.length = ((values.map (boundOperand backend .any)).map bind).length := by
    rw [List.length_map, List.length_map]
  have equal :
      ((values.map (boundOperand backend .any)).map bind).map
          (fun value => SqlComparison.eq.truth meaning (subject.subjectValue meaning row)
            (meaning.fold folded value)) =
        values.map (valueTruth meaning row bind backend column type .eq) := by
    rw [List.map_map, List.map_map]
    apply List.map_congr_left
    intro value isMember
    obtain ⟨sameSide, sameFold⟩ := side value isMember
    rw [valueTruth, sameSide, sameFold]
    rfl
  rw [count, Fragment.truth_among_placeholders meaning row isSubject, equal]
  cases negated with
  | false => rfl
  | true =>
      have differs :
          valueTruth meaning row bind backend column type (.ofComparison .eq true) =
            Truth.negate ∘ valueTruth meaning row bind backend column type .eq := by
        funext value
        exact SqlComparison.truth_ofComparison_not meaning .eq false _ _
      rw [Truth.negateIf, if_pos rfl, Truth.negate_combine, differs, List.map_map]
      rfl

/-- The condition made of some groups of dates is the group of their conditions. -/
theorem truth_anyDateFragment
    (leaf : Leaf)
    (fragments : List Fragment)
    (values : List (Option Datum)) :
    (anyDateFragment leaf fragments).truth meaning row values =
      (.combine (alternation leaf.negated) (Fragment.truths meaning row fragments values).1,
        (Fragment.truths meaning row fragments values).2) := by
  rcases fragments with _ | ⟨fragment, _ | ⟨following, fragments⟩⟩
  · rfl
  · simp [anyDateFragment, Fragment.truths, Truth.combine_singleton]
  · rfl

/-- The dates of a group are compared with the segments that the group has. -/
theorem side_of_dateGroup
    {group : SegmentSet × List PartialDate}
    (alike : ∀ date ∈ group.2, date.segments = group.1) :
    ∀ value ∈ group.2.map Scalar.date,
      comparedSide column type value =
          (if group.1 = SegmentSet.full then .column column false
            else .datePart column group.1) ∧
        foldsCase type value = false := by
  intro value isDate
  obtain ⟨date, isMember, rfl⟩ := List.mem_map.mp isDate
  refine ⟨?_, foldsCase_date type date⟩
  simp [comparedSide, PartialDate.isComplete, alike date isMember]

/-- Each group of dates takes the values of its own dates. -/
theorem truths_dateGroups
    (leaf : Leaf)
    {groups : List (SegmentSet × List PartialDate)}
    (alike : ∀ group ∈ groups, ∀ date ∈ group.2, date.segments = group.1)
    (rest : List (Option Datum)) :
    Fragment.truths meaning row (groups.map (dateGroupFragment leaf column))
        ((groups.flatMap (dateGroupBinds backend)).map bind ++ rest) =
      (groups.map fun group =>
        .combine (alternation leaf.negated) ((group.2.map Scalar.date).map
          (valueTruth meaning row bind backend column type (.ofComparison .eq leaf.negated))),
        rest) := by
  induction groups with
  | nil => rfl
  | cons group groups inductionHypothesis =>
      rw [List.forall_mem_cons] at alike
      have isSubject :
          (if group.1 = SegmentSet.full then Fragment.column column false
            else .datePart column group.1).IsSubject := by
        split <;> trivial
      have count : group.2.length = (group.2.map Scalar.date).length := by rw [List.length_map]
      have first :=
        truth_among_of_side meaning row bind backend column type leaf.negated
          (side_of_dateGroup column type alike.1) isSubject
          ((groups.flatMap (dateGroupBinds backend)).map bind ++ rest)
      rw [← dateGroupBinds_eq backend alike.1, ← count, ← dateGroupFragment] at first
      rw [List.map_cons, List.flatMap_cons, List.map_append, List.append_assoc,
        Fragment.truths]
      simp only [first, inductionHypothesis alike.2]
      rfl

end

/-! ## Alternatives -/

/--
The condition means the group of the comparisons with each of the values.

The values are bound to it in some order, and of every row it holds if the comparisons
do, as they are combined.
-/
def MeansAlternatives (backend : Backend) (column : String) (type : SemanticType)
    (negated : Bool) (values : List Scalar) (single : Fragment) (binds : List Scalar) : Prop :=
  binds.Perm (values.map (boundOperand backend .any)) ∧
    ∀ (Datum : Type) (meaning : Interpretation Datum) (row : String → Option Datum)
      (bind : Scalar → Option Datum),
      (single.truth meaning row (binds.map bind)).1 =
        .combine (alternation negated) (values.map
          (valueTruth meaning row bind backend column type (.ofComparison .eq negated)))

/-- Dates are grouped, and the groups have the meaning of the dates. -/
theorem exists_compileAnyDate
    (backend : Backend)
    (leaf : Leaf)
    (column : String)
    (type : SemanticType)
    (dates : List PartialDate) :
    ∃ single binds,
      Compiles (compileAnyDate backend leaf column dates) single binds ∧
        MeansAlternatives backend column type leaf.negated (dates.map .date) single binds := by
  have alike : ∀ group ∈ groupBySegments dates, ∀ date ∈ group.2, date.segments = group.1 :=
    fun _ => segments_eq_of_mem_groupBySegments
  have permuted := (groupBySegments_perm dates).map Scalar.date
  refine ⟨_, _, run_compileAnyDate backend leaf column dates, ?_, ?_⟩
  · rw [(meets_dateGroups backend leaf column alike).2]
    exact permuted.map _
  · intro Datum meaning row bind
    have truths := truths_dateGroups meaning row bind backend column type leaf alike []
    rw [List.append_nil] at truths
    rw [truth_anyDateFragment, truths, ← Truth.combine_flatMap, ← List.map_flatMap,
      ← List.map_flatMap]
    exact Truth.combine_perm _ (permuted.map _)

/-- Values of one variant other than dates are compared in one list. -/
theorem exists_compileAny_plain
    (backend : Backend)
    (leaf : Leaf)
    (column : String)
    (type : SemanticType)
    {first : Scalar}
    {values : List Scalar}
    (plain : first.variant ≠ .date)
    (alike : ∀ value ∈ first :: values, value.variant = first.variant) :
    ∃ single binds,
      Compiles (compileAny backend leaf column type (first :: values)) single binds ∧
        MeansAlternatives backend column type leaf.negated (first :: values) single binds := by
  have undated : allDates? (first :: values) = none := by
    cases first with
    | date date => exact absurd rfl plain
    | _ => rfl
  have uniform : findOdd? first (first :: values) = none := findOdd?_eq_none_iff.mpr alike
  have bound :
      (first :: values).map (boundValue backend) =
        (first :: values).map (boundOperand backend .any) := by
    apply List.map_congr_left
    intro value isMember
    have valuePlain : value.variant ≠ .date := by rwa [alike value isMember]
    exact (boundOperand_of_plain backend valuePlain).2.2.symm
  have side : ∀ value ∈ first :: values,
      comparedSide column type value = .column column (foldsCase type first) ∧
        foldsCase type value = foldsCase type first := by
    intro value isMember
    have sameFold := foldsCase_eq_of_variant_eq type (alike value isMember)
    have valuePlain : value.variant ≠ .date := by rwa [alike value isMember]
    exact ⟨by rw [comparedSide_of_plain column type valuePlain, sameFold], sameFold⟩
  refine ⟨.among (.column column (foldsCase type first))
    (placeholders (first :: values).length (foldsCase type first)) leaf.negated,
    (first :: values).map (boundOperand backend .any), ?_, .refl _, ?_⟩
  · intro earlier
    rw [run_compileAny, undated, uniform, ← bound]
  · intro Datum meaning row bind
    have truth :=
      truth_among_of_side meaning row bind backend column type leaf.negated side trivial []
    rw [List.append_nil] at truth
    rw [truth]

theorem exists_compileAny
    (backend : Backend)
    (leaf : Leaf)
    (column : String)
    (type : SemanticType)
    {variant : ScalarVariant}
    {values : List Scalar}
    (nonempty : values ≠ [])
    (alike : ∀ value ∈ values, value.variant = variant) :
    ∃ single binds,
      Compiles (compileAny backend leaf column type values) single binds ∧
        MeansAlternatives backend column type leaf.negated values single binds := by
  cases values with
  | nil => exact absurd rfl nonempty
  | cons first values =>
      have sameAsFirst : ∀ value ∈ first :: values, value.variant = first.variant := by
        intro value isMember
        rw [alike value isMember, alike first List.mem_cons_self]
      by_cases dated : first.variant = .date
      · have allDated : ∀ value ∈ first :: values, value.variant = .date := by
          intro value isMember
          rw [sameAsFirst value isMember, dated]
        obtain ⟨dates, all⟩ := exists_allDates?_eq_some allDated
        obtain ⟨single, binds, compiles, means⟩ :=
          exists_compileAnyDate backend leaf column type dates
        refine ⟨single, binds, fun earlier => ?_, ?_⟩
        · rw [run_compileAny, all]
          exact compiles earlier
        · rw [eq_map_of_allDates? all]
          exact means
      · exact exists_compileAny_plain backend leaf column type dated sameAsFirst

/-! ## Groups of comparisons -/

/-- The leaf that compares a path with one value. -/
def comparisonLeaf (path : String) (negated : Bool) (item : Comparison × Scalar) : Leaf :=
  ⟨path, .compare item.1, negated, .scalar item.2⟩

section

variable {target : Target} {path column : String} {type : SemanticType}
  (found : target.column path = .ok (column, type))

include found

theorem compileLeaf_of_column
    (operator : Operator)
    (negated : Bool)
    (value : Value) :
    target.compileLeaf ⟨path, operator, negated, value⟩ =
      compileOnColumn target.backend ⟨path, operator, negated, value⟩ column type := by
  rw [Target.compileLeaf, found]

theorem compiles_comparisonLeaf
    (negated : Bool)
    {comparison : Comparison}
    {value : Scalar}
    (literal : comparison ≠ .like ∧ comparison ≠ .regex)
    (ordered : comparison.isOrdering = true → isOrderable value = true) :
    Compiles (target.compileLeaf ⟨path, .compare comparison, negated, .scalar value⟩)
      (comparisonFragment column type negated (comparison, value))
      [boundOperand target.backend .any value] := by
  rw [compileLeaf_of_column found]
  exact compiles_compileComparison target.backend _ column type literal ordered

theorem compiles_comparisonLeaves
    (negated : Bool)
    {items : List (Comparison × Scalar)}
    (literal : ∀ item ∈ items, item.1 ≠ .like ∧ item.1 ≠ .regex)
    (ordered : ∀ item ∈ items, item.1.isOrdering = true → isOrderable item.2 = true) :
    Compiles
      (target.compileMembers (items.map fun item => .leaf (comparisonLeaf path negated item)))
      (items.map (comparisonFragment column type negated))
      (items.map fun item => boundOperand target.backend .any item.2) := by
  induction items with
  | nil =>
      intro earlier
      rw [List.map_nil, Target.compileMembers, List.map_nil, List.map_nil, List.append_nil]
      rfl
  | cons item items inductionHypothesis =>
      rw [List.forall_mem_cons] at literal ordered
      have first : Compiles (target.compileLeaf (comparisonLeaf path negated item)) _ _ :=
        compiles_comparisonLeaf found negated literal.1 ordered.1
      have others := inductionHypothesis literal.2 ordered.2
      intro earlier
      simp only [List.map_cons, Target.compileMembers, Target.compileNode, run_bind, first earlier,
        run_pure, others (earlier ++ [boundOperand target.backend .any item.2]),
        List.append_assoc, List.singleton_append, Option.toList_some]

/-- Some leaves that compare the path are compiled into a group of their comparisons. -/
theorem compiles_comparisonGroup
    (combinator : Combinator)
    (negated : Bool)
    {items : List (Comparison × Scalar)}
    (nonempty : items ≠ [])
    (literal : ∀ item ∈ items, item.1 ≠ .like ∧ item.1 ≠ .regex)
    (ordered : ∀ item ∈ items, item.1.isOrdering = true → isOrderable item.2 = true) :
    Compiles
      (target.compileNode true
        (.group combinator (items.map fun item => .leaf (comparisonLeaf path negated item))))
      (some (.group combinator (items.map (comparisonFragment column type negated)) true))
      (items.map fun item => boundOperand target.backend .any item.2) := by
  intro earlier
  have visible : (items.map (comparisonFragment column type negated)).isEmpty = false := by
    cases items with
    | nil => exact absurd rfl nonempty
    | cons item items => rfl
  simp only [Target.compileNode, run_bind,
    compiles_comparisonLeaves found negated literal ordered earlier, visible]
  rfl

end

theorem truth_comparisonGroup
    {Datum : Type}
    (meaning : Interpretation Datum)
    (row : String → Option Datum)
    (bind : Scalar → Option Datum)
    (backend : Backend)
    (column : String)
    (type : SemanticType)
    (combinator : Combinator)
    (negated : Bool)
    (items : List (Comparison × Scalar)) :
    ((Fragment.group combinator (items.map (comparisonFragment column type negated)) true).truth
        meaning row ((items.map fun item => boundOperand backend .any item.2).map bind)).1 =
      .combine combinator (items.map fun item =>
        valueTruth meaning row bind backend column type (.ofComparison item.1 negated)
          item.2) := by
  have truths := truths_comparisonFragments meaning row bind backend column type negated items []
  rw [List.append_nil] at truths
  rw [Fragment.truth, truths]

/-! ## Derived operators -/

/-- The conditions are equally true of every row, each with its own values bound to it. -/
def SameTruth (left : Fragment) (leftBinds : List Scalar) (right : Fragment)
    (rightBinds : List Scalar) : Prop :=
  ∀ (Datum : Type) (meaning : Interpretation Datum) (row : String → Option Datum)
    (bind : Scalar → Option Datum),
    (left.truth meaning row (leftBinds.map bind)).1 =
      (right.truth meaning row (rightBinds.map bind)).1

section

variable {target : Target} {path column : String} {type : SemanticType}
  (found : target.column path = .ok (column, type))

include found

/-- A leaf with several values is compiled into what the group of its equalities means. -/
theorem exists_any_eq_group
    {values : List Scalar}
    {variant : ScalarVariant}
    (negated : Bool)
    (nonempty : values ≠ [])
    (alike : ∀ value ∈ values, value.variant = variant) :
    ∃ single binds group others,
      Compiles (target.compileLeaf ⟨path, .any, negated, .list values⟩) single binds ∧
        Compiles
          (target.compileNode true
            (.group (alternation negated)
              (values.map fun value => .leaf ⟨path, .compare .eq, negated, .scalar value⟩)))
          (some group) others ∧
        binds.Perm others ∧ SameTruth single binds group others := by
  obtain ⟨single, binds, compiles, permuted, truth⟩ :=
    exists_compileAny target.backend ⟨path, .any, negated, .list values⟩ column type nonempty
      alike
  have leaves :
      (values.map fun value => Node.leaf ⟨path, .compare .eq, negated, .scalar value⟩) =
        (values.map (Prod.mk Comparison.eq)).map fun item =>
          .leaf (comparisonLeaf path negated item) := by
    rw [List.map_map]
    rfl
  have equalities :=
    compiles_comparisonGroup found (alternation negated) negated
      (List.map_eq_nil_iff.not.mpr nonempty : values.map (Prod.mk Comparison.eq) ≠ [])
      (by simp) (by simp [Comparison.isOrdering])
  rw [← leaves] at equalities
  refine ⟨single, binds, _, _, ?_, equalities, ?_, ?_⟩
  · rw [compileLeaf_of_column found]
    exact compiles
  · rw [List.map_map]
    exact permuted
  · intro Datum meaning row bind
    rw [truth_comparisonGroup, List.map_map]
    exact truth Datum meaning row bind

/-- A range that is compiled has bounds that can be ordered. -/
theorem isOrderable_of_compiles_between
    {low high : Scalar}
    (alike : low.kind = high.kind)
    {single : Fragment}
    {binds : List Scalar}
    (compiles : Compiles (target.compileLeaf ⟨path, .between, false, .pair low high⟩) single
      binds) :
    isOrderable low = true := by
  rw [compileLeaf_of_column found] at compiles
  by_contra broken
  exact not_compiles_compileBetween target.backend _ column type alike
    (Bool.eq_false_iff.mpr broken) single binds compiles

/-- A lower bound that is compiled can be ordered. -/
theorem isOrderable_of_compiles_ge
    {low : Scalar}
    {least : Fragment}
    {binds : List Scalar}
    (compiles : Compiles (target.compileLeaf ⟨path, .compare .ge, false, .scalar low⟩) least
      binds) :
    isOrderable low = true := by
  rw [compileLeaf_of_column found] at compiles
  by_contra broken
  exact not_compiles_compileComparison target.backend _ column type rfl
    (Bool.eq_false_iff.mpr broken) least binds compiles

/-- A leaf with a range is compiled into what its two bounds mean, if it can be. -/
theorem exists_between_bounds_group
    {low high : Scalar}
    (alike : low.kind = high.kind)
    (orderable : isOrderable low = true) :
    ∃ single group,
      ∃ binds,
        Compiles (target.compileLeaf ⟨path, .between, false, .pair low high⟩) single binds ∧
        Compiles
          (target.compileNode true
            (.group .all
              [.leaf ⟨path, .compare .ge, false, .scalar low⟩,
                .leaf ⟨path, .compare .le, false, .scalar high⟩]))
          (some group) binds ∧
        SameTruth single binds group binds := by
  have range :=
    compiles_compileBetween target.backend ⟨path, .between, false, .pair low high⟩ column type
      alike orderable
  have bounds :=
    compiles_comparisonGroup found .all false
      (List.cons_ne_nil (Comparison.ge, low) [(.le, high)]) (by simp)
      (by simp [Comparison.isOrdering, orderable, ← isOrderable_congr alike])
  rw [compileLeaf_of_column found]
  refine ⟨_, _, _, range, bounds, ?_⟩
  intro Datum meaning row bind
  obtain ⟨sameSide, sameFold⟩ := comparedSide_congr column type alike
  have isSubject := isSubject_comparedSide column type low
  have groupTruth :=
    truth_comparisonGroup meaning row bind target.backend column type .all false
      [(.ge, low), (.le, high)]
  refine Eq.trans ?_ groupTruth.symm
  rw [List.map_cons, List.map_singleton,
    Fragment.truth_between_placeholders meaning row isSubject, List.map_cons,
    List.map_singleton, Truth.combine, Truth.combine_singleton, valueTruth, valueTruth,
    ← sameSide, ← sameFold]
  rfl

end

/--
ANY and BETWEEN are derived.

On a path that has a column, a leaf with ANY and values of one variant is compiled.
So is the group of a leaf with EQ for each of the values, combined by OR, or by AND if
the leaves are negated; the same values are bound to it as often, and it is equally
true of every row.  A leaf with BETWEEN and bounds of one kind is compiled exactly if
the leaves with GE and with LE are.  Then the group of these two has the same values
bound to it in the same order, and is equally true of every row.
-/
theorem any_and_between_are_derived
    {target : Target}
    {path column : String}
    {type : SemanticType}
    (found : target.column path = .ok (column, type)) :
    (∀ (values : List Scalar) (variant : ScalarVariant) (negated : Bool),
      values ≠ [] → (∀ value ∈ values, value.variant = variant) →
        ∃ single binds group others,
          Compiles (target.compileLeaf ⟨path, .any, negated, .list values⟩) single binds ∧
          Compiles
            (target.compileNode true
              (.group (if negated then .all else .any)
                (values.map fun value => .leaf ⟨path, .compare .eq, negated, .scalar value⟩)))
            (some group) others ∧
          binds.Perm others ∧ SameTruth single binds group others) ∧
    (∀ low high : Scalar, low.kind = high.kind →
      ((∃ single binds,
          Compiles (target.compileLeaf ⟨path, .between, false, .pair low high⟩) single binds) ↔
        (∃ least binds,
          Compiles (target.compileLeaf ⟨path, .compare .ge, false, .scalar low⟩) least binds) ∧
        (∃ greatest binds,
          Compiles (target.compileLeaf ⟨path, .compare .le, false, .scalar high⟩)
            greatest binds)) ∧
      ∀ single binds,
        Compiles (target.compileLeaf ⟨path, .between, false, .pair low high⟩) single binds →
          ∃ group,
            Compiles
              (target.compileNode true
                (.group .all
                  [.leaf ⟨path, .compare .ge, false, .scalar low⟩,
                    .leaf ⟨path, .compare .le, false, .scalar high⟩]))
              (some group) binds ∧
            SameTruth single binds group binds) := by
  refine ⟨fun values variant negated nonempty alike =>
    exists_any_eq_group found negated nonempty alike, fun low high alike => ⟨⟨?_, ?_⟩, ?_⟩⟩
  · rintro ⟨single, binds, compiles⟩
    have orderable := isOrderable_of_compiles_between found alike compiles
    have highOrderable : isOrderable high = true := by rwa [← isOrderable_congr alike]
    exact
      ⟨⟨_, _, compiles_comparisonLeaf found false (by simp) fun _ => orderable⟩,
        ⟨_, _, compiles_comparisonLeaf found false (by simp) fun _ => highOrderable⟩⟩
  · rintro ⟨⟨least, binds, compiles⟩, _⟩
    have orderable := isOrderable_of_compiles_ge found compiles
    obtain ⟨single, _, binds, range, _⟩ := exists_between_bounds_group found alike orderable
    exact ⟨single, binds, range⟩
  · intro single binds compiles
    have orderable := isOrderable_of_compiles_between found alike compiles
    obtain ⟨_, group, _, range, bounds, same⟩ :=
      exists_between_bounds_group found alike orderable
    obtain ⟨rfl, rfl⟩ := compiles.unique range
    exact ⟨group, bounds, same⟩

/-- Two years and a month between them. -/
def yearsAndMonth : List Scalar :=
  [.date ⟨some 1816, none, none, none, none, none⟩,
    .date ⟨none, some 1, none, none, none, none⟩,
    .date ⟨some 1818, none, none, none, none, none⟩]

/-- When books were printed can be compared with years and months at once, and with a range. -/
theorem printed_in_years_and_month :
    ∃ catalog,
      Catalog.build library = .ok catalog ∧
      Target.column ⟨.sqlite, catalog, "book"⟩ "printed" = .ok ("printed", .datetime) ∧
      (∃ single binds group others,
        Compiles
          (Target.compileLeaf ⟨.sqlite, catalog, "book"⟩
            ⟨"printed", .any, true, .list yearsAndMonth⟩) single binds ∧
        Compiles
          (Target.compileNode ⟨.sqlite, catalog, "book"⟩ true
            (.group .all
              (yearsAndMonth.map fun value =>
                .leaf ⟨"printed", .compare .eq, true, .scalar value⟩))) (some group) others ∧
        binds.Perm others ∧ SameTruth single binds group others) ∧
      ∃ single binds group,
        Compiles
          (Target.compileLeaf ⟨.sqlite, catalog, "book"⟩
            ⟨"printed", .between, false,
              .pair (.date ⟨some 1816, none, none, none, none, none⟩)
                (.date ⟨some 1818, none, none, none, none, none⟩)⟩) single binds ∧
        SameTruth single binds group binds := by
  have checked : ((Catalog.build library).toOption.any fun catalog =>
      match Target.column ⟨.sqlite, catalog, "book"⟩ "printed" with
      | .ok found => found == ("printed", .datetime)
      | .error _ => false) = true := by
    decide +kernel
  simp only [Option.any_eq_true, toOption_eq_some_iff] at checked
  obtain ⟨catalog, built, isColumn⟩ := checked
  have found :
      Target.column ⟨.sqlite, catalog, "book"⟩ "printed" = .ok ("printed", .datetime) := by
    split at isColumn
    · next column equal => rw [equal, eq_of_beq isColumn]
    · cases isColumn
  obtain ⟨alternatives, ranges⟩ := any_and_between_are_derived found
  obtain ⟨compiled, means⟩ :=
    ranges (.date ⟨some 1816, none, none, none, none, none⟩)
      (.date ⟨some 1818, none, none, none, none, none⟩) rfl
  have least :=
    compiles_comparisonLeaf found false
      (by decide : Comparison.ge ≠ .like ∧ Comparison.ge ≠ .regex)
      (fun _ => (rfl : isOrderable (.date ⟨some 1816, none, none, none, none, none⟩) = true))
  have greatest :=
    compiles_comparisonLeaf found false
      (by decide : Comparison.le ≠ .like ∧ Comparison.le ≠ .regex)
      (fun _ => (rfl : isOrderable (.date ⟨some 1818, none, none, none, none, none⟩) = true))
  obtain ⟨single, binds, range⟩ := compiled.mpr ⟨⟨_, _, least⟩, ⟨_, _, greatest⟩⟩
  obtain ⟨group, _, same⟩ := means single binds range
  exact ⟨catalog, built, found,
    alternatives yearsAndMonth .date true (List.cons_ne_nil _ _) (by decide),
    single, binds, group, range, same⟩

end ClassStore.Query
