import ClassStore.Proofs.Catalog.Columns
import ClassStore.Proofs.Query.Tree

/-!
# Values stay out of the text

Two trees are alike if they differ only in what their values contain, not in the
kinds of these values.  Whatever compilation asks of a value is answered by its
kind, so trees that are alike are compiled into the same text with equally many
values bound to it, or are refused for the same reason.  The proof goes by the
two runs side by side: `Compiling.Agrees` relates them, and a sequence of
computations that agree agrees.
-/

namespace ClassStore.Search

/-- Values that differ only in their contents. -/
inductive Value.Alike : Value → Value → Prop where
  | null : Alike .null .null
  | scalar {left right : Scalar} (kind : left.kind = right.kind) :
      Alike (.scalar left) (.scalar right)
  | pair {leftLow leftHigh rightLow rightHigh : Scalar}
      (low : leftLow.kind = rightLow.kind)
      (high : leftHigh.kind = rightHigh.kind) :
      Alike (.pair leftLow leftHigh) (.pair rightLow rightHigh)
  | list {left right : List Scalar} (kinds : left.map Scalar.kind = right.map Scalar.kind) :
      Alike (.list left) (.list right)

/-- Leaves that differ only in the contents of their values. -/
structure Leaf.Alike (left right : Leaf) : Prop where
  path : left.path = right.path
  operator : left.operator = right.operator
  negated : left.negated = right.negated
  value : left.value.Alike right.value

mutual

/-- Trees that differ only in the contents of their values. -/
inductive Node.Alike : Node → Node → Prop where
  | leaf {left right : Leaf} (alike : left.Alike right) : Alike (.leaf left) (.leaf right)
  | group (combinator : Combinator) {left right : List Node} (members : ListAlike left right) :
      Alike (.group combinator left) (.group combinator right)

/-- Lists of trees that differ only in the contents of their values. -/
inductive Node.ListAlike : List Node → List Node → Prop where
  | nil : ListAlike [] []
  | cons {left right : Node} {lefts rights : List Node}
      (first : Node.Alike left right) (rest : ListAlike lefts rights) :
      ListAlike (left :: lefts) (right :: rights)

end

/-- The segments that are defined by the dates of a kind, if it is one of dates. -/
def ScalarKind.segments? : ScalarKind → Option Date.SegmentSet
  | .date segments => some segments
  | _ => none

theorem Scalar.variant_eq_of_kind_eq
    {left right : Scalar}
    (kind : left.kind = right.kind) :
    left.variant = right.variant := by
  rw [Scalar.variant, Scalar.variant, kind]

/-- The odd value among others is found by their kinds. -/
theorem map_kind_findOdd?
    {leftFirst rightFirst : Scalar}
    (first : leftFirst.kind = rightFirst.kind)
    {left right : List Scalar}
    (kinds : left.map Scalar.kind = right.map Scalar.kind) :
    (findOdd? leftFirst left).map Scalar.kind = (findOdd? rightFirst right).map Scalar.kind := by
  have byKind : ∀ (first : Scalar) (values : List Scalar),
      (findOdd? first values).map Scalar.kind =
        (values.map Scalar.kind).find? fun kind => kind.variant != first.kind.variant := by
    intro first values
    rw [List.find?_map]
    rfl
  rw [byKind, byKind, first, kinds]

end ClassStore.Search

namespace ClassStore.Query

open ClassStore.Catalog
open ClassStore.Date
open ClassStore.Search

/-! ## Computations that agree -/

namespace Compiling

variable {Input Output : Type}

/-- Two computations have the same result and bind equally many values. -/
structure Agrees (left right : Compiling Output) : Prop where
  result : left.result = right.result
  binds : left.binds.length = right.binds.length

theorem Agrees.refl (computation : Compiling Output) : Agrees computation computation := by
  constructor <;> rfl

/-- Computations agree if they are run to the same outcome with equally many values. -/
theorem Agrees.of_run
    {left right : Compiling Output}
    {outcome : Except CompileError Output}
    {leftValues rightValues : List Scalar}
    (leftRun : left.runOn [] = (outcome, leftValues))
    (rightRun : right.runOn [] = (outcome, rightValues))
    (sameLength : leftValues.length = rightValues.length) :
    Agrees left right := by
  constructor
  · rw [Compiling.result, Compiling.result, leftRun, rightRun]
  · rw [Compiling.binds, Compiling.binds, leftRun, rightRun, sameLength]

/-- Computations agree if they are run like others that agree. -/
theorem Agrees.of_runOn_eq
    {left left' right right' : Compiling Output}
    (agrees : Agrees left' right')
    (leftRun : left.runOn [] = left'.runOn [])
    (rightRun : right.runOn [] = right'.runOn []) :
    Agrees left right := by
  rcases agrees with ⟨result, binds⟩
  constructor
  · rw [Compiling.result, Compiling.result, leftRun, rightRun]
    exact result
  · rw [Compiling.binds, Compiling.binds, leftRun, rightRun]
    exact binds

/-- Sequences agree step by step. -/
theorem Agrees.bind
    {leftFirst rightFirst : Compiling Input}
    {leftFollowing rightFollowing : Input → Compiling Output}
    (first : Agrees leftFirst rightFirst)
    (leftAppends : ∀ input, Appends (leftFollowing input))
    (rightAppends : ∀ input, Appends (rightFollowing input))
    (following : ∀ input, Agrees (leftFollowing input) (rightFollowing input)) :
    Agrees (leftFirst >>= leftFollowing) (rightFirst >>= rightFollowing) := by
  constructor
  · rw [result_bind leftAppends, result_bind rightAppends, first.result]
    cases rightFirst.result with
    | error error => rfl
    | ok input => exact (following input).result
  · rw [binds_bind leftAppends, binds_bind rightAppends, first.result]
    cases rightFirst.result with
    | error error => exact first.binds
    | ok input =>
        simp only [List.length_append]
        rw [first.binds, (following input).binds]

end Compiling

open Compiling

/-! ## What kinds decide -/

theorem isComplete_congr
    {left right : PartialDate}
    (segments : left.segments = right.segments) :
    left.isComplete = right.isComplete := by
  rw [PartialDate.isComplete, PartialDate.isComplete, segments]

theorem foldsCase_congr
    (type : SemanticType)
    {left right : Scalar}
    (kind : left.kind = right.kind) :
    foldsCase type left = foldsCase type right := by
  rw [foldsCase, foldsCase, Scalar.variant_eq_of_kind_eq kind]

theorem agrees_mismatched
    {left right : Leaf}
    (alike : left.Alike right)
    (mismatch : Mismatch) :
    Agrees (mismatched left mismatch : Compiling Fragment) (mismatched right mismatch) := by
  constructor
  · simp only [result, run_mismatched, alike.path]
  · rfl

/-! ## Groups of dates -/

/-- Counts a date in the group with the same defined segments, or begins a new group. -/
def countInGroups (segments : SegmentSet) : List (SegmentSet × Nat) → List (SegmentSet × Nat)
  | [] => [(segments, 1)]
  | (others, count) :: groups =>
      if others = segments then
        (others, count + 1) :: groups
      else
        (others, count) :: countInGroups segments groups

/-- The segments of a group and the number of its dates. -/
def groupCount (group : SegmentSet × List PartialDate) : SegmentSet × Nat :=
  (group.1, group.2.length)

theorem map_groupCount_addToGroups
    (date : PartialDate)
    (groups : List (SegmentSet × List PartialDate)) :
    (addToGroups date groups).map groupCount =
      countInGroups date.segments (groups.map groupCount) := by
  induction groups with
  | nil => rfl
  | cons group groups inductionHypothesis =>
      rcases group with ⟨segments, dates⟩
      by_cases same : segments = date.segments
      · simp [addToGroups, countInGroups, groupCount, same]
      · simp [addToGroups, countInGroups, groupCount, same, inductionHypothesis]

/-- How dates are grouped depends only on their segments. -/
theorem map_groupCount_groupBySegments (dates : List PartialDate) :
    (groupBySegments dates).map groupCount =
      (dates.map PartialDate.segments).foldl
        (fun groups segments => countInGroups segments groups) [] := by
  have general : ∀ groups : List (SegmentSet × List PartialDate),
      (dates.foldl (fun groups date => addToGroups date groups) groups).map groupCount =
        (dates.map PartialDate.segments).foldl
          (fun groups segments => countInGroups segments groups) (groups.map groupCount) := by
    induction dates with
    | nil => exact fun _ => rfl
    | cons date dates inductionHypothesis =>
        intro groups
        rw [List.foldl_cons, inductionHypothesis, map_groupCount_addToGroups, List.map_cons,
          List.foldl_cons]
  exact general []

/-- Whether all scalars are dates, and of which segments, is decided by their kinds. -/
theorem map_segments_allDates? (values : List Scalar) :
    (allDates? values).map (List.map PartialDate.segments) =
      (values.map Scalar.kind).mapM ScalarKind.segments? := by
  induction values with
  | nil => rfl
  | cons value values inductionHypothesis =>
      rw [List.map_cons, List.mapM_cons, ← inductionHypothesis]
      cases value with
      | date date =>
          cases others : allDates? values <;>
            simp [allDates?, Scalar.date?, Scalar.kind, ScalarKind.segments?, others]
      | string text => rfl
      | integer number => rfl
      | boolean truth => rfl

/-- The condition on a group of dates, of which only the segments and the number are known. -/
def countFragment (negated : Bool) (column : String) (group : SegmentSet × Nat) : Fragment :=
  .among (if group.1 = SegmentSet.full then .column column false else .datePart column group.1)
    (placeholders group.2 false) negated

theorem map_dateGroupFragment
    (leaf : Leaf)
    (column : String)
    (groups : List (SegmentSet × List PartialDate)) :
    groups.map (dateGroupFragment leaf column) =
      (groups.map groupCount).map (countFragment leaf.negated column) := by
  rw [List.map_map]
  rfl

/-- Every date of a group is bound. -/
theorem length_dateGroupBinds
    (backend : Backend)
    (group : SegmentSet × List PartialDate) :
    (dateGroupBinds backend group).length = (groupCount group).2 := by
  rw [dateGroupBinds, groupCount]
  split <;> rw [List.length_map]

theorem length_flatMap_dateGroupBinds_congr
    (backend : Backend)
    {left right : List (SegmentSet × List PartialDate)}
    (counts : left.map groupCount = right.map groupCount) :
    (left.flatMap (dateGroupBinds backend)).length =
      (right.flatMap (dateGroupBinds backend)).length := by
  have byCount : ∀ groups : List (SegmentSet × List PartialDate),
      groups.map (fun group => (dateGroupBinds backend group).length) =
        (groups.map groupCount).map Prod.snd := by
    intro groups
    rw [List.map_map]
    exact List.map_congr_left fun group _ => length_dateGroupBinds backend group
  rw [List.length_flatMap, List.length_flatMap, byCount, byCount, counts]

theorem anyDateFragment_congr
    {left right : Leaf}
    (negated : left.negated = right.negated)
    (fragments : List Fragment) :
    anyDateFragment left fragments = anyDateFragment right fragments := by
  unfold anyDateFragment
  rw [negated]

/-! ## Leaves -/

theorem agrees_compileAnyDate
    (backend : Backend)
    {left right : Leaf}
    (alike : left.Alike right)
    (column : String)
    {leftDates rightDates : List PartialDate}
    (segments : leftDates.map PartialDate.segments = rightDates.map PartialDate.segments) :
    Agrees
      (compileAnyDate backend left column leftDates)
      (compileAnyDate backend right column rightDates) := by
  have counts : (groupBySegments leftDates).map groupCount =
      (groupBySegments rightDates).map groupCount := by
    rw [map_groupCount_groupBySegments, map_groupCount_groupBySegments, segments]
  apply Agrees.of_run (run_compileAnyDate backend left column leftDates [])
  · rw [run_compileAnyDate, map_dateGroupFragment left, map_dateGroupFragment right, counts,
      alike.negated, anyDateFragment_congr alike.negated]
  · exact length_flatMap_dateGroupBinds_congr backend counts

theorem agrees_compileDateComparison
    (backend : Backend)
    {left right : Leaf}
    (alike : left.Alike right)
    (column : String)
    (comparison : Comparison)
    {leftDate rightDate : PartialDate}
    (segments : leftDate.segments = rightDate.segments) :
    Agrees
      (compileDateComparison backend left column comparison leftDate)
      (compileDateComparison backend right column comparison rightDate) := by
  constructor <;>
    simp only [result, binds, run_compileDateComparison, alike.path, alike.negated, segments,
      isComplete_congr segments]
  · split
    · rfl
    · split
      · rfl
      · split <;> rfl
  · split
    · rfl
    · split
      · rfl
      · split <;> rfl

theorem agrees_compileComparison
    (backend : Backend)
    {left right : Leaf}
    (alike : left.Alike right)
    (column : String)
    (type : SemanticType)
    (comparison : Comparison)
    {leftValue rightValue : Scalar}
    (kind : leftValue.kind = rightValue.kind) :
    Agrees
      (compileComparison backend left column type comparison leftValue)
      (compileComparison backend right column type comparison rightValue) := by
  by_cases dated : leftValue.variant = .date
  · rcases exists_date_of_variant dated with ⟨leftDate, rfl⟩
    rcases exists_date_of_kind_eq kind with ⟨rightDate, rfl, segments⟩
    exact agrees_compileDateComparison backend alike column comparison segments
  · have rightPlain : rightValue.variant ≠ .date :=
      Scalar.variant_eq_of_kind_eq kind ▸ dated
    apply Agrees.of_run (run_compileComparison backend left column type comparison dated [])
    · rw [run_compileComparison backend right column type comparison rightPlain [],
        foldsCase_congr type kind, alike.negated]
    · rfl

theorem agrees_compilePlainBetween
    (backend : Backend)
    {left right : Leaf}
    (alike : left.Alike right)
    (column : String)
    (type : SemanticType)
    {leftLow rightLow : Scalar}
    (low : leftLow.kind = rightLow.kind)
    (leftHigh rightHigh : Scalar) :
    Agrees
      (compilePlainBetween backend left column type leftLow leftHigh)
      (compilePlainBetween backend right column type rightLow rightHigh) := by
  apply Agrees.of_run (run_compilePlainBetween backend left column type leftLow leftHigh [])
  · rw [run_compilePlainBetween, foldsCase_congr type low, alike.negated]
  · rfl

theorem agrees_compileDateBetween
    {left right : Leaf}
    (alike : left.Alike right)
    (column : String)
    {leftLow rightLow : PartialDate}
    (low : leftLow.segments = rightLow.segments)
    (leftHigh rightHigh : PartialDate) :
    Agrees
      (compileDateBetween left column leftLow leftHigh)
      (compileDateBetween right column rightLow rightHigh) := by
  constructor <;>
    simp only [result, binds, run_compileDateBetween, alike.path, alike.negated, low] <;>
    split <;> rfl

theorem agrees_compileBetween_dates
    (backend : Backend)
    {left right : Leaf}
    (alike : left.Alike right)
    (column : String)
    (type : SemanticType)
    {leftLow leftHigh rightLow rightHigh : PartialDate}
    (low : leftLow.segments = rightLow.segments)
    (leftSame : leftLow.segments = leftHigh.segments)
    (rightSame : rightLow.segments = rightHigh.segments) :
    Agrees
      (compileBetween backend left column type (.date leftLow) (.date leftHigh))
      (compileBetween backend right column type (.date rightLow) (.date rightHigh)) := by
  have kind : (Scalar.date leftLow).kind = (Scalar.date rightLow).kind := by
    rw [Scalar.kind, Scalar.kind, low]
  have completes := isComplete_congr low
  by_cases complete : leftLow.isComplete = true
  · apply (agrees_compilePlainBetween backend alike column type kind _ _).of_runOn_eq
    · rw [run_compileBetween_dates backend left column type leftSame, if_pos complete]
    · rw [run_compileBetween_dates backend right column type rightSame,
        if_pos (completes ▸ complete)]
  · apply (agrees_compileDateBetween alike column low leftHigh rightHigh).of_runOn_eq
    · rw [run_compileBetween_dates backend left column type leftSame, if_neg complete]
    · rw [run_compileBetween_dates backend right column type rightSame,
        if_neg (completes ▸ complete)]

theorem agrees_compileBetween
    (backend : Backend)
    {left right : Leaf}
    (alike : left.Alike right)
    (column : String)
    (type : SemanticType)
    {leftLow leftHigh rightLow rightHigh : Scalar}
    (low : leftLow.kind = rightLow.kind)
    (high : leftHigh.kind = rightHigh.kind) :
    Agrees
      (compileBetween backend left column type leftLow leftHigh)
      (compileBetween backend right column type rightLow rightHigh) := by
  by_cases leftSame : leftLow.kind = leftHigh.kind
  · have rightSame : rightLow.kind = rightHigh.kind := by
      rwa [← low, ← high]
    by_cases dated : leftLow.variant = .date
    · rcases exists_date_of_variant dated with ⟨leftDate, rfl⟩
      rcases exists_date_of_kind_eq low with ⟨rightDate, rfl, lowSegments⟩
      rcases exists_date_of_kind_eq leftSame with ⟨leftHighDate, rfl, leftSegments⟩
      rcases exists_date_of_kind_eq rightSame with ⟨rightHighDate, rfl, rightSegments⟩
      exact agrees_compileBetween_dates backend alike column type lowSegments leftSegments
        rightSegments
    · have rightPlain : rightLow.variant ≠ .date :=
        Scalar.variant_eq_of_kind_eq low ▸ dated
      apply (agrees_compilePlainBetween backend alike column type low _ _).of_runOn_eq
      · rw [run_compileBetween_plain backend left column type leftSame dated]
      · rw [run_compileBetween_plain backend right column type rightSame rightPlain]
  · have rightUnlike : rightLow.kind ≠ rightHigh.kind := by
      rwa [← low, ← high]
    apply Agrees.of_run (run_compileBetween_unlike backend left column type leftSame [])
    · rw [run_compileBetween_unlike backend right column type rightUnlike, low, high, alike.path]
    · rfl

theorem agrees_compileAny_cons
    (backend : Backend)
    {left right : Leaf}
    (alike : left.Alike right)
    (column : String)
    (type : SemanticType)
    {leftFirst rightFirst : Scalar}
    {leftValues rightValues : List Scalar}
    (first : leftFirst.kind = rightFirst.kind)
    (kinds : (leftFirst :: leftValues).map Scalar.kind =
      (rightFirst :: rightValues).map Scalar.kind) :
    Agrees
      (compileAny backend left column type (leftFirst :: leftValues))
      (compileAny backend right column type (rightFirst :: rightValues)) := by
  have leftRun := run_compileAny backend left column type leftFirst leftValues []
  have rightRun := run_compileAny backend right column type rightFirst rightValues []
  have dates := map_segments_allDates? (leftFirst :: leftValues)
  rw [kinds, ← map_segments_allDates?] at dates
  cases leftDates : allDates? (leftFirst :: leftValues) with
  | some leftAll =>
      rw [leftDates, Option.map_some] at dates
      rcases Option.map_eq_some_iff.mp dates.symm with ⟨rightAll, rightDates, segments⟩
      rw [leftDates] at leftRun
      rw [rightDates] at rightRun
      exact (agrees_compileAnyDate backend alike column segments.symm).of_runOn_eq leftRun rightRun
  | none =>
      rw [leftDates, Option.map_none] at dates
      have rightDates := Option.map_eq_none_iff.mp dates.symm
      rw [leftDates] at leftRun
      rw [rightDates] at rightRun
      have odd := map_kind_findOdd? first kinds
      cases leftOdd : findOdd? leftFirst (leftFirst :: leftValues) with
      | some leftValue =>
          rw [leftOdd, Option.map_some] at odd
          rcases Option.map_eq_some_iff.mp odd.symm with ⟨rightValue, rightOdd, kind⟩
          rw [leftOdd] at leftRun
          rw [rightOdd] at rightRun
          apply Agrees.of_run leftRun _ rfl
          rw [rightRun, first, ← kind, alike.path]
      | none =>
          rw [leftOdd, Option.map_none] at odd
          have rightOdd := Option.map_eq_none_iff.mp odd.symm
          have lengths := congrArg List.length kinds
          rw [List.length_map, List.length_map] at lengths
          rw [leftOdd] at leftRun
          rw [rightOdd] at rightRun
          apply Agrees.of_run leftRun
          · rw [rightRun, foldsCase_congr type first, lengths, alike.negated]
          · simpa using lengths

theorem agrees_compileAny
    (backend : Backend)
    {left right : Leaf}
    (alike : left.Alike right)
    (column : String)
    (type : SemanticType)
    {leftValues rightValues : List Scalar}
    (kinds : leftValues.map Scalar.kind = rightValues.map Scalar.kind) :
    Agrees
      (compileAny backend left column type leftValues)
      (compileAny backend right column type rightValues) := by
  cases leftValues with
  | nil =>
      rw [List.map_nil] at kinds
      rw [List.map_eq_nil_iff.mp kinds.symm]
      exact agrees_mismatched alike .noValues
  | cons leftFirst leftOthers =>
      cases rightValues with
      | nil => cases kinds
      | cons rightFirst rightOthers =>
          exact agrees_compileAny_cons backend alike column type (List.cons.inj kinds).1 kinds

/-- Leaves that are alike are compiled alike on any column. -/
theorem agrees_compileOnColumn
    (backend : Backend)
    {left right : Leaf}
    (alike : left.Alike right)
    (column : String)
    (type : SemanticType) :
    Agrees
      (compileOnColumn backend left column type)
      (compileOnColumn backend right column type) := by
  rcases left with ⟨path, operator, negated, leftValue⟩
  rcases right with ⟨rightPath, rightOperator, rightNegated, rightValue⟩
  cases alike.path
  cases alike.operator
  cases alike.negated
  have values : leftValue.Alike rightValue := alike.value
  cases values with
  | null => exact .refl _
  | scalar kind =>
      cases operator with
      | compare comparison =>
          exact agrees_compileComparison backend alike column type comparison kind
      | between => exact agrees_mismatched alike _
      | any => exact agrees_mismatched alike _
  | pair low high =>
      cases operator with
      | compare comparison => exact agrees_mismatched alike _
      | between => exact agrees_compileBetween backend alike column type low high
      | any => exact agrees_mismatched alike _
  | list kinds =>
      cases operator with
      | compare comparison => exact agrees_mismatched alike _
      | between => exact agrees_mismatched alike _
      | any => exact agrees_compileAny backend alike column type kinds

theorem agrees_compileLeaf
    (target : Target)
    {left right : Leaf}
    (alike : left.Alike right) :
    Agrees (target.compileLeaf left) (target.compileLeaf right) := by
  unfold Target.compileLeaf
  rw [alike.path]
  cases target.column right.path with
  | ok found => exact agrees_compileOnColumn target.backend alike found.1 found.2
  | error error => exact .refl _

/-! ## Trees -/

mutual

/-- Trees that are alike are compiled alike. -/
theorem agrees_compileNode
    (target : Target)
    (parenthesized : Bool)
    {left right : Node}
    (alike : left.Alike right) :
    Agrees (target.compileNode parenthesized left) (target.compileNode parenthesized right) := by
  cases alike with
  | leaf alike =>
      exact (agrees_compileLeaf target alike).bind (fun _ => appends_pure _)
        (fun _ => appends_pure _) fun _ => .refl _
  | group combinator members =>
      exact (agrees_compileMembers target members).bind (fun _ => appends_pure _)
        (fun _ => appends_pure _) fun _ => .refl _

theorem agrees_compileMembers
    (target : Target)
    {lefts rights : List Node}
    (alike : Node.ListAlike lefts rights) :
    Agrees (target.compileMembers lefts) (target.compileMembers rights) := by
  cases alike with
  | nil => exact .refl _
  | cons first rest =>
      rename_i left right lefts rights
      apply (agrees_compileNode target true first).bind
      · exact fun _ => (appends_compileMembers target lefts).bind fun _ => appends_pure _
      · exact fun _ => (appends_compileMembers target rights).bind fun _ => appends_pure _
      · exact fun _ => (agrees_compileMembers target rest).bind (fun _ => appends_pure _)
          (fun _ => appends_pure _) fun _ => .refl _

end

/--
Values never reach the text of a query.

Trees that are alike either both are compiled, into the same clauses with equally
many values bound to them, or both are refused with the same error.
-/
theorem clauses_eq_of_alike
    {left right : Node}
    (alike : left.Alike right)
    (backend : Backend)
    (catalog : Catalog)
    (key : String)
    (constraints : Constraints) :
    (∃ whereClause orderClause limitClause leftBinds rightBinds,
      compile backend catalog key left constraints =
        .ok ⟨whereClause, orderClause, limitClause, leftBinds⟩ ∧
      compile backend catalog key right constraints =
        .ok ⟨whereClause, orderClause, limitClause, rightBinds⟩ ∧
      leftBinds.length = rightBinds.length) ∨
    ∃ error,
      compile backend catalog key left constraints = .error error ∧
      compile backend catalog key right constraints = .error error := by
  have agrees := agrees_compileNode ⟨backend, catalog, key⟩ false alike
  rw [compile_eq, compile_eq, agrees.result]
  cases (Target.compileNode ⟨backend, catalog, key⟩ false right).result with
  | error error => exact .inr ⟨error, rfl, rfl⟩
  | ok fragment =>
      cases Target.orderClause ⟨backend, catalog, key⟩ constraints with
      | error error => exact .inr ⟨error, rfl, rfl⟩
      | ok orderClause =>
          cases (limitClause backend constraints).result with
          | error error => exact .inr ⟨error, rfl, rfl⟩
          | ok limit =>
              refine .inl ⟨_, _, _, _, _, rfl, rfl, ?_⟩
              rw [List.length_append, List.length_append, agrees.binds]

/-- Books of a title that were printed in a year or in a month of any year. -/
def titledPrinted (title : String) (year month : Nat) : Node :=
  .group .all
    [.leaf ⟨"title", .compare .eq, false, .scalar (.string title)⟩,
      .leaf ⟨"printed", .any, false,
        .list
          [.date ⟨some year, none, none, none, none, none⟩,
            .date ⟨none, some month, none, none, none, none⟩]⟩]

/-- A title that would be SQL changes nothing but a bound value. -/
theorem quoted_title_bound_on_library :
    ∃ catalog whereClause orderClause limitClause leftBinds rightBinds,
      Catalog.build library = .ok catalog ∧
      compile .sqlite catalog "book" (titledPrinted "Emma" 1816 1) Constraints.none =
        .ok ⟨whereClause, orderClause, limitClause, leftBinds⟩ ∧
      compile .sqlite catalog "book" (titledPrinted "' OR 1 = 1 --" 1999 12) Constraints.none =
        .ok ⟨whereClause, orderClause, limitClause, rightBinds⟩ ∧
      leftBinds.length = rightBinds.length := by
  rcases exists_wellNamed_library with ⟨catalog, built, _, _⟩
  have checked : (match Catalog.build library with
      | .ok catalog =>
          (compile .sqlite catalog "book" (titledPrinted "Emma" 1816 1)
            Constraints.none).toOption.isSome
      | .error _ => false) = true := by
    decide +kernel
  simp only [built] at checked
  have alike : (titledPrinted "Emma" 1816 1).Alike (titledPrinted "' OR 1 = 1 --" 1999 12) :=
    .group .all
      (.cons (.leaf ⟨rfl, rfl, rfl, .scalar rfl⟩)
        (.cons (.leaf ⟨rfl, rfl, rfl, .list rfl⟩) .nil))
  rcases clauses_eq_of_alike alike .sqlite catalog "book" Constraints.none with
    ⟨whereClause, orderClause, limitClause, leftBinds, rightBinds, leftCompiles, rightCompiles,
      sameLength⟩ | ⟨error, leftFails, _⟩
  · exact ⟨catalog, whereClause, orderClause, limitClause, leftBinds, rightBinds, built,
      leftCompiles, rightCompiles, sameLength⟩
  · rw [leftFails] at checked
    cases checked

end ClassStore.Query
