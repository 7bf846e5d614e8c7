import ClassStore.Proofs.Grammar.WellTyped
import ClassStore.Proofs.Query.Placeholders

/-!
# Why a parsed search is not compiled

A tree can be refused for many reasons: an unknown path, a value of the wrong
shape for its operator, values of different kinds.  The parser has excluded all of
them but one.  What it does not look at is whether the segments of a date suit the
operator, so that only leaves with dates are left to be refused (`IsRefused`).

What the parser guarantees of a leaf is `Leaf.IsWellTyped`: the operator takes the value.
`judged_of_takes` goes through the operators, and a tree fails with the first of its
leaves that fails.
-/

namespace ClassStore.Query

open ClassStore.Catalog
open ClassStore.Date
open ClassStore.Search
open Compiling

/-! ## Refused leaves -/

/-- The dates among the values that a leaf compares with. -/
def datesOf : Value → List PartialDate
  | .null => []
  | .scalar value => value.date?.toList
  | .pair low high => low.date?.toList ++ high.date?.toList
  | .list values => values.filterMap Scalar.date?

/-- The operators that put the values of a leaf in an order. -/
def orderingOperators : List Operator :=
  [.compare .gt, .compare .lt, .compare .ge, .compare .le, .between]

/--
The leaf has a date that does not suit its operator.

No date is compared with a pattern, and a date of which segments are open is put in
an order only if the others form one run.
-/
def IsRefused (leaf : Leaf) : Prop :=
  ∃ date ∈ datesOf leaf.value,
    leaf.operator = .compare .like ∨ leaf.operator = .compare .regex ∨
      leaf.operator ∈ orderingOperators ∧
        date.isComplete = false ∧ date.segments.isContiguous = false

instance (leaf : Leaf) : Decidable (IsRefused leaf) :=
  inferInstanceAs (Decidable (∃ date ∈ datesOf leaf.value, _))

/-- The leaf is compiled unless it is refused, and then the error names its path. -/
inductive Judged (leaf : Leaf) (computation : Compiling Fragment) : Prop where
  | compiled (accepted : ¬IsRefused leaf) (fragment : Fragment)
      (outcome : computation.result = .ok fragment)
  | refused (isRefused : IsRefused leaf) (mismatch : Mismatch)
      (outcome : computation.result = .error (.typeMismatch leaf.path mismatch))

/-- A leaf without dates is not refused. -/
theorem not_isRefused_of_datesOf_eq_nil
    {leaf : Leaf}
    (plain : datesOf leaf.value = []) :
    ¬IsRefused leaf := by
  rintro ⟨date, isDate, _⟩
  rw [plain] at isDate
  cases isDate

theorem date?_eq_none
    {value : Scalar}
    (plain : value.variant ≠ .date) :
    value.date? = none := by
  cases value with
  | date date => exact absurd rfl plain
  | string | integer | boolean => rfl

theorem isRefused_compare_date_iff
    {leaf : Leaf}
    {comparison : Comparison}
    {date : PartialDate}
    (asks : leaf.operator = .compare comparison)
    (holds : leaf.value = .scalar (.date date)) :
    IsRefused leaf ↔
      (comparison = .like ∨ comparison = .regex) ∨
        comparison.isOrdering = true ∧
          date.isComplete = false ∧ date.segments.isContiguous = false := by
  have ordering : Operator.compare comparison ∈ orderingOperators ↔
      comparison.isOrdering = true := by
    cases comparison <;> decide
  simp only [IsRefused, holds, datesOf, Scalar.date?, Option.toList_some, List.mem_singleton,
    exists_eq_left, asks, ordering, Operator.compare.injEq, or_assoc]

theorem isRefused_between_dates_iff
    {leaf : Leaf}
    {low high : PartialDate}
    (asks : leaf.operator = .between)
    (holds : leaf.value = .pair (.date low) (.date high))
    (alike : low.segments = high.segments) :
    IsRefused leaf ↔ low.isComplete = false ∧ low.segments.isContiguous = false := by
  have sameCompleteness : high.isComplete = low.isComplete := by
    rw [PartialDate.isComplete, PartialDate.isComplete, alike]
  have ordering : Operator.between ∈ orderingOperators := by decide
  simp [IsRefused, holds, datesOf, Scalar.date?, asks, ordering, sameCompleteness, ← alike]

/-- Alternatives are neither ordered nor compared with a pattern. -/
theorem not_isRefused_any
    {leaf : Leaf}
    (asks : leaf.operator = .any) :
    ¬IsRefused leaf := by
  rintro ⟨date, _, pattern | pattern | ⟨ordering, _⟩⟩
  · rw [asks] at pattern
    cases pattern
  · rw [asks] at pattern
    cases pattern
  · rw [asks] at ordering
    exact absurd ordering (by decide)

/-! ## Judgement of a leaf -/

theorem judged_compileComparison
    {backend : Backend}
    {leaf : Leaf}
    {column : String}
    {type : SemanticType}
    {comparison : Comparison}
    {value : Scalar}
    (asks : leaf.operator = .compare comparison)
    (holds : leaf.value = .scalar value) :
    Judged leaf (compileComparison backend leaf column type comparison value) := by
  by_cases dated : value.variant = .date
  · rcases exists_date_of_variant dated with ⟨date, rfl⟩
    have isRefused := isRefused_compare_date_iff asks holds
    have outcome :
        (compileComparison backend leaf column type comparison (.date date)).result = _ :=
      congrArg Prod.fst (run_compileDateComparison backend leaf column comparison date [])
    split at outcome
    · next pattern => exact .refused (isRefused.mpr (.inl pattern)) _ outcome
    · next noPattern =>
        split at outcome
        · next complete =>
            refine .compiled (fun refusal => ?_) _ outcome
            rcases isRefused.mp refusal with pattern | ⟨_, isOpen, _⟩
            · exact noPattern pattern
            · rw [complete] at isOpen
              cases isOpen
        · next isOpen =>
            split at outcome
            · next broken =>
                rw [Bool.and_eq_true, Bool.not_eq_true'] at broken
                refine .refused (isRefused.mpr (.inr ⟨broken.1, ?_, broken.2⟩)) _ outcome
                exact Bool.eq_false_iff.mpr isOpen
            · next whole =>
                refine .compiled (fun refusal => ?_) _ outcome
                rcases isRefused.mp refusal with pattern | ⟨ordering, _, broken⟩
                · exact noPattern pattern
                · exact whole (by rw [ordering, broken]; rfl)
  · have plain : datesOf leaf.value = [] := by
      rw [holds, datesOf, date?_eq_none dated, Option.toList_none]
    exact .compiled (not_isRefused_of_datesOf_eq_nil plain) _
      (congrArg Prod.fst (run_compileComparison backend leaf column type comparison dated []))

theorem judged_compileBetween
    {backend : Backend}
    {leaf : Leaf}
    {column : String}
    {type : SemanticType}
    {low high : Scalar}
    (asks : leaf.operator = .between)
    (holds : leaf.value = .pair low high)
    (alike : low.kind = high.kind) :
    Judged leaf (compileBetween backend leaf column type low high) := by
  by_cases dated : low.variant = .date
  · rcases exists_dates_of_kind_eq alike dated with ⟨lowDate, highDate, rfl, rfl, sameSegments⟩
    have isRefused := isRefused_between_dates_iff asks holds sameSegments
    have outcome :
        (compileBetween backend leaf column type (.date lowDate) (.date highDate)).result = _ :=
      congrArg Prod.fst (run_compileBetween_dates backend leaf column type sameSegments [])
    rw [run_compilePlainBetween, run_compileDateBetween] at outcome
    split at outcome
    · next complete =>
        refine .compiled (fun refusal => ?_) _ outcome
        rw [(isRefused.mp refusal).1] at complete
        cases complete
    · next isOpen =>
        split at outcome
        · next contiguous =>
            refine .compiled (fun refusal => ?_) _ outcome
            rw [(isRefused.mp refusal).2] at contiguous
            cases contiguous
        · next broken =>
            exact .refused
              (isRefused.mpr ⟨Bool.eq_false_iff.mpr isOpen, Bool.eq_false_iff.mpr broken⟩) _ outcome
  · have highPlain : high.variant ≠ .date := by
      rwa [Scalar.variant, ← alike]
    have plain : datesOf leaf.value = [] := by
      rw [holds, datesOf, date?_eq_none dated, date?_eq_none highPlain]
      rfl
    have outcome : (compileBetween backend leaf column type low high).result = _ :=
      congrArg Prod.fst (run_compileBetween_plain backend leaf column type alike dated [])
    rw [run_compilePlainBetween] at outcome
    exact .compiled (not_isRefused_of_datesOf_eq_nil plain) _ outcome

/-- Alternatives of one variant are compiled, whatever segments their dates have. -/
theorem judged_compileAny
    {backend : Backend}
    {leaf : Leaf}
    {column : String}
    {type : SemanticType}
    {values : List Scalar}
    (asks : leaf.operator = .any)
    (nonempty : values ≠ [])
    {variant : ScalarVariant}
    (uniform : ∀ value ∈ values, value.variant = variant) :
    Judged leaf (compileAny backend leaf column type values) := by
  have accepted : ¬IsRefused leaf := not_isRefused_any asks
  cases values with
  | nil => exact absurd rfl nonempty
  | cons first values =>
      have outcome : (compileAny backend leaf column type (first :: values)).result = _ :=
        congrArg Prod.fst (run_compileAny backend leaf column type first values [])
      split at outcome
      · rw [run_compileAnyDate] at outcome
        exact .compiled accepted _ outcome
      · have even : findOdd? first (first :: values) = none :=
          findOdd?_eq_none_iff.mpr fun value isValue =>
            (uniform value isValue).trans (uniform first List.mem_cons_self).symm
        rw [even] at outcome
        exact .compiled accepted _ outcome

/-- Values that the operator takes are compiled on any column unless they are refused. -/
theorem judged_of_takes
    (backend : Backend)
    {leaf : Leaf}
    (column : String)
    (type : SemanticType)
    (takes : leaf.operator.Takes leaf.value) :
    Judged leaf (compileOnColumn backend leaf column type) := by
  rcases leaf with ⟨path, operator, negated, value⟩
  cases takes with
  | null isEquality =>
      rcases isEquality with rfl | rfl
      · exact .compiled (not_isRefused_of_datesOf_eq_nil rfl) _ rfl
      · exact .compiled (not_isRefused_of_datesOf_eq_nil rfl) _ rfl
  | scalar comparison value => exact judged_compileComparison rfl rfl
  | pair alike => exact judged_compileBetween rfl rfl alike
  | list nonempty uniform => exact judged_compileAny rfl nonempty uniform

theorem judged_compileLeaf
    {target : Target}
    {leaf : Leaf}
    (isMeant : Grammar.IsMeant target.catalog target.key leaf) :
    Judged leaf (target.compileLeaf leaf) := by
  rcases isMeant.isWellTyped with ⟨resolved, found, takes, _⟩
  have judged := judged_of_takes target.backend resolved.column resolved.attr.searchType takes
  rw [Target.compileLeaf, Target.column, found]
  exact judged

/-! ## Judgement of a search -/

/-- The leaf is the first one in the order of the leaves that is refused. -/
def IsFirstRefused (leaves : List Leaf) (leaf : Leaf) : Prop :=
  IsRefused leaf ∧
    ∃ before after, leaves = before ++ leaf :: after ∧ ∀ earlier ∈ before, ¬IsRefused earlier

/-- Of some leaves none is refused, or there is a first one. -/
theorem forall_not_or_exists_isFirstRefused (leaves : List Leaf) :
    (∀ leaf ∈ leaves, ¬IsRefused leaf) ∨ ∃ leaf, IsFirstRefused leaves leaf := by
  induction leaves with
  | nil => exact .inl (by simp)
  | cons first leaves inductionHypothesis =>
      by_cases isRefused : IsRefused first
      · exact .inr ⟨first, isRefused, [], leaves, rfl, by simp⟩
      · rcases inductionHypothesis with accepted | ⟨leaf, refusal, before, after, rfl, accepted⟩
        · exact .inl (List.forall_mem_cons.mpr ⟨isRefused, accepted⟩)
        · exact .inr ⟨leaf, refusal, first :: before, after, rfl,
            List.forall_mem_cons.mpr ⟨isRefused, accepted⟩⟩

theorem Judged.fault?_eq_none
    {leaf : Leaf}
    {computation : Compiling Fragment}
    (judged : Judged leaf computation)
    (accepted : ¬IsRefused leaf) :
    fault? computation = none := by
  cases judged with
  | compiled _ fragment outcome => exact fault?_eq_none_iff.mpr ⟨fragment, outcome⟩
  | refused isRefused => exact absurd isRefused accepted

theorem Judged.exists_fault?_eq_some
    {leaf : Leaf}
    {computation : Compiling Fragment}
    (judged : Judged leaf computation)
    (isRefused : IsRefused leaf) :
    ∃ mismatch, fault? computation = some (.typeMismatch leaf.path mismatch) := by
  cases judged with
  | compiled accepted => exact absurd isRefused accepted
  | refused _ mismatch outcome => exact ⟨mismatch, fault?_eq_some_iff.mpr outcome⟩

/-- Without constraints a search fails if and only if its tree does. -/
theorem compile_eq_error_iff
    {backend : Backend}
    {catalog : Catalog}
    {key : String}
    {node : Node}
    {error : CompileError} :
    compile backend catalog key node .none = .error error ↔
      fault? (Target.compileNode ⟨backend, catalog, key⟩ false node) = some error := by
  rw [fault?_eq_some_iff, compile_eq]
  have order : Target.orderClause ⟨backend, catalog, key⟩ .none = .ok "" := rfl
  have limit : (limitClause backend .none).result = .ok "" := rfl
  cases (Target.compileNode ⟨backend, catalog, key⟩ false node).result with
  | error fault => simp [Except.bind]
  | ok fragment? => simp [order, limit, Except.bind, Except.map]

/-- A tree of leaves that are judged fails with the first one that is refused. -/
theorem compile_eq_error_of_isFirstRefused
    {backend : Backend}
    {catalog : Catalog}
    {key : String}
    {node : Node}
    (meant : ∀ leaf ∈ node.leaves, Grammar.IsMeant catalog key leaf)
    {leaf : Leaf}
    (first : IsFirstRefused node.leaves leaf) :
    ∃ mismatch,
      compile backend catalog key node .none = .error (.typeMismatch leaf.path mismatch) := by
  have judged : ∀ leaf ∈ node.leaves,
      Judged leaf (Target.compileLeaf ⟨backend, catalog, key⟩ leaf) :=
    fun leaf isLeaf => judged_compileLeaf (meant leaf isLeaf)
  rcases first with ⟨isRefused, before, after, split, accepted⟩
  rw [split, List.forall_mem_append, List.forall_mem_cons] at judged
  rcases judged.2.1.exists_fault?_eq_some isRefused with ⟨mismatch, fault⟩
  have earlier :
      (before.findSome? fun leaf => fault? (Target.compileLeaf ⟨backend, catalog, key⟩ leaf)) =
        none :=
    List.findSome?_eq_none_iff.mpr fun leaf isLeaf =>
      (judged.1 leaf isLeaf).fault?_eq_none (accepted leaf isLeaf)
  refine ⟨mismatch, compile_eq_error_iff.mpr ?_⟩
  rw [fault?_compileNode, split, List.findSome?_append, earlier, List.findSome?_cons, fault]
  rfl

theorem compile_ne_error_of_not_isRefused
    {backend : Backend}
    {catalog : Catalog}
    {key : String}
    {node : Node}
    (meant : ∀ leaf ∈ node.leaves, Grammar.IsMeant catalog key leaf)
    (accepted : ∀ leaf ∈ node.leaves, ¬IsRefused leaf)
    (error : CompileError) :
    compile backend catalog key node .none ≠ .error error := by
  intro fails
  have faultless :
      (node.leaves.findSome? fun leaf =>
        fault? (Target.compileLeaf ⟨backend, catalog, key⟩ leaf)) = none :=
    List.findSome?_eq_none_iff.mpr fun leaf isLeaf =>
      (judged_compileLeaf (meant leaf isLeaf)).fault?_eq_none (accepted leaf isLeaf)
  rw [compile_eq_error_iff, fault?_compileNode, faultless] at fails
  cases fails

/--
A parsed search fails only over dates.

A tree that is read from a text or from terms is compiled for the class that it was
read for, unless one of its leaves has a date that does not suit the operator.  Then it
fails because the values do not fit, and the error names the path of the first such
leaf.
-/
theorem parsed_fails_iff_isRefused
    (backend : Backend)
    {catalog : Catalog}
    {key : String}
    {node : Node}
    (isParsed : IsParsed catalog key node) :
    ((∃ error, compile backend catalog key node .none = .error error) ↔
        ∃ leaf ∈ node.leaves, IsRefused leaf) ∧
      ∀ error, compile backend catalog key node .none = .error error →
        ∃ leaf mismatch,
          IsFirstRefused node.leaves leaf ∧ error = .typeMismatch leaf.path mismatch := by
  rcases forall_not_or_exists_isFirstRefused node.leaves with accepted | ⟨leaf, first⟩
  · have succeeds (error : CompileError) :
        compile backend catalog key node .none ≠ .error error :=
      compile_ne_error_of_not_isRefused isParsed.isMeant accepted error
    refine ⟨⟨?_, ?_⟩, fun error fails => absurd fails (succeeds error)⟩
    · rintro ⟨error, fails⟩
      exact absurd fails (succeeds error)
    · rintro ⟨leaf, isLeaf, isRefused⟩
      exact absurd isRefused (accepted leaf isLeaf)
  · rcases compile_eq_error_of_isFirstRefused isParsed.isMeant first with ⟨mismatch, fails⟩
    refine ⟨⟨fun _ => ?_, fun _ => ⟨_, fails⟩⟩, fun error otherFails => ?_⟩
    · rcases first with ⟨isRefused, before, after, split, _⟩
      exact ⟨leaf, by simp [split], isRefused⟩
    · rw [fails] at otherFails
      cases otherFails
      exact ⟨leaf, mismatch, first, rfl⟩

/-- Of three conditions the second orders books by months and hours alone. -/
def gappedText : String :=
  "title => 'a', printed => GT 'xxxx-01-xxT12:xx:xx', printed => LIKE '1816-01-01'"

/-- The second condition is the first that is refused, and the error names its path. -/
theorem gappedText_fails_on_library :
    ∃ catalog node,
      Catalog.build library = .ok catalog ∧
      parseText catalog "book" gappedText = .ok node ∧
      (node.leaves.map fun leaf => (leaf.path, decide (IsRefused leaf))) =
        [("title", false), ("printed", true), ("printed", true)] ∧
      ∃ mismatch,
        compile .postgres catalog "book" node .none =
          .error (.typeMismatch "printed" mismatch) := by
  have checked : (match Catalog.build library with
      | .ok catalog =>
          match parseText catalog "book" gappedText with
          | .ok node =>
              node.leaves.map (fun leaf => (leaf.path, decide (IsRefused leaf))) ==
                [("title", false), ("printed", true), ("printed", true)]
          | .error _ => false
      | .error _ => false) = true := by
    decide +kernel
  cases built : Catalog.build library with
  | error error =>
      rw [built] at checked
      cases checked
  | ok catalog =>
      rw [built] at checked
      simp only at checked
      cases parsed : parseText catalog "book" gappedText with
      | error error =>
          rw [parsed] at checked
          cases checked
      | ok node =>
          rw [parsed] at checked
          have leaves := eq_of_beq checked
          have isListed : ∀ leaf ∈ node.leaves, (leaf.path, decide (IsRefused leaf)) ∈
              [("title", false), ("printed", true), ("printed", true)] := by
            intro leaf isLeaf
            rw [← leaves]
            exact List.mem_map_of_mem isLeaf
          have someRefused : ∃ leaf ∈ node.leaves, IsRefused leaf := by
            have isMapped : ("printed", true) ∈
                node.leaves.map fun leaf => (leaf.path, decide (IsRefused leaf)) := by
              rw [leaves]
              decide
            rcases List.mem_map.mp isMapped with ⟨leaf, isLeaf, same⟩
            exact ⟨leaf, isLeaf, of_decide_eq_true (Prod.mk.inj same).2⟩
          rcases parsed_fails_iff_isRefused .postgres (.inl ⟨gappedText, parsed⟩) with
            ⟨failsIff, namesFirst⟩
          rcases failsIff.mpr someRefused with ⟨error, fails⟩
          rcases namesFirst error fails with
            ⟨leaf, mismatch, ⟨isRefused, before, after, split, _⟩, rfl⟩
          have isPrinted : leaf.path = "printed" := by
            have listed := isListed leaf (by simp [split])
            simpa [isRefused] using listed
          rw [isPrinted] at fails
          exact ⟨catalog, node, rfl, parsed, leaves, mismatch, fails⟩

end ClassStore.Query
