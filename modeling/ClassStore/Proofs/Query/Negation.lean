import ClassStore.Proofs.Query.Evaluation
import ClassStore.Proofs.Query.Tree
import Mathlib.Data.List.Forall2

/-!
# Negation

A leaf is negated in several ways: by another comparison, by NOT in front of an
operator, by the other test for null, and, where dates need a group of conditions, by
the other combinator.  All of them amount to one thing.  A leaf and its negation are
refused for the same reason, or both are compiled with the same values to bind, into
conditions that are complementary: of every row, both are unknown or exactly one
holds.
-/

namespace ClassStore.Query

open ClassStore.Catalog
open ClassStore.Date
open ClassStore.Search
open Compiling

/-! ## Complementary conditions -/

/-- Of every row and with any values bound, the one condition is the negation of the other. -/
def Complementary (left right : Fragment) : Prop :=
  ∀ (Datum : Type) (meaning : Interpretation Datum) (row : String → Option Datum)
    (values : List (Option Datum)),
    right.truth meaning row values =
      ((left.truth meaning row values).1.negate, (left.truth meaning row values).2)

theorem complementary_compare
    (left right : Fragment)
    (comparison : Comparison)
    (negated : Bool) :
    Complementary (.compare left (.ofComparison comparison negated) right)
      (.compare left (.ofComparison comparison (!negated)) right) := by
  intro Datum meaning row values
  simp only [Fragment.truth, SqlComparison.truth_ofComparison_not]

theorem complementary_between (subject low high : Fragment) (negated : Bool) :
    Complementary (.between subject low high negated)
      (.between subject low high (!negated)) := by
  intro Datum meaning row values
  simp only [Fragment.truth, Truth.negateIf_not]

theorem complementary_among (subject : Fragment) (items : List Fragment) (negated : Bool) :
    Complementary (.among subject items negated) (.among subject items (!negated)) := by
  intro Datum meaning row values
  simp only [Fragment.truth, Truth.negateIf_not]

theorem complementary_isNull (subject : Fragment) (negated : Bool) :
    Complementary (.isNull subject negated) (.isNull subject (!negated)) := by
  intro Datum meaning row values
  simp only [Fragment.truth, Bool.bne_not, Truth.ofBool_not]

/-- Complementary members take the same values, and the one list is negated by the other. -/
theorem truths_of_complementary
    {Datum : Type}
    (meaning : Interpretation Datum)
    (row : String → Option Datum)
    {left right : List Fragment}
    (complementary : List.Forall₂ Complementary left right)
    (values : List (Option Datum)) :
    Fragment.truths meaning row right values =
      ((Fragment.truths meaning row left values).1.map Truth.negate,
        (Fragment.truths meaning row left values).2) := by
  induction complementary generalizing values with
  | nil => rfl
  | cons first _ inductionHypothesis =>
      simp only [Fragment.truths, first Datum meaning row values, inductionHypothesis, List.map_cons]

/-- A group is complementary to the group of the other combinator with complementary members. -/
theorem complementary_group
    (combinator : Combinator)
    (parenthesized : Bool)
    {left right : List Fragment}
    (complementary : List.Forall₂ Complementary left right) :
    Complementary (.group combinator left parenthesized)
      (.group (Truth.dual combinator) right parenthesized) := by
  intro Datum meaning row values
  simp only [Fragment.truth, truths_of_complementary meaning row complementary values,
    Truth.negate_combine]

/-! ## Complementary outcomes -/

/-- Both computations fail alike, or both make conditions that are complementary. -/
inductive Opposed : Except CompileError Fragment → Except CompileError Fragment → Prop where
  | refused (error : CompileError) : Opposed (.error error) (.error error)
  | compiled {left right : Fragment} (complementary : Complementary left right) :
      Opposed (.ok left) (.ok right)

/-- Whatever is bound before, the outcomes are opposed and the same values are bound. -/
def Negates (left right : Compiling Fragment) : Prop :=
  ∀ earlier,
    Opposed (left.runOn earlier).1 (right.runOn earlier).1 ∧
      (left.runOn earlier).2 = (right.runOn earlier).2

theorem negates_mismatched (leaf : Leaf) (mismatch : Mismatch) :
    Negates (mismatched leaf mismatch) (mismatched leaf.negate mismatch) :=
  fun _ => ⟨.refused _, rfl⟩

theorem negates_throw (error : CompileError) :
    Negates (throw error) (throw error) :=
  fun _ => ⟨.refused _, rfl⟩

theorem negates_compileDateComparison
    (backend : Backend)
    (leaf : Leaf)
    (column : String)
    (comparison : Comparison)
    (date : PartialDate) :
    Negates (compileDateComparison backend leaf column comparison date)
      (compileDateComparison backend leaf.negate column comparison date) := by
  intro earlier
  rw [run_compileDateComparison, run_compileDateComparison]
  split
  · exact ⟨.refused _, rfl⟩
  · split
    · exact ⟨.compiled (complementary_compare _ _ comparison leaf.negated), rfl⟩
    · split
      · exact ⟨.refused _, rfl⟩
      · exact ⟨.compiled (complementary_compare _ _ comparison leaf.negated), rfl⟩

theorem negates_compileComparison
    (backend : Backend)
    (leaf : Leaf)
    (column : String)
    (type : SemanticType)
    (comparison : Comparison)
    (value : Scalar) :
    Negates (compileComparison backend leaf column type comparison value)
      (compileComparison backend leaf.negate column type comparison value) := by
  by_cases dated : value.variant = .date
  · rcases exists_date_of_variant dated with ⟨date, rfl⟩
    exact negates_compileDateComparison backend leaf column comparison date
  · intro earlier
    rw [run_compileComparison backend leaf column type comparison dated,
      run_compileComparison backend leaf.negate column type comparison dated]
    exact ⟨.compiled (complementary_compare _ _ comparison leaf.negated), rfl⟩

theorem negates_compilePlainBetween
    (backend : Backend)
    (leaf : Leaf)
    (column : String)
    (type : SemanticType)
    (low high : Scalar) :
    Negates (compilePlainBetween backend leaf column type low high)
      (compilePlainBetween backend leaf.negate column type low high) := by
  intro earlier
  rw [run_compilePlainBetween, run_compilePlainBetween]
  exact ⟨.compiled (complementary_between _ _ _ leaf.negated), rfl⟩

theorem negates_compileDateBetween
    (leaf : Leaf)
    (column : String)
    (low high : PartialDate) :
    Negates (compileDateBetween leaf column low high)
      (compileDateBetween leaf.negate column low high) := by
  intro earlier
  rw [run_compileDateBetween, run_compileDateBetween]
  split
  · exact ⟨.compiled (complementary_between _ _ _ leaf.negated), rfl⟩
  · exact ⟨.refused _, rfl⟩

theorem negates_compileBetween
    (backend : Backend)
    (leaf : Leaf)
    (column : String)
    (type : SemanticType)
    (low high : Scalar) :
    Negates (compileBetween backend leaf column type low high)
      (compileBetween backend leaf.negate column type low high) := by
  intro earlier
  by_cases alike : low.kind = high.kind
  · by_cases dated : low.variant = .date
    · rcases exists_dates_of_kind_eq alike dated with
        ⟨lowDate, highDate, rfl, rfl, sameSegments⟩
      rw [run_compileBetween_dates backend leaf column type sameSegments,
        run_compileBetween_dates backend leaf.negate column type sameSegments]
      split
      · exact negates_compilePlainBetween backend leaf column type _ _ earlier
      · exact negates_compileDateBetween leaf column lowDate highDate earlier
    · rw [run_compileBetween_plain backend leaf column type alike dated,
        run_compileBetween_plain backend leaf.negate column type alike dated]
      exact negates_compilePlainBetween backend leaf column type low high earlier
  · rw [run_compileBetween_unlike backend leaf column type alike,
      run_compileBetween_unlike backend leaf.negate column type alike]
    exact ⟨.refused _, rfl⟩

/-- Several groups of dates are combined by the other combinator when they are negated. -/
theorem complementary_anyDateFragment
    (leaf : Leaf)
    {left right : List Fragment}
    (complementary : List.Forall₂ Complementary left right) :
    Complementary (anyDateFragment leaf left) (anyDateFragment leaf.negate right) := by
  have group := complementary_group (if leaf.negated then .all else .any) true complementary
  have turned :
      Truth.dual (if leaf.negated then .all else .any) =
        if leaf.negate.negated then .all else .any := by
    cases negated : leaf.negated <;> simp [Leaf.negate, negated, Truth.dual]
  rw [turned] at group
  cases complementary with
  | nil => exact group
  | cons first others =>
      cases others with
      | nil => exact first
      | cons _ _ => exact group

theorem negates_compileAnyDate
    (backend : Backend)
    (leaf : Leaf)
    (column : String)
    (dates : List PartialDate) :
    Negates (compileAnyDate backend leaf column dates)
      (compileAnyDate backend leaf.negate column dates) := by
  intro earlier
  rw [run_compileAnyDate, run_compileAnyDate]
  refine ⟨.compiled (complementary_anyDateFragment leaf ?_), rfl⟩
  induction groupBySegments dates with
  | nil => exact .nil
  | cons group groups inductionHypothesis =>
      exact .cons (complementary_among _ _ leaf.negated) inductionHypothesis

theorem negates_compileAny
    (backend : Backend)
    (leaf : Leaf)
    (column : String)
    (type : SemanticType)
    (values : List Scalar) :
    Negates (compileAny backend leaf column type values)
      (compileAny backend leaf.negate column type values) := by
  cases values with
  | nil => exact negates_mismatched leaf .noValues
  | cons first values =>
      intro earlier
      rw [run_compileAny, run_compileAny]
      split
      · next dates _ => exact negates_compileAnyDate backend leaf column dates earlier
      · split
        · exact ⟨.refused _, rfl⟩
        · exact ⟨.compiled (complementary_among _ _ leaf.negated), rfl⟩

theorem negates_isNull (column : String) (negated : Bool) :
    Negates (pure (.isNull (.column column false) negated))
      (pure (.isNull (.column column false) (!negated))) :=
  fun _ => ⟨.compiled (complementary_isNull _ negated), rfl⟩

/-- On any column and for any backend, a leaf is negated by its negation. -/
theorem negates_compileOnColumn
    (backend : Backend)
    (leaf : Leaf)
    (column : String)
    (type : SemanticType) :
    Negates (compileOnColumn backend leaf column type)
      (compileOnColumn backend leaf.negate column type) := by
  rcases leaf with ⟨path, operator, negated, value⟩
  cases value with
  | null =>
      cases operator with
      | compare comparison =>
          cases comparison with
          | eq => exact negates_isNull column negated
          | ne => exact negates_isNull column (!negated)
          | _ => exact negates_mismatched ⟨path, _, negated, .null⟩ _
      | between => exact negates_mismatched ⟨path, _, negated, .null⟩ _
      | any => exact negates_mismatched ⟨path, _, negated, .null⟩ _
  | scalar value =>
      cases operator with
      | compare comparison =>
          exact negates_compileComparison backend ⟨path, _, negated, .scalar value⟩ column type
            comparison value
      | between => exact negates_mismatched ⟨path, _, negated, .scalar value⟩ _
      | any => exact negates_mismatched ⟨path, _, negated, .scalar value⟩ _
  | pair low high =>
      cases operator with
      | compare comparison => exact negates_mismatched ⟨path, _, negated, .pair low high⟩ _
      | between =>
          exact negates_compileBetween backend ⟨path, _, negated, .pair low high⟩ column type
            low high
      | any => exact negates_mismatched ⟨path, _, negated, .pair low high⟩ _
  | list values =>
      cases operator with
      | compare comparison => exact negates_mismatched ⟨path, _, negated, .list values⟩ _
      | between => exact negates_mismatched ⟨path, _, negated, .list values⟩ _
      | any =>
          exact negates_compileAny backend ⟨path, _, negated, .list values⟩ column type values

/--
NOT is logical negation.

A leaf and the leaf that is negated once more or once less are refused with the same
error, or both are compiled.  Then the same values are bound, and of every row and
with any values bound, the one condition is true where the other is false and unknown
where the other is unknown.  This is so on every column of any type and for either
backend, and for every path that is looked up in a catalog.
-/
theorem negation_is_complement :
    (∀ backend leaf column type,
      Negates (compileOnColumn backend leaf column type)
        (compileOnColumn backend leaf.negate column type)) ∧
    (∀ (target : Target) leaf,
      Negates (target.compileLeaf leaf) (target.compileLeaf leaf.negate)) := by
  refine ⟨negates_compileOnColumn, fun target leaf => ?_⟩
  have samePath : leaf.negate.path = leaf.path := rfl
  rw [Target.compileLeaf, Target.compileLeaf, samePath]
  cases target.column leaf.path with
  | ok found => exact negates_compileOnColumn target.backend leaf found.1 found.2
  | error error => exact negates_throw error

end ClassStore.Query
