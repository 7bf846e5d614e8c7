import ClassStore.Query.Compile

/-!
# Computations that bind values

A compiling computation is run on the values that are bound already.  The first
part says what each step of compiling a leaf does: it fails and leaves these
values alone, or it gives a fragment and puts its own values behind them.

`Compiling.Appends` says that earlier values have no influence.  A computation
of this kind is described by its result and by the values that it binds on its
own, and `result_bind` and `binds_bind` compute a sequence of such computations.
-/

namespace ClassStore.Query

open ClassStore.Catalog
open ClassStore.Date
open ClassStore.Search

namespace Compiling

variable {Input Output : Type}

/-- What a computation results in when it is run on values bound earlier, and what is bound then. -/
def runOn (computation : Compiling Output) (earlier : List Scalar) :
    Except CompileError Output × List Scalar :=
  computation.run.run earlier

/-- One computation after another is run on the values that the first has left. -/
theorem run_bind
    (first : Compiling Input)
    (following : Input → Compiling Output)
    (earlier : List Scalar) :
    (first >>= following).runOn earlier =
      match first.runOn earlier with
      | (.ok input, later) => (following input).runOn later
      | (.error error, later) => (.error error, later) := by
  rcases step : first.runOn earlier with ⟨outcome, later⟩
  simp only [runOn, bind, ExceptT.bind, ExceptT.bindCont, ExceptT.run, ExceptT.mk, StateT.run,
    StateT.bind] at step ⊢
  rw [step]
  cases outcome <;> rfl

@[simp]
theorem run_pure (output : Output) (earlier : List Scalar) :
    (pure output : Compiling Output).runOn earlier = (.ok output, earlier) :=
  rfl

@[simp]
theorem run_throw (error : CompileError) (earlier : List Scalar) :
    (throw error : Compiling Output).runOn earlier = (.error error, earlier) :=
  rfl

/-- An outcome that needs no values leaves the bound ones alone. -/
@[simp]
theorem run_outcome (outcome : Except CompileError Output) (earlier : List Scalar) :
    runOn (ExceptT.mk (pure outcome)) earlier = (outcome, earlier) :=
  rfl

@[simp]
theorem run_bindValue (value : Scalar) (earlier : List Scalar) :
    (bindValue value).runOn earlier = (.ok (), earlier ++ [value]) :=
  rfl

@[simp]
theorem run_mismatched (leaf : Leaf) (mismatch : Mismatch) (earlier : List Scalar) :
    (mismatched leaf mismatch : Compiling Output).runOn earlier =
      (.error (.typeMismatch leaf.path mismatch), earlier) :=
  rfl

@[simp]
theorem run_bindValues (values earlier : List Scalar) :
    (bindValues values).runOn earlier = (.ok (), earlier ++ values) := by
  induction values generalizing earlier with
  | nil => simp only [bindValues, run_pure, List.append_nil]
  | cons value values inductionHypothesis =>
      simp only [bindValues, run_bind, run_bindValue, inductionHypothesis, List.append_assoc,
        List.singleton_append]

end Compiling

open Compiling

/-! ## What the steps of a leaf do -/

theorem run_compileDateComparison
    (backend : Backend)
    (leaf : Leaf)
    (column : String)
    (comparison : Comparison)
    (date : PartialDate)
    (earlier : List Scalar) :
    (compileDateComparison backend leaf column comparison date).runOn earlier =
      if comparison = .like ∨ comparison = .regex then
        (.error (.typeMismatch leaf.path (.dateOperand (.compare comparison))), earlier)
      else if date.isComplete then
        (.ok (.compare (.column column false)
          (SqlComparison.ofComparison comparison leaf.negated) (.placeholder false)),
          earlier ++ [boundValue backend (.date date)])
      else if comparison.isOrdering && !date.segments.isContiguous then
        (.error (.typeMismatch leaf.path (.brokenSegments (.compare comparison) date.segments)),
          earlier)
      else
        (.ok (.compare (.datePart column date.segments)
          (SqlComparison.ofComparison comparison leaf.negated) (.placeholder false)),
          earlier ++ [.string date.segmentText]) := by
  rw [compileDateComparison]
  split
  · rfl
  · split
    · rfl
    · split <;> rfl

theorem run_compileComparison
    (backend : Backend)
    (leaf : Leaf)
    (column : String)
    (type : SemanticType)
    (comparison : Comparison)
    {value : Scalar}
    (plain : value.variant ≠ .date)
    (earlier : List Scalar) :
    (compileComparison backend leaf column type comparison value).runOn earlier =
      (.ok (.compare (.column column (foldsCase type value && comparison != .regex))
        (SqlComparison.ofComparison comparison leaf.negated)
        (.placeholder (foldsCase type value && comparison != .regex))),
        earlier ++ [comparedValue backend comparison value]) := by
  cases value with
  | date date => exact absurd rfl plain
  | string text => rfl
  | integer number => rfl
  | boolean truth => rfl

theorem run_compilePlainBetween
    (backend : Backend)
    (leaf : Leaf)
    (column : String)
    (type : SemanticType)
    (low high : Scalar)
    (earlier : List Scalar) :
    (compilePlainBetween backend leaf column type low high).runOn earlier =
      (.ok (.between (.column column (foldsCase type low)) (.placeholder (foldsCase type low))
        (.placeholder (foldsCase type low)) leaf.negated),
        earlier ++ [boundValue backend low, boundValue backend high]) := by
  simp only [compilePlainBetween, run_bind, run_bindValues, run_pure]

theorem run_compileDateBetween
    (leaf : Leaf)
    (column : String)
    (low high : PartialDate)
    (earlier : List Scalar) :
    (compileDateBetween leaf column low high).runOn earlier =
      if low.segments.isContiguous then
        (.ok (.between (.datePart column low.segments) (.placeholder false) (.placeholder false)
          leaf.negated),
          earlier ++ [.string low.segmentText, .string high.segmentText])
      else
        (.error (.typeMismatch leaf.path (.brokenSegments .between low.segments)), earlier) := by
  rw [compileDateBetween]
  split
  · simp only [run_bind, run_bindValues, run_pure]
  · rfl

/-- Bounds of different kinds are refused. -/
theorem run_compileBetween_unlike
    (backend : Backend)
    (leaf : Leaf)
    (column : String)
    (type : SemanticType)
    {low high : Scalar}
    (unlike : low.kind ≠ high.kind)
    (earlier : List Scalar) :
    (compileBetween backend leaf column type low high).runOn earlier =
      (.error (.typeMismatch leaf.path (.unlikeBounds low.kind high.kind)), earlier) := by
  unfold compileBetween
  rw [if_pos unlike]
  rfl

/-- Dates with the same segments are compared as a whole if they have all of them. -/
theorem run_compileBetween_dates
    (backend : Backend)
    (leaf : Leaf)
    (column : String)
    (type : SemanticType)
    {low high : PartialDate}
    (alike : low.segments = high.segments)
    (earlier : List Scalar) :
    (compileBetween backend leaf column type (.date low) (.date high)).runOn earlier =
      if low.isComplete then
        (compilePlainBetween backend leaf column type (.date low) (.date high)).runOn earlier
      else
        (compileDateBetween leaf column low high).runOn earlier := by
  have sameKind : (Scalar.date low).kind = (Scalar.date high).kind := by
    simp [Scalar.kind, alike]
  simp only [compileBetween, sameKind, ne_eq, not_true_eq_false, if_false]
  split <;> rfl

/-- Other values of one kind are compared as they are. -/
theorem run_compileBetween_plain
    (backend : Backend)
    (leaf : Leaf)
    (column : String)
    (type : SemanticType)
    {low high : Scalar}
    (alike : low.kind = high.kind)
    (plain : low.variant ≠ .date)
    (earlier : List Scalar) :
    (compileBetween backend leaf column type low high).runOn earlier =
      (compilePlainBetween backend leaf column type low high).runOn earlier := by
  simp only [compileBetween, alike, ne_eq, not_true_eq_false, if_false]
  cases low with
  | date date => exact absurd rfl plain
  | string text => rfl
  | integer number => rfl
  | boolean truth => rfl

/-- The condition that a column agrees with one of some dates with the same segments. -/
def dateGroupFragment (leaf : Leaf) (column : String)
    (group : SegmentSet × List PartialDate) : Fragment :=
  .among
    (if group.1 = SegmentSet.full then .column column false else .datePart column group.1)
    (placeholders group.2.length false) leaf.negated

/-- The values that some dates with the same segments are bound as. -/
def dateGroupBinds (backend : Backend) (group : SegmentSet × List PartialDate) : List Scalar :=
  if group.1 = SegmentSet.full then
    group.2.map fun date => boundValue backend (.date date)
  else
    group.2.map fun date => .string date.segmentText

theorem run_compileDateGroup
    (backend : Backend)
    (leaf : Leaf)
    (column : String)
    (group : SegmentSet × List PartialDate)
    (earlier : List Scalar) :
    (compileDateGroup backend leaf column group.1 group.2).runOn earlier =
      (.ok (dateGroupFragment leaf column group), earlier ++ dateGroupBinds backend group) := by
  rw [compileDateGroup, dateGroupFragment, dateGroupBinds]
  split <;> simp only [run_bind, run_bindValues, run_pure]

theorem run_compileDateGroups
    (backend : Backend)
    (leaf : Leaf)
    (column : String)
    (groups : List (SegmentSet × List PartialDate))
    (earlier : List Scalar) :
    (compileDateGroups backend leaf column groups).runOn earlier =
      (.ok (groups.map (dateGroupFragment leaf column)),
        earlier ++ groups.flatMap (dateGroupBinds backend)) := by
  induction groups generalizing earlier with
  | nil => simp [compileDateGroups]
  | cons group groups inductionHypothesis =>
      simp only [compileDateGroups, run_bind, run_compileDateGroup, inductionHypothesis, run_pure,
        List.map_cons, List.flatMap_cons, List.append_assoc]

/-- The condition that some groups of dates make together; a single one stands alone. -/
def anyDateFragment (leaf : Leaf) (fragments : List Fragment) : Fragment :=
  match fragments with
  | [fragment] => fragment
  | fragments => .group (if leaf.negated then .all else .any) fragments true

theorem run_compileAnyDate
    (backend : Backend)
    (leaf : Leaf)
    (column : String)
    (dates : List PartialDate)
    (earlier : List Scalar) :
    (compileAnyDate backend leaf column dates).runOn earlier =
      (.ok (anyDateFragment leaf
          ((groupBySegments dates).map (dateGroupFragment leaf column))),
        earlier ++ (groupBySegments dates).flatMap (dateGroupBinds backend)) := by
  simp only [compileAnyDate, run_bind, run_compileDateGroups, anyDateFragment]
  generalize (groupBySegments dates).map (dateGroupFragment leaf column) = fragments
  rcases fragments with _ | ⟨fragment, _ | ⟨following, fragments⟩⟩ <;> rfl

/-- Dates are grouped; other values have to be of one variant. -/
theorem run_compileAny
    (backend : Backend)
    (leaf : Leaf)
    (column : String)
    (type : SemanticType)
    (first : Scalar)
    (values : List Scalar)
    (earlier : List Scalar) :
    (compileAny backend leaf column type (first :: values)).runOn earlier =
      match allDates? (first :: values) with
      | some dates => (compileAnyDate backend leaf column dates).runOn earlier
      | none =>
          match findOdd? first (first :: values) with
          | some odd =>
              (.error (.typeMismatch leaf.path (.mixedValues first.kind odd.kind)), earlier)
          | none =>
              (.ok (.among (.column column (foldsCase type first))
                (placeholders (first :: values).length (foldsCase type first)) leaf.negated),
                earlier ++ (first :: values).map (boundValue backend)) := by
  simp only [compileAny]
  cases allDates? (first :: values) with
  | some dates => rfl
  | none =>
      cases findOdd? first (first :: values) with
      | some odd => rfl
      | none => simp only [run_bind, run_bindValues, run_pure]

/-! ## Sequences of computations -/

namespace Compiling

variable {Input Output : Type}

/-- The result of a computation begun without bound values. -/
def result (computation : Compiling Output) : Except CompileError Output :=
  (computation.runOn []).1

/-- The values that a computation binds on its own. -/
def binds (computation : Compiling Output) : List Scalar :=
  (computation.runOn []).2

/-- The values bound earlier have no influence, and those of the computation come behind them. -/
def Appends (computation : Compiling Output) : Prop :=
  ∀ earlier, computation.runOn earlier =
    (computation.result, earlier ++ computation.binds)

/-- A computation appends if it does the same to any earlier values. -/
theorem Appends.of_run
    {computation : Compiling Output}
    {outcome : Except CompileError Output}
    {values : List Scalar}
    (run : ∀ earlier, computation.runOn earlier = (outcome, earlier ++ values)) :
    Appends computation := by
  intro earlier
  simp [result, binds, run]

theorem appends_pure (output : Output) : Appends (pure output : Compiling Output) :=
  fun earlier => by simp [result, binds]

theorem appends_throw (error : CompileError) :
    Appends (throw error : Compiling Output) :=
  fun earlier => by simp [result, binds]

theorem appends_bindValue (value : Scalar) : Appends (bindValue value) :=
  .of_run (run_bindValue value)

/-- The result of the second computation decides if the first one succeeds. -/
theorem result_bind
    {first : Compiling Input}
    {following : Input → Compiling Output}
    (appends : ∀ input, Appends (following input)) :
    result (first >>= following) =
      first.result.bind fun input => (following input).result := by
  rcases step : first.runOn [] with ⟨outcome, later⟩
  cases outcome with
  | error error => simp [result, run_bind, step, Except.bind]
  | ok input =>
      have second := appends input later
      simp [result, run_bind, step, Except.bind, second]

/-- The values of the second computation come behind those of the first if that succeeds. -/
theorem binds_bind
    {first : Compiling Input}
    {following : Input → Compiling Output}
    (appends : ∀ input, Appends (following input)) :
    binds (first >>= following) =
      match first.result with
      | .ok input => first.binds ++ (following input).binds
      | .error _ => first.binds := by
  rcases step : first.runOn [] with ⟨outcome, later⟩
  cases outcome with
  | error error => simp [binds, result, run_bind, step]
  | ok input =>
      have second := appends input later
      simp [binds, result, run_bind, step, second]

/-- A sequence of computations that append appends. -/
theorem Appends.bind
    {first : Compiling Input}
    {following : Input → Compiling Output}
    (firstAppends : Appends first)
    (appends : ∀ input, Appends (following input)) :
    Appends (first >>= following) := by
  intro earlier
  rw [run_bind, firstAppends earlier, result_bind appends, binds_bind appends]
  cases first.result with
  | error error => rfl
  | ok input => simp [appends input _, Except.bind]

end Compiling

end ClassStore.Query
