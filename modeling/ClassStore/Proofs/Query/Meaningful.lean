import ClassStore.Proofs.Query.DateFaults

/-!
# Which searches are compiled

A tree that is not read from a text can have leaves of any kind.  `Suits` says which
values an operator can be compiled with, without regard to how it is done; together
with a path that leads to an attribute this is all that a leaf needs
(`fault?_compileLeaf`).

What can go wrong with a search is looked for in a fixed order: its leaves from left to
right, the directions of the order, its paths one after the other, the limit and the
offset.  `error?_compile` is this order as a chain of alternatives, from which both the
searches that are compiled and the error of any other one are read off.
-/

namespace ClassStore.Query

open ClassStore.Catalog
open ClassStore.Date
open ClassStore.Search
open Compiling

/-! ## Operators and their values -/

/-- The operator can be asked of the value. -/
inductive Suits : Operator → Value → Prop where
  | null {comparison : Comparison}
      (isEquality : comparison = .eq ∨ comparison = .ne) :
      Suits (.compare comparison) .null
  | scalar (comparison : Comparison) {value : Scalar}
      (plain : value.variant ≠ .date) :
      Suits (.compare comparison) (.scalar value)
  | dateEquality {comparison : Comparison}
      (isEquality : comparison = .eq ∨ comparison = .ne) (date : PartialDate) :
      Suits (.compare comparison) (.scalar (.date date))
  | dateOrder {comparison : Comparison} {date : PartialDate}
      (isOrdering : comparison = .gt ∨ comparison = .lt ∨ comparison = .ge ∨ comparison = .le)
      (orderable : isOrderable (.date date) = true) :
      Suits (.compare comparison) (.scalar (.date date))
  | pair {low high : Scalar}
      (alike : low.kind = high.kind)
      (lowOrderable : isOrderable low = true)
      (highOrderable : isOrderable high = true) :
      Suits .between (.pair low high)
  | list {values : List Scalar} {variant : ScalarVariant}
      (nonempty : values ≠ [])
      (uniform : ∀ value ∈ values, value.variant = variant) :
      Suits .any (.list values)

theorem isOrderable_date_eq_false_iff {date : PartialDate} :
    isOrderable (.date date) = false ↔
      date.isComplete = false ∧ date.segments.isContiguous = false :=
  Bool.or_eq_false_iff

theorem isOrderable_of_plain
    {value : Scalar}
    (plain : value.variant ≠ .date) :
    isOrderable value = true := by
  cases value with
  | date date => exact absurd rfl plain
  | string | integer | boolean => rfl

theorem isOrdering_iff {comparison : Comparison} :
    comparison.isOrdering = true ↔
      comparison = .gt ∨ comparison = .lt ∨ comparison = .ge ∨ comparison = .le := by
  cases comparison <;> decide

section Leaves

variable
    {path : String}
    {negated : Bool}

/-- A date suits a comparison exactly if it is not refused. -/
theorem suits_compare_date_iff
    {comparison : Comparison}
    {date : PartialDate} :
    Suits (.compare comparison) (.scalar (.date date)) ↔
      ¬IsRefused ⟨path, .compare comparison, negated, .scalar (.date date)⟩ := by
  rw [isRefused_compare_date_iff rfl rfl, ← isOrderable_date_eq_false_iff, isOrdering_iff]
  constructor
  · intro suits refused
    cases suits with
    | scalar _ plain => exact absurd rfl plain
    | dateEquality isEquality => rcases isEquality with rfl | rfl <;> simp at refused
    | dateOrder isOrdering orderable =>
        rcases refused with isPattern | ⟨_, unordered⟩
        · rcases isPattern with rfl | rfl <;> simp at isOrdering
        · rw [orderable] at unordered
          cases unordered
  · intro accepted
    rw [not_or, not_and, Bool.not_eq_false] at accepted
    cases comparison with
    | eq => exact .dateEquality (.inl rfl) date
    | ne => exact .dateEquality (.inr rfl) date
    | like => exact absurd (.inl rfl) accepted.1
    | regex => exact absurd (.inr rfl) accepted.1
    | gt => exact .dateOrder (by simp) (accepted.2 (by simp))
    | lt => exact .dateOrder (by simp) (accepted.2 (by simp))
    | ge => exact .dateOrder (by simp) (accepted.2 (by simp))
    | le => exact .dateOrder (by simp) (accepted.2 (by simp))

/-- Bounds that can be ordered are those that are not refused. -/
theorem isOrderable_bound_iff
    {low high : Scalar}
    (alike : low.kind = high.kind) :
    isOrderable low = true ↔ ¬IsRefused ⟨path, .between, negated, .pair low high⟩ := by
  by_cases dated : low.variant = .date
  · rcases exists_dates_of_kind_eq alike dated with ⟨lowDate, highDate, rfl, rfl, sameSegments⟩
    rw [isRefused_between_dates_iff rfl rfl sameSegments, ← isOrderable_date_eq_false_iff,
      Bool.not_eq_false]
  · have highPlain : high.variant ≠ .date := by
      rwa [Scalar.variant, ← alike]
    have plain : datesOf (.pair low high) = [] := by
      rw [datesOf, date?_eq_none dated, date?_eq_none highPlain]
      rfl
    exact iff_of_true (isOrderable_of_plain dated) (not_isRefused_of_datesOf_eq_nil plain)

end Leaves

/-- An operator suits a value exactly if it takes it and no date in it is refused. -/
theorem suits_iff
    {leaf : Leaf} :
    Suits leaf.operator leaf.value ↔
      leaf.operator.Takes leaf.value ∧ ¬IsRefused leaf := by
  rcases leaf with ⟨path, operator, negated, value⟩
  constructor
  · intro suits
    cases suits with
    | null isEquality => exact ⟨.null isEquality, not_isRefused_of_datesOf_eq_nil rfl⟩
    | scalar comparison plain =>
        refine ⟨.scalar comparison _, not_isRefused_of_datesOf_eq_nil ?_⟩
        rw [datesOf, date?_eq_none plain, Option.toList_none]
    | dateEquality isEquality date =>
        exact ⟨.scalar _ _, suits_compare_date_iff.mp (.dateEquality isEquality date)⟩
    | dateOrder isOrdering orderable =>
        exact ⟨.scalar _ _, suits_compare_date_iff.mp (.dateOrder isOrdering orderable)⟩
    | pair alike lowOrderable =>
        exact ⟨.pair alike, (isOrderable_bound_iff alike).mp lowOrderable⟩
    | list nonempty uniform => exact ⟨.list nonempty uniform, not_isRefused_any rfl⟩
  · rintro ⟨takes, accepted⟩
    cases takes with
    | null isEquality => exact .null isEquality
    | scalar comparison value =>
        by_cases dated : value.variant = .date
        · rcases exists_date_of_variant dated with ⟨date, rfl⟩
          exact suits_compare_date_iff.mpr accepted
        · exact .scalar comparison dated
    | pair alike =>
        have lowOrderable := (isOrderable_bound_iff alike).mpr accepted
        exact .pair alike lowOrderable ((isOrderable_congr alike).symm.trans lowOrderable)
    | list nonempty uniform => exact .list nonempty uniform

/-! ## Leaves -/

/-- The path of the leaf leads to an attribute, and its operator suits its value. -/
structure IsMeaningful (catalog : Catalog) (key : String) (leaf : Leaf) : Prop where
  known : ∃ resolved, catalog.resolvePath? key leaf.path = some resolved
  suits : Suits leaf.operator leaf.value

/-- What a leaf that is not meaningful is refused with: a path goes before a value. -/
inductive RefusedWith (catalog : Catalog) (key : String) (leaf : Leaf) : CompileError → Prop where
  | unknownPath
      (unknown : catalog.resolvePath? key leaf.path = none) :
      RefusedWith catalog key leaf (.unknownAttribute leaf.path key)
  | unsuitable
      (known : ∃ resolved, catalog.resolvePath? key leaf.path = some resolved)
      (unsuitable : ¬Suits leaf.operator leaf.value) (mismatch : Mismatch) :
      RefusedWith catalog key leaf (.typeMismatch leaf.path mismatch)

/-- Alternatives of several variants, or none at all, do not fit. -/
theorem exists_mismatch_compileAny
    (backend : Backend)
    (leaf : Leaf)
    (column : String)
    (type : SemanticType)
    {values : List Scalar}
    (untaken : ¬Operator.any.Takes (.list values)) :
    ∃ mismatch,
      (compileAny backend leaf column type values).result =
        .error (.typeMismatch leaf.path mismatch) := by
  cases values with
  | nil => exact ⟨.noValues, rfl⟩
  | cons first values =>
      have mixed (variant : ScalarVariant) :
          ¬∀ value ∈ first :: values, value.variant = variant :=
        fun uniform => untaken (.list (List.cons_ne_nil first values) uniform)
      have outcome : (compileAny backend leaf column type (first :: values)).result = _ :=
        congrArg Prod.fst (run_compileAny backend leaf column type first values [])
      cases all : allDates? (first :: values) with
      | some dates =>
          refine absurd ?_ (mixed .date)
          rw [eq_map_of_allDates? all, List.forall_mem_map]
          exact fun _ _ => rfl
      | none =>
          cases odd : findOdd? first (first :: values) with
          | none => exact absurd (findOdd?_eq_none_iff.mp odd) (mixed first.variant)
          | some value =>
              rw [all, odd] at outcome
              exact ⟨_, outcome⟩

/-- On a known column, values that the operator does not take do not fit. -/
theorem exists_mismatch_of_not_takes
    (backend : Backend)
    {leaf : Leaf}
    (column : String)
    (type : SemanticType)
    (untaken : ¬leaf.operator.Takes leaf.value) :
    ∃ mismatch,
      (compileOnColumn backend leaf column type).result =
        .error (.typeMismatch leaf.path mismatch) := by
  rcases leaf with ⟨path, operator, negated, value⟩
  cases value with
  | null =>
      cases operator with
      | compare comparison =>
          cases comparison with
          | eq => exact absurd (.null (.inl rfl)) untaken
          | ne => exact absurd (.null (.inr rfl)) untaken
          | like | gt | lt | ge | le | regex => exact ⟨_, rfl⟩
      | between | any => exact ⟨_, rfl⟩
  | scalar value =>
      cases operator with
      | compare comparison => exact absurd (.scalar comparison value) untaken
      | between | any => exact ⟨_, rfl⟩
  | pair low high =>
      cases operator with
      | between =>
          have unlike : low.kind ≠ high.kind := fun alike => untaken (.pair alike)
          exact ⟨_, congrArg Prod.fst
            (run_compileBetween_unlike backend ⟨path, .between, negated, .pair low high⟩
              column type unlike [])⟩
      | compare | any => exact ⟨_, rfl⟩
  | list values =>
      cases operator with
      | any => exact exists_mismatch_compileAny backend _ column type untaken
      | compare | between => exact ⟨_, rfl⟩

/-- A leaf is compiled if it is meaningful, and otherwise it is refused for the reason why it is not. -/
theorem fault?_compileLeaf
    (target : Target)
    (leaf : Leaf) :
    IsMeaningful target.catalog target.key leaf ∧ fault? (target.compileLeaf leaf) = none ∨
      ∃ error,
        RefusedWith target.catalog target.key leaf error ∧
        fault? (target.compileLeaf leaf) = some error := by
  rw [Target.compileLeaf, Target.column]
  cases found : target.catalog.resolvePath? target.key leaf.path with
  | none => exact .inr ⟨_, .unknownPath found, rfl⟩
  | some resolved =>
      simp only
      have known : ∃ resolved, target.catalog.resolvePath? target.key leaf.path = some resolved :=
        ⟨resolved, found⟩
      by_cases takes : leaf.operator.Takes leaf.value
      · cases judged_of_takes target.backend resolved.column resolved.attr.searchType takes with
        | compiled accepted fragment outcome =>
            exact .inl ⟨⟨known, suits_iff.mpr ⟨takes, accepted⟩⟩,
              fault?_eq_none_iff.mpr ⟨fragment, outcome⟩⟩
        | refused isRefused mismatch outcome =>
            have unsuitable : ¬Suits leaf.operator leaf.value :=
              fun suits => (suits_iff.mp suits).2 isRefused
            exact .inr ⟨_, .unsuitable known unsuitable mismatch,
              fault?_eq_some_iff.mpr outcome⟩
      · have unsuitable : ¬Suits leaf.operator leaf.value :=
          fun suits => takes (suits_iff.mp suits).1
        rcases exists_mismatch_of_not_takes target.backend resolved.column
          resolved.attr.searchType takes with ⟨mismatch, outcome⟩
        exact .inr ⟨_, .unsuitable known unsuitable mismatch, fault?_eq_some_iff.mpr outcome⟩

theorem RefusedWith.not_isMeaningful
    {catalog : Catalog}
    {key : String}
    {leaf : Leaf}
    {error : CompileError}
    (refused : RefusedWith catalog key leaf error) :
    ¬IsMeaningful catalog key leaf := by
  intro meaningful
  cases refused with
  | unknownPath unknown =>
      obtain ⟨resolved, found⟩ := meaningful.known
      rw [unknown] at found
      cases found
  | unsuitable _ unsuitable => exact unsuitable meaningful.suits

theorem fault?_compileLeaf_eq_none_iff
    {target : Target}
    {leaf : Leaf} :
    fault? (target.compileLeaf leaf) = none ↔
      IsMeaningful target.catalog target.key leaf := by
  rcases fault?_compileLeaf target leaf with ⟨meaningful, faultless⟩ | ⟨error, refused, fails⟩
  · exact iff_of_true faultless meaningful
  · exact iff_of_false (by simp [fails]) refused.not_isMeaningful

theorem refusedWith_of_fault?
    {target : Target}
    {leaf : Leaf}
    {error : CompileError}
    (fails : fault? (target.compileLeaf leaf) = some error) :
    RefusedWith target.catalog target.key leaf error := by
  rcases fault?_compileLeaf target leaf with ⟨_, faultless⟩ | ⟨other, refused, otherFails⟩
  · rw [faultless] at fails
    cases fails
  · rw [otherFails] at fails
    cases fails
    exact refused

/-! ## Order and extent -/

/-- The error that an outcome is, if it is one. -/
def error? {Output : Type} : Except CompileError Output → Option CompileError
  | .ok _ => none
  | .error error => some error

theorem error?_column
    (target : Target)
    (path : String) :
    error? (target.column path) =
      match target.catalog.resolvePath? target.key path with
      | some _ => none
      | none => some (.unknownAttribute path target.key) := by
  rw [Target.column]
  cases target.catalog.resolvePath? target.key path <;> rfl

theorem error?_column_eq_none_iff
    {target : Target}
    {path : String} :
    error? (target.column path) = none ↔
      ∃ resolved, target.catalog.resolvePath? target.key path = some resolved := by
  rw [error?_column]
  cases target.catalog.resolvePath? target.key path <;> simp

theorem error?_column_eq_some_iff
    {target : Target}
    {path : String}
    {error : CompileError} :
    error? (target.column path) = some error ↔
      target.catalog.resolvePath? target.key path = none ∧
        error = .unknownAttribute path target.key := by
  rw [error?_column]
  cases target.catalog.resolvePath? target.key path <;> simp [eq_comm]

/-- The order fails at the first path that cannot be sorted by. -/
theorem error?_orderTerms
    (target : Target)
    (paths : List String)
    (sortOrders : List SortOrder) :
    error? (target.orderTerms paths sortOrders) =
      paths.findSome? fun path => error? (target.column path) := by
  induction paths generalizing sortOrders with
  | nil => rfl
  | cons path paths inductionHypothesis =>
      have others := inductionHypothesis (sortOrders.drop 1)
      rw [List.findSome?_cons, Target.orderTerms, ← others]
      cases target.column path with
      | error error => rfl
      | ok column => cases target.orderTerms paths (sortOrders.drop 1) <;> rfl

/-- What is wrong with the number of directions, if there are too many. -/
def directionFault? (constraints : Constraints) : Option CompileError :=
  if constraints.orderBy.length < constraints.sortOrder.length then
    some (.constraints
      (.tooManySortOrders constraints.sortOrder.length constraints.orderBy.length))
  else
    none

theorem error?_orderClause
    (target : Target)
    (constraints : Constraints) :
    error? (target.orderClause constraints) =
      (directionFault? constraints).or
        (constraints.orderBy.findSome? fun path => error? (target.column path)) := by
  rw [Target.orderClause, directionFault?]
  split
  · rfl
  · rw [← error?_orderTerms target constraints.orderBy constraints.sortOrder, Option.none_or]
    split
    · next unordered =>
        rw [List.isEmpty_iff.mp unordered]
        rfl
    · cases target.orderTerms constraints.orderBy constraints.sortOrder <;> rfl

/-- The number fits into a signed value. -/
def IsCountable (value : UInt64) : Prop :=
  value.toNat ≤ Int64.maxValue.toInt

instance (value : UInt64) : Decidable (IsCountable value) :=
  inferInstanceAs (Decidable ((_ : Int) ≤ _))

/-- What is wrong with a number of rows, if it is too large. -/
def countFault? (what : String) (value : UInt64) : Option CompileError :=
  if IsCountable value then none else some (.constraints (.outOfRange what value))

theorem countFault?_eq_none_iff
    {what : String}
    {value : UInt64} :
    countFault? what value = none ↔ IsCountable value := by
  simp [countFault?]

theorem countFault?_eq_some_iff
    {what : String}
    {value : UInt64}
    {error : CompileError} :
    countFault? what value = some error ↔
      ¬IsCountable value ∧ error = .constraints (.outOfRange what value) := by
  simp [countFault?, eq_comm]

/-- A number of rows is bound if it fits, and then what follows decides. -/
theorem fault?_bindCount_bind
    (what : String)
    (value : UInt64)
    {following : Compiling String}
    (appends : Appends following) :
    fault? (bindCount what value >>= fun _ => following) =
      (countFault? what value).or (fault? following) := by
  have notNegative : Int64.minValue.toInt ≤ (value.toNat : Int) :=
    Int.le_trans (by decide) (Int.natCast_nonneg _)
  rw [fault?, result_bind fun _ => appends, bindCount, Text.toInt64?, countFault?]
  by_cases isCountable : IsCountable value
  · rw [if_pos ⟨notNegative, isCountable⟩, if_pos isCountable]
    rfl
  · rw [if_neg fun range => isCountable range.2, if_neg isCountable]
    rfl

/-- The limit is looked at before the offset, on every backend. -/
theorem fault?_limitClause
    (backend : Backend)
    (constraints : Constraints) :
    fault? (limitClause backend constraints) =
      (constraints.limit.bind (countFault? "limit")).or
        (constraints.offset.bind (countFault? "offset")) := by
  have last (what clause : String) (value : UInt64) :
      fault? (bindCount what value >>= fun _ => (pure clause : Compiling String)) =
        countFault? what value :=
    (fault?_bindCount_bind what value (appends_pure _)).trans (Option.or_none)
  rcases constraints with ⟨orderBy, sortOrder, limit, offset⟩
  cases limit with
  | none =>
      cases offset with
      | none => rfl
      | some offset =>
          cases backend with
          | postgres => exact last "offset" "OFFSET ?" offset
          | sqlite => exact last "offset" "LIMIT -1 OFFSET ?" offset
  | some limit =>
      cases offset with
      | none => exact (last "limit" "LIMIT ?" limit).trans Option.or_none.symm
      | some offset =>
          refine (fault?_bindCount_bind "limit" limit
            ((appends_bindCount "offset" offset).bind fun _ => appends_pure _)).trans ?_
          exact congrArg _ (last "offset" "LIMIT ? OFFSET ?" offset)

/-! ## Searches -/

/-- The leaves, the order and the extent fail one after the other. -/
theorem error?_compile
    (backend : Backend)
    (catalog : Catalog)
    (key : String)
    (node : Node)
    (constraints : Constraints) :
    error? (compile backend catalog key node constraints) =
      (node.leaves.findSome? fun leaf =>
          fault? (Target.compileLeaf ⟨backend, catalog, key⟩ leaf)).or
        ((error? (Target.orderClause ⟨backend, catalog, key⟩ constraints)).or
          (fault? (limitClause backend constraints))) := by
  rw [compile_eq, ← fault?_compileNode ⟨backend, catalog, key⟩ false node, fault?, fault?]
  cases (Target.compileNode ⟨backend, catalog, key⟩ false node).result with
  | error error => rfl
  | ok fragment =>
      cases Target.orderClause ⟨backend, catalog, key⟩ constraints with
      | error error => rfl
      | ok order => cases (limitClause backend constraints).result <;> rfl

section Constraints

variable
    (catalog : Catalog)
    (key : String)
    (constraints : Constraints)

/-- There is no direction without a path, and every path can be sorted by. -/
structure HasOrder : Prop where
  directions : constraints.sortOrder.length ≤ constraints.orderBy.length
  paths : ∀ path ∈ constraints.orderBy, ∃ resolved, catalog.resolvePath? key path = some resolved

/-- The limit and the offset fit into signed values where they are given. -/
structure HasExtent : Prop where
  limit : ∀ limit, constraints.limit = some limit → IsCountable limit
  offset : ∀ offset, constraints.offset = some offset → IsCountable offset

/-- What is wrong with an order: too many directions go before an unknown path. -/
inductive OrderRefusedWith : CompileError → Prop where
  | tooManyDirections
      (tooMany : constraints.orderBy.length < constraints.sortOrder.length) :
      OrderRefusedWith (.constraints
        (.tooManySortOrders constraints.sortOrder.length constraints.orderBy.length))
  | unknownPath {before after : List String} {path : String}
      (directions : constraints.sortOrder.length ≤ constraints.orderBy.length)
      (split : constraints.orderBy = before ++ path :: after)
      (known : ∀ earlier ∈ before, ∃ resolved, catalog.resolvePath? key earlier = some resolved)
      (unknown : catalog.resolvePath? key path = none) :
      OrderRefusedWith (.unknownAttribute path key)

/-- What is wrong with an extent: the limit goes before the offset. -/
inductive ExtentRefusedWith : CompileError → Prop where
  | limit {limit : UInt64}
      (given : constraints.limit = some limit)
      (tooLarge : ¬IsCountable limit) :
      ExtentRefusedWith (.constraints (.outOfRange "limit" limit))
  | offset {offset : UInt64}
      (fits : ∀ limit, constraints.limit = some limit → IsCountable limit)
      (given : constraints.offset = some offset)
      (tooLarge : ¬IsCountable offset) :
      ExtentRefusedWith (.constraints (.outOfRange "offset" offset))

variable
    (node : Node)

/-- The search is meaningful in all its parts. -/
structure IsCompilable : Prop where
  leaves : ∀ leaf ∈ node.leaves, IsMeaningful catalog key leaf
  order : HasOrder catalog key constraints
  extent : HasExtent constraints

/-- The error is that of the first leaf, or else of the order, or else of the extent. -/
inductive Reports : CompileError → Prop where
  | leaf {before after : List Leaf} {leaf : Leaf} {error : CompileError}
      (split : node.leaves = before ++ leaf :: after)
      (meaningful : ∀ earlier ∈ before, IsMeaningful catalog key earlier)
      (refused : RefusedWith catalog key leaf error) :
      Reports error
  | order {error : CompileError}
      (leaves : ∀ leaf ∈ node.leaves, IsMeaningful catalog key leaf)
      (refused : OrderRefusedWith catalog key constraints error) :
      Reports error
  | extent {error : CompileError}
      (leaves : ∀ leaf ∈ node.leaves, IsMeaningful catalog key leaf)
      (order : HasOrder catalog key constraints)
      (refused : ExtentRefusedWith constraints error) :
      Reports error

end Constraints

section Parts

variable
    {target : Target}
    {constraints : Constraints}

theorem directionFault?_eq_none_iff :
    directionFault? constraints = none ↔
      constraints.sortOrder.length ≤ constraints.orderBy.length := by
  simp [directionFault?]

theorem error?_orderClause_eq_none_iff :
    error? (target.orderClause constraints) = none ↔
      HasOrder target.catalog target.key constraints := by
  rw [error?_orderClause, Option.or_eq_none_iff, List.findSome?_eq_none_iff,
    directionFault?_eq_none_iff]
  simp only [error?_column_eq_none_iff]
  exact ⟨fun ⟨directions, paths⟩ => ⟨directions, paths⟩,
    fun order => ⟨order.directions, order.paths⟩⟩

theorem orderRefusedWith_of_error?
    {error : CompileError}
    (fails : error? (target.orderClause constraints) = some error) :
    OrderRefusedWith target.catalog target.key constraints error := by
  rw [error?_orderClause, Option.or_eq_some_iff, List.findSome?_eq_some_iff,
    directionFault?_eq_none_iff] at fails
  simp only [error?_column_eq_none_iff, error?_column_eq_some_iff] at fails
  rcases fails with fault | ⟨directions, before, path, after, split, ⟨unknown, rfl⟩, known⟩
  · rw [directionFault?] at fault
    split at fault
    · next tooMany =>
        cases fault
        exact .tooManyDirections tooMany
    · cases fault
  · exact .unknownPath directions split known unknown

theorem fault?_limitClause_eq_none_iff
    {backend : Backend} :
    fault? (limitClause backend constraints) = none ↔ HasExtent constraints := by
  rw [fault?_limitClause, Option.or_eq_none_iff]
  simp only [Option.bind_eq_none_iff, countFault?_eq_none_iff]
  exact ⟨fun ⟨limit, offset⟩ => ⟨limit, offset⟩, fun extent => ⟨extent.limit, extent.offset⟩⟩

theorem extentRefusedWith_of_fault?
    {backend : Backend}
    {error : CompileError}
    (fails : fault? (limitClause backend constraints) = some error) :
    ExtentRefusedWith constraints error := by
  rw [fault?_limitClause, Option.or_eq_some_iff] at fails
  simp only [Option.bind_eq_some_iff, Option.bind_eq_none_iff, countFault?_eq_none_iff,
    countFault?_eq_some_iff] at fails
  rcases fails with ⟨limit, given, tooLarge, rfl⟩ | ⟨fits, offset, given, tooLarge, rfl⟩
  · exact .limit given tooLarge
  · exact .offset fits given tooLarge

end Parts

/--
Exactly the meaningful searches are compiled.

On every backend and for every tree, a search is compiled if and only if every leaf has a
path that leads to an attribute and an operator that suits its value, there are no more
directions than paths to sort by, all these paths lead to attributes, and the limit and
the offset fit into signed values.  Any other search fails with the error of the first
part that is wrong: the first leaf in the order of the tree, the directions, the first
path that is sorted by, the limit and the offset.
-/
theorem compiled_iff_isCompilable
    (backend : Backend)
    (catalog : Catalog)
    (key : String)
    (node : Node)
    (constraints : Constraints) :
    ((∃ compiled, compile backend catalog key node constraints = .ok compiled) ↔
        IsCompilable catalog key constraints node) ∧
      ∀ error, compile backend catalog key node constraints = .error error →
        Reports catalog key constraints node error := by
  have chain := error?_compile backend catalog key node constraints
  constructor
  · have succeeds :
        (∃ compiled, compile backend catalog key node constraints = .ok compiled) ↔
          error? (compile backend catalog key node constraints) = none := by
      cases compile backend catalog key node constraints <;> simp [error?]
    rw [succeeds, chain, Option.or_eq_none_iff, Option.or_eq_none_iff,
      List.findSome?_eq_none_iff, error?_orderClause_eq_none_iff, fault?_limitClause_eq_none_iff]
    simp only [fault?_compileLeaf_eq_none_iff]
    exact ⟨fun ⟨leaves, order, extent⟩ => ⟨leaves, order, extent⟩,
      fun compilable => ⟨compilable.leaves, compilable.order, compilable.extent⟩⟩
  · intro error fails
    rw [fails, show error? (.error error : Except CompileError Compiled) = some error from rfl,
      eq_comm, Option.or_eq_some_iff, Option.or_eq_some_iff, List.findSome?_eq_some_iff,
      List.findSome?_eq_none_iff, error?_orderClause_eq_none_iff] at chain
    simp only [fault?_compileLeaf_eq_none_iff] at chain
    rcases chain with ⟨before, leaf, after, split, fault, meaningful⟩ |
      ⟨leaves, fault | ⟨order, fault⟩⟩
    · exact .leaf split meaningful (refusedWith_of_fault? fault)
    · exact .order leaves (orderRefusedWith_of_error? fault)
    · exact .extent leaves order (extentRefusedWith_of_fault? fault)

/-- Books of any title that were printed from a certain year and month on. -/
def printedSince : Node :=
  .group .all
    [.group .any [],
      .leaf ⟨"title", .compare .ne, true, .null⟩,
      .leaf ⟨"printed", .compare .ge, false,
        .scalar (.date ⟨some 1816, some 5, none, none, none, none⟩)⟩]

/-- Books cannot be sorted by a shelf, and this goes before an offset that is too large. -/
theorem printedSince_reports_shelf_on_library :
    ∃ catalog,
      Catalog.build library = .ok catalog ∧
      (∀ leaf ∈ printedSince.leaves, IsMeaningful catalog "book" leaf) ∧
      compile .sqlite catalog "book" printedSince
          ⟨["title", "shelf"], [.descending], none, some 9223372036854775808⟩ =
        .error (.unknownAttribute "shelf" "book") ∧
      Reports catalog "book"
        ⟨["title", "shelf"], [.descending], none, some 9223372036854775808⟩ printedSince
        (.unknownAttribute "shelf" "book") := by
  have checked :
      ((Catalog.build library).toOption.any fun catalog =>
        (compile .sqlite catalog "book" printedSince .none).toOption.isSome &&
          decide (compile .sqlite catalog "book" printedSince
              ⟨["title", "shelf"], [.descending], none, some 9223372036854775808⟩ =
            .error (.unknownAttribute "shelf" "book"))) = true := by
    decide +kernel
  simp only [Option.any_eq_true, Option.isSome_iff_exists, toOption_eq_some_iff,
    Bool.and_eq_true, decide_eq_true_eq] at checked
  obtain ⟨catalog, built, succeeds, fails⟩ := checked
  have compilable := (compiled_iff_isCompilable .sqlite catalog "book" printedSince .none).1.mp
    succeeds
  exact ⟨catalog, built, compilable.leaves, fails,
    (compiled_iff_isCompilable .sqlite catalog "book" printedSince _).2 _ fails⟩

end ClassStore.Query
