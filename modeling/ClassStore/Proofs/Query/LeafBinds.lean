import ClassStore.Proofs.Query.Backends

/-!
# What a leaf binds

A leaf puts its values behind those that are bound already, or it fails and binds
nothing.  The steps that may fail do so before they bind anything, so a computation
of a leaf never leaves half of its values behind (`FailsClean`).

On SQLite the pattern of a leaf has to ask for letter case to be ignored.  It can be
bound with this mark at once, or be bound as it is and marked afterwards by an edit of
whichever value is the last.  The edit is safe because a leaf that asks for a pattern
and succeeds has just bound it (`run_compileThenMark`).
-/

namespace ClassStore.Query

open ClassStore.Catalog
open ClassStore.Search
open Compiling

/-! ## Leaves that fail -/

namespace Compiling

/-- A computation that fails has bound nothing. -/
def FailsClean {Output : Type} (computation : Compiling Output) : Prop :=
  ∀ error, computation.result = .error error → computation.binds = []

theorem failsClean_of_ok
    {Output : Type}
    {computation : Compiling Output}
    {output : Output}
    {values : List Scalar}
    (run : computation.runOn [] = (.ok output, values)) :
    FailsClean computation := by
  intro error fails
  rw [result, run] at fails
  cases fails

theorem failsClean_of_error
    {Output : Type}
    {computation : Compiling Output}
    {error : CompileError}
    (run : computation.runOn [] = (.error error, [])) :
    FailsClean computation :=
  fun _ _ => congrArg Prod.snd run

section Leaves

variable
    (backend : Backend)
    (leaf : Leaf)
    (column : String)
    (type : SemanticType)

theorem failsClean_compileComparison
    (comparison : Comparison)
    (value : Scalar) :
    FailsClean (compileComparison backend leaf column type comparison value) := by
  by_cases dated : value.variant = .date
  · rcases exists_date_of_variant dated with ⟨date, rfl⟩
    have run :
        (compileComparison backend leaf column type comparison (.date date)).runOn [] = _ :=
      run_compileDateComparison backend leaf column comparison date []
    split at run
    · exact failsClean_of_error run
    · split at run
      · exact failsClean_of_ok run
      · split at run
        · exact failsClean_of_error run
        · exact failsClean_of_ok run
  · exact failsClean_of_ok (run_compileComparison backend leaf column type comparison dated [])

theorem failsClean_compileBetween
    (low high : Scalar) :
    FailsClean (compileBetween backend leaf column type low high) := by
  by_cases alike : low.kind = high.kind
  · by_cases dated : low.variant = .date
    · rcases exists_dates_of_kind_eq alike dated with ⟨lowDate, highDate, rfl, rfl, sameSegments⟩
      have run := run_compileBetween_dates backend leaf column type sameSegments []
      rw [run_compilePlainBetween, run_compileDateBetween] at run
      split at run
      · exact failsClean_of_ok run
      · split at run
        · exact failsClean_of_ok run
        · exact failsClean_of_error run
    · have run := run_compileBetween_plain backend leaf column type alike dated []
      rw [run_compilePlainBetween] at run
      exact failsClean_of_ok run
  · exact failsClean_of_error (run_compileBetween_unlike backend leaf column type alike [])

theorem failsClean_compileAny
    (values : List Scalar) :
    FailsClean (compileAny backend leaf column type values) := by
  cases values with
  | nil => exact failsClean_of_error rfl
  | cons first values =>
      have run := run_compileAny backend leaf column type first values []
      split at run
      · rw [run_compileAnyDate] at run
        exact failsClean_of_ok run
      · split at run
        · exact failsClean_of_error run
        · exact failsClean_of_ok run

theorem failsClean_compileOnColumn :
    FailsClean (compileOnColumn backend leaf column type) := by
  rw [compileOnColumn]
  split
  · exact failsClean_of_ok rfl
  · exact failsClean_of_ok rfl
  · exact failsClean_of_error rfl
  · exact failsClean_compileComparison _ _ _ _ _ _
  · exact failsClean_of_error rfl
  · exact failsClean_compileBetween _ _ _ _ _ _
  · exact failsClean_compileAny _ _ _ _ _
  · exact failsClean_of_error rfl

end Leaves

/-- A leaf that is not compiled leaves no values behind. -/
theorem failsClean_compileLeaf
    (target : Target)
    (leaf : Leaf) :
    FailsClean (target.compileLeaf leaf) := by
  rw [Target.compileLeaf]
  split
  · exact failsClean_compileOnColumn _ _ _ _
  · exact failsClean_of_error rfl

end Compiling

/-! ## Patterns -/

/-- The pattern that a leaf asks for, if it is one. -/
def patternOf? (leaf : Leaf) : Option String :=
  match leaf.operator, leaf.value with
  | .compare .regex, .scalar (.string pattern) => some pattern
  | _, _ => none

theorem patternOf?_eq_some_iff
    {leaf : Leaf}
    {pattern : String} :
    patternOf? leaf = some pattern ↔
      leaf.operator = .compare .regex ∧ leaf.value = .scalar (.string pattern) := by
  rw [patternOf?]
  split
  · next asks holds => simp [asks, holds]
  · next other =>
      constructor
      · rintro ⟨⟩
      · rintro ⟨asks, holds⟩
        exact absurd holds (other pattern asks)

/-- A leaf with the operator for patterns that asks for none does not compare with a text. -/
theorem variant_ne_string_of_no_pattern
    {leaf : Leaf}
    (noPattern : patternOf? leaf = none)
    (asks : leaf.operator = .compare .regex)
    {value : Scalar}
    (holds : leaf.value = .scalar value) :
    value.variant ≠ .string := by
  intro isText
  cases value with
  | string text =>
      rw [patternOf?_eq_some_iff.mpr ⟨asks, holds⟩] at noPattern
      cases noPattern
  | integer | boolean | date => cases isText

/-- A pattern is compiled into one comparison of the column, and is the only value bound. -/
theorem run_compileOnColumn_pattern
    (backend : Backend)
    {leaf : Leaf}
    {pattern : String}
    (asks : patternOf? leaf = some pattern)
    (column : String)
    (type : SemanticType)
    (earlier : List Scalar) :
    (compileOnColumn backend leaf column type).runOn earlier =
      (.ok (.compare (.column column false)
        (SqlComparison.ofComparison .regex leaf.negated) (.placeholder false)),
        earlier ++ [comparedValue backend .regex (.string pattern)]) := by
  rcases leaf with ⟨path, operator, negated, value⟩
  obtain ⟨rfl, rfl⟩ := patternOf?_eq_some_iff.mp asks
  have noDate : (Scalar.string pattern).variant ≠ .date := nofun
  have run := run_compileComparison backend
    ⟨path, .compare .regex, negated, .scalar (.string pattern)⟩ column type .regex noDate earlier
  rwa [show (foldsCase type (.string pattern) && Comparison.regex != .regex) = false from
    Bool.and_false _] at run

/-- A leaf that asks for a pattern and is compiled binds one value, which is not a date. -/
theorem exists_binds_of_pattern
    {target : Target}
    {leaf : Leaf}
    {fragment : Fragment}
    (asks : leaf.operator = .compare .regex)
    (compiled : (target.compileLeaf leaf).result = .ok fragment) :
    ∃ value,
      leaf.value = .scalar value ∧
      value.variant ≠ .date ∧
      (target.compileLeaf leaf).binds = [comparedValue target.backend .regex value] := by
  rcases exists_pattern_of_compileLeaf asks compiled with ⟨value, holds, plain⟩
  refine ⟨value, holds, plain, ?_⟩
  rw [(linesUp_compileLeaf compiled).leafBinds leaf List.mem_cons_self, holds, operands, asks,
    List.map_singleton, (boundOperand_of_plain target.backend plain).1]

/-! ## Patterns that are marked afterwards -/

/-- Compiles a leaf whose column is known, and binds a pattern as it is on every backend. -/
def compileUnmarked (backend : Backend) (leaf : Leaf) (column : String) (type : SemanticType) :
    Compiling Fragment :=
  match patternOf? leaf with
  | some pattern => do
      bindValue (boundValue backend (.string pattern))
      pure (.compare (.column column false) (SqlComparison.ofComparison .regex leaf.negated)
        (.placeholder false))
  | none => compileOnColumn backend leaf column type

/-- The last of some values asks for letter case to be ignored, if it is a text. -/
def lastPrefixed (values : List Scalar) : List Scalar :=
  match values.getLast? with
  | some (.string pattern) => values.dropLast ++ [.string ("(?i)" ++ pattern)]
  | _ => values

/-- Marks the value that was bound last, where SQLite asks for a pattern. -/
def markLast (backend : Backend) (operator : Operator) : Compiling Unit :=
  if backend = .sqlite ∧ operator = .compare .regex then modify lastPrefixed else pure ()

/-- Compiles a leaf, and marks a pattern by an edit of the value that was bound last. -/
def Target.compileThenMark (target : Target) (leaf : Leaf) : Compiling Fragment :=
  match target.column leaf.path with
  | .ok (column, type) => do
      let fragment ← compileUnmarked target.backend leaf column type
      markLast target.backend leaf.operator
      pure fragment
  | .error error => throw error

theorem run_markLast
    (backend : Backend)
    (operator : Operator)
    (values : List Scalar) :
    (markLast backend operator).runOn values =
      (.ok (),
        if backend = .sqlite ∧ operator = .compare .regex then lastPrefixed values
        else values) := by
  rw [markLast]
  split <;> rfl

/-- A text is marked once, and nothing in front of it is edited. -/
theorem lastPrefixed_string
    (pattern : String)
    (earlier : List Scalar) :
    lastPrefixed (earlier ++ [.string pattern]) = earlier ++ [.string ("(?i)" ++ pattern)] := by
  rw [lastPrefixed, List.getLast?_concat, List.dropLast_concat]

/-- A value that is no text is not edited. -/
theorem lastPrefixed_of_not_string
    {value : Scalar}
    (plain : value.variant ≠ .string)
    (earlier : List Scalar) :
    lastPrefixed (earlier ++ [value]) = earlier ++ [value] := by
  rw [lastPrefixed, List.getLast?_concat]
  cases value with
  | string text => exact absurd rfl plain
  | integer | boolean | date => rfl

/-- On SQLite no text but a pattern is bound by a leaf that asks for one. -/
theorem variant_comparedValue_sqlite
    {value : Scalar}
    (noDate : value.variant ≠ .date)
    (noText : value.variant ≠ .string) :
    (comparedValue .sqlite .regex value).variant ≠ .string := by
  cases value with
  | date date => exact absurd rfl noDate
  | string text => exact absurd rfl noText
  | integer number => exact nofun
  | boolean truth => exact nofun

/-- After a leaf that is compiled without a pattern no value is edited. -/
theorem run_markLast_of_no_pattern
    {target : Target}
    {leaf : Leaf}
    {fragment : Fragment}
    (noPattern : patternOf? leaf = none)
    (compiled : (target.compileLeaf leaf).result = .ok fragment)
    (earlier : List Scalar) :
    (markLast target.backend leaf.operator).runOn
        (earlier ++ (target.compileLeaf leaf).binds) =
      (.ok (), earlier ++ (target.compileLeaf leaf).binds) := by
  rw [run_markLast]
  split
  · next needsMark =>
      rcases needsMark with ⟨onSqlite, asks⟩
      rcases exists_binds_of_pattern asks compiled with ⟨value, holds, noDate, bound⟩
      have noText : value.variant ≠ .string :=
        variant_ne_string_of_no_pattern noPattern asks holds
      rw [bound, onSqlite, lastPrefixed_of_not_string (variant_comparedValue_sqlite noDate noText)]
  · rfl

/--
A pattern may be marked by an edit of the last value that is bound so far.

Whatever is bound before, the last value is the pattern of the leaf itself if the leaf is
compiled, so that no value of another leaf is edited.  If the leaf fails nothing is edited.
-/
theorem run_compileThenMark
    (target : Target)
    (leaf : Leaf)
    (earlier : List Scalar) :
    (target.compileThenMark leaf).runOn earlier = (target.compileLeaf leaf).runOn earlier := by
  cases found : target.column leaf.path with
  | error error => simp only [Target.compileThenMark, Target.compileLeaf, found]
  | ok columnAndType =>
      rcases columnAndType with ⟨column, type⟩
      have onColumn :
          target.compileLeaf leaf = compileOnColumn target.backend leaf column type := by
        simp only [Target.compileLeaf, found]
      simp only [Target.compileThenMark, found, run_bind, compileUnmarked]
      cases asks : patternOf? leaf with
      | some pattern =>
          have isRegex := (patternOf?_eq_some_iff.mp asks).1
          rw [onColumn, run_compileOnColumn_pattern target.backend asks]
          simp only [run_bind, run_bindValue, run_pure, run_markLast]
          cases target.backend with
          | postgres => rfl
          | sqlite =>
              rw [if_pos ⟨rfl, isRegex⟩]
              exact congrArg (Prod.mk _) (lastPrefixed_string pattern earlier)
      | none =>
          simp only
          rw [← onColumn, appends_compileLeaf target leaf earlier]
          cases outcome : (target.compileLeaf leaf).result with
          | error error => rfl
          | ok fragment => simp only [run_markLast_of_no_pattern asks outcome, run_pure]

/-! ## Leaves -/

/-- What a leaf results in and binds, whatever is bound before, on each backend. -/
structure OnlyAppends (catalog : Catalog) (key : String) (leaf : Leaf)
    (outcome : Except CompileError Fragment) (added : Backend → List Scalar) : Prop where
  run : ∀ backend earlier,
    (Target.compileLeaf ⟨backend, catalog, key⟩ leaf).runOn earlier =
      (outcome, earlier ++ added backend)
  failed : ∀ error, outcome = .error error → ∀ backend, added backend = []
  marked : ∀ fragment pattern,
    outcome = .ok fragment → patternOf? leaf = some pattern →
      added .postgres = [.string pattern] ∧ added .sqlite = [.string ("(?i)" ++ pattern)]
  unmarked : patternOf? leaf = none →
    added .sqlite = (added .postgres).map (boundValue .sqlite)
  edited : ∀ backend earlier,
    (Target.compileThenMark ⟨backend, catalog, key⟩ leaf).runOn earlier =
      (outcome, earlier ++ added backend)

section Leaves

variable
    {catalog : Catalog}
    {key : String}
    {leaf : Leaf}

/-- Without a pattern a leaf binds on SQLite what every value is there. -/
theorem binds_compileLeaf_of_no_pattern
    {fragment : Fragment}
    (noPattern : patternOf? leaf = none)
    (compiled : (Target.compileLeaf ⟨.postgres, catalog, key⟩ leaf).result = .ok fragment) :
    (Target.compileLeaf ⟨.sqlite, catalog, key⟩ leaf).binds =
      (Target.compileLeaf ⟨.postgres, catalog, key⟩ leaf).binds.map (boundValue .sqlite) := by
  rw [binds_compileLeaf_sqlite compiled]
  by_cases asks : leaf.operator = .compare .regex
  · rcases exists_binds_of_pattern asks compiled with ⟨value, holds, noDate, bound⟩
    have noText : value.variant ≠ .string :=
      variant_ne_string_of_no_pattern noPattern asks holds
    rw [bound, List.map_singleton, List.map_singleton]
    cases value with
    | date date => exact absurd rfl noDate
    | string text => exact absurd rfl noText
    | integer | boolean => rfl
  · exact List.map_congr_left fun value _ => sqliteForm_eq_boundValue asks value

/-- A pattern of a leaf that is compiled is bound alone, and on SQLite it is marked. -/
theorem binds_compileLeaf_of_pattern
    {backend : Backend}
    {fragment : Fragment}
    {pattern : String}
    (isPattern : patternOf? leaf = some pattern)
    (compiled : (Target.compileLeaf ⟨backend, catalog, key⟩ leaf).result = .ok fragment) :
    (Target.compileLeaf ⟨backend, catalog, key⟩ leaf).binds =
      [comparedValue backend .regex (.string pattern)] := by
  obtain ⟨asks, holds⟩ := patternOf?_eq_some_iff.mp isPattern
  rcases exists_binds_of_pattern asks compiled with ⟨value, same, _, bound⟩
  rw [holds] at same
  cases same
  exact bound

end Leaves

/--
The compilation of a leaf only appends.

On either backend and whatever is bound before, a leaf is compiled into the same
fragment and puts the same values behind the others, or it fails with the same error and
leaves what is bound as it is.  The two backends agree on the fragment and on the error.
If the leaf asks for a pattern and is compiled, the pattern is the one value that it
binds, and on SQLite this carries the mark for ignoring letter case; all other values are
bound there in the form that SQLite has for them.  An edit of the last value that is
bound so far gives the same.
-/
theorem compileLeaf_onlyAppends
    (catalog : Catalog)
    (key : String)
    (leaf : Leaf) :
    ∃ outcome added, OnlyAppends catalog key leaf outcome added := by
  have outcomes (backend : Backend) :
      (Target.compileLeaf ⟨backend, catalog, key⟩ leaf).result =
        (Target.compileLeaf ⟨.postgres, catalog, key⟩ leaf).result :=
    result_compileLeaf_eq backend .postgres leaf
  have run (backend : Backend) (earlier : List Scalar) :
      (Target.compileLeaf ⟨backend, catalog, key⟩ leaf).runOn earlier =
        ((Target.compileLeaf ⟨.postgres, catalog, key⟩ leaf).result,
          earlier ++ (Target.compileLeaf ⟨backend, catalog, key⟩ leaf).binds) := by
    rw [appends_compileLeaf, outcomes backend]
  have failed (error : CompileError)
      (fails : (Target.compileLeaf ⟨.postgres, catalog, key⟩ leaf).result = .error error)
      (backend : Backend) :
      (Target.compileLeaf ⟨backend, catalog, key⟩ leaf).binds = [] :=
    failsClean_compileLeaf _ leaf error ((outcomes backend).trans fails)
  refine ⟨_, fun backend => (Target.compileLeaf ⟨backend, catalog, key⟩ leaf).binds,
    run, failed, ?_, ?_, fun backend earlier => ?_⟩
  · intro fragment pattern compiled isPattern
    exact ⟨binds_compileLeaf_of_pattern isPattern compiled,
      binds_compileLeaf_of_pattern isPattern ((outcomes .sqlite).trans compiled)⟩
  · intro noPattern
    cases outcome : (Target.compileLeaf ⟨.postgres, catalog, key⟩ leaf).result with
    | error error =>
        simp only [failed error outcome]
        rfl
    | ok fragment => exact binds_compileLeaf_of_no_pattern noPattern outcome
  · rw [run_compileThenMark, run]

/-- Books with a title that begins with an a, in capitals or not. -/
def titleFromA : Leaf :=
  ⟨"title", .compare .regex, false, .scalar (.string "^a")⟩

/-- Behind another text only the pattern is marked, and only on SQLite. -/
theorem titleFromA_marked_on_library :
    ∃ catalog fragment,
      Catalog.build library = .ok catalog ∧
      (Target.compileLeaf ⟨.postgres, catalog, "book"⟩ titleFromA).runOn [.string "b"] =
        (.ok fragment, [.string "b", .string "^a"]) ∧
      (Target.compileThenMark ⟨.sqlite, catalog, "book"⟩ titleFromA).runOn [.string "b"] =
        (.ok fragment, [.string "b", .string "(?i)^a"]) := by
  have checked :
      ((Catalog.build library).toOption.any fun catalog =>
        (Target.compileLeaf ⟨.postgres, catalog, "book"⟩ titleFromA).result.toOption.isSome) =
          true := by
    decide +kernel
  simp only [Option.any_eq_true, Option.isSome_iff_exists, toOption_eq_some_iff] at checked
  obtain ⟨catalog, built, fragment, compiled⟩ := checked
  obtain ⟨outcome, added, appends⟩ := compileLeaf_onlyAppends catalog "book" titleFromA
  have same : outcome = .ok fragment := by
    rw [result, appends.run] at compiled
    exact compiled
  subst same
  obtain ⟨onPostgres, onSqlite⟩ := appends.marked fragment "^a" rfl rfl
  refine ⟨catalog, fragment, built, ?_, ?_⟩
  · rw [appends.run, onPostgres]
    rfl
  · rw [appends.edited, onSqlite]
    rfl

end ClassStore.Query
