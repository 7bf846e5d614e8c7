import ClassStore.Proofs.Date.Chronology
import ClassStore.Proofs.Query.Alternatives

/-!
# Dates in the order of time

SQLite has no dates.  A date with all segments is bound as the text of the point of time
that it denotes, rows hold such texts, and texts are compared character by character.
So a search for dates selects rows by time as long as the texts of the years are in the
order of the years, and no longer: a date with a year of more than four digits, which
only comes from a conversion, is bound as a text that comes before the texts of all dates
in shorter years (`DateTime.compare_text_of_long`).
-/

namespace ClassStore.Query

open ClassStore.Catalog
open ClassStore.Date
open ClassStore.Search

/-! ## Comparing texts -/

/-- A database that compares texts character by character. -/
structure TextDatabase (Datum : Type) where
  meaning : Interpretation Datum
  bind : Scalar → Option Datum
  datum : String → Datum
  bind_string : ∀ text, bind (.string text) = some (datum text)
  equal_datum : ∀ text other,
    meaning.equal (datum text) (datum other) = (compare text other).isEq
  less_datum : ∀ text other,
    meaning.less (datum text) (datum other) = (compare text other).isLT

/-- What a comparison asks of the order of two things; a pattern asks for more than the order. -/
def accepts : Comparison → Ordering → Bool
  | .eq, order => order.isEq
  | .ne, order => order.isNe
  | .gt, order => order.isGT
  | .lt, order => order.isLT
  | .ge, order => order.isGE
  | .le, order => order.isLE
  | .like, _ => false
  | .regex, _ => false

/-- At least the one and at most the other: two comparisons hold together. -/
theorem both_accepts (low value high : Nat) :
    Truth.both (.ofBool (accepts .ge (compare value low)))
        (.ofBool (accepts .le (compare value high))) =
      .ofBool (low ≤ value ∧ value ≤ high) := by
  have least : accepts .ge (compare value low) = decide (low ≤ value) := by
    rw [Bool.eq_iff_iff, decide_eq_true_iff]
    exact Nat.isGE_compare
  have greatest : accepts .le (compare value high) = decide (value ≤ high) := by
    rw [Bool.eq_iff_iff, decide_eq_true_iff]
    exact Nat.isLE_compare
  rw [least, greatest, Bool.decide_and]
  cases decide (low ≤ value) <;> cases decide (value ≤ high) <;> rfl

namespace TextDatabase

variable {Datum : Type} (database : TextDatabase Datum)

theorem holds_ofComparison
    {comparison : Comparison}
    (literal : comparison ≠ .like ∧ comparison ≠ .regex)
    (text other : String) :
    (SqlComparison.ofComparison comparison false).holds database.meaning (database.datum text)
        (database.datum other) =
      accepts comparison (compare text other) := by
  have swapped : compare other text = (compare text other).swap := Std.OrientedOrd.eq_swap
  cases comparison <;>
    simp only [SqlComparison.ofComparison, SqlComparison.holds, database.equal_datum,
      database.less_datum, accepts, swapped] <;>
    first
      | cases compare text other <;> rfl
      | simp at literal

/-- A comparison of texts, or its negation, is decided by their order. -/
theorem truth_ofComparison
    {comparison : Comparison}
    (literal : comparison ≠ .like ∧ comparison ≠ .regex)
    (negated : Bool)
    (text other : String) :
    (SqlComparison.ofComparison comparison negated).truth database.meaning
        (some (database.datum text)) (some (database.datum other)) =
      .negateIf negated (.ofBool (accepts comparison (compare text other))) := by
  have positive :
      (SqlComparison.ofComparison comparison false).truth database.meaning
          (some (database.datum text)) (some (database.datum other)) =
        .ofBool (accepts comparison (compare text other)) := by
    rw [← holds_ofComparison database literal]
    rfl
  cases negated with
  | false => exact positive
  | true =>
      rw [← Bool.not_false, SqlComparison.truth_ofComparison_not, positive]
      rfl

end TextDatabase

/-! ## Dates as texts -/

theorem boundValue_of_toDateTime?
    {date : PartialDate}
    {moment : DateTime}
    (denotes : date.toDateTime? = some moment) :
    boundValue .sqlite (.date date) = .string (moment.text " ") := by
  rw [boundValue, denotes]

theorem boundOperand_of_isComplete
    {date : PartialDate}
    (complete : date.isComplete = true)
    (backend : Backend)
    (operator : Operator) :
    boundOperand backend operator (.date date) = boundValue backend (.date date) := by
  rw [boundOperand, if_pos complete]

theorem comparedSide_of_isComplete
    {date : PartialDate}
    (complete : date.isComplete = true)
    (column : String)
    (type : SemanticType) :
    comparedSide column type (.date date) = .column column false := by
  rw [comparedSide, if_pos complete]

theorem isComplete_of_denotes
    {date : PartialDate}
    {moment : DateTime}
    (denotes : date.toDateTime? = some moment) :
    date.isComplete = true := by
  apply PartialDate.isComplete_of_toDateTime?
  rw [denotes]
  rfl

theorem isOrderable_of_isComplete
    {date : PartialDate}
    (complete : date.isComplete = true) :
    isOrderable (.date date) = true := by
  rw [isOrderable, complete, Bool.true_or]

theorem kind_eq_of_isComplete
    {date other : PartialDate}
    (complete : date.isComplete = true)
    (otherComplete : other.isComplete = true) :
    (Scalar.date date).kind = (Scalar.date other).kind := by
  rw [PartialDate.isComplete, beq_iff_eq] at complete otherComplete
  rw [Scalar.kind, Scalar.kind, complete, otherComplete]

/--
Of every row that holds a date in the column, the condition says what is said of its time.

The texts of the years of that date and of the bounds are in the order of the years.
-/
def SelectsByTime (column : String) (bounds : List DateTime) (fragment : Fragment)
    (binds : List Scalar) (truth : DateTime → Truth) : Prop :=
  ∀ (Datum : Type) (database : TextDatabase Datum) (row : String → Option Datum)
    (stored : PartialDate) (moment : DateTime),
    stored.Reachable → stored.toDateTime? = some moment →
    (∀ bound ∈ bounds, DateTime.YearsInOrder moment.year bound.year) →
    row column = database.bind (boundValue .sqlite (.date stored)) →
    (fragment.truth database.meaning row (binds.map database.bind)).1 = truth moment

section

variable {date : PartialDate} {moment : DateTime} (reachable : date.Reachable)
  (denotes : date.toDateTime? = some moment)

include reachable denotes

/-- A stored date is compared with a bound one by time. -/
theorem truth_ofComparison_dates
    {Datum : Type}
    (database : TextDatabase Datum)
    {stored : PartialDate}
    {storedMoment : DateTime}
    (storedReachable : stored.Reachable)
    (storedDenotes : stored.toDateTime? = some storedMoment)
    (inOrder : DateTime.YearsInOrder storedMoment.year moment.year)
    {comparison : Comparison}
    (literal : comparison ≠ .like ∧ comparison ≠ .regex)
    (negated : Bool) :
    (SqlComparison.ofComparison comparison negated).truth database.meaning
        (database.bind (boundValue .sqlite (.date stored)))
        (database.bind (boundValue .sqlite (.date date))) =
      .negateIf negated
        (.ofBool (accepts comparison (compare storedMoment.elapsed moment.elapsed))) := by
  obtain ⟨isReal, notNegative⟩ := reachable.isReal_of_toDateTime? denotes
  obtain ⟨storedIsReal, storedNotNegative⟩ := storedReachable.isReal_of_toDateTime? storedDenotes
  have ordered :=
    (DateTime.compare_text_iff storedIsReal isReal storedNotNegative notNegative " ").mpr inOrder
  rw [boundValue_of_toDateTime? denotes, boundValue_of_toDateTime? storedDenotes,
    database.bind_string, database.bind_string, database.truth_ofComparison literal, ordered]

section

variable {target : Target} {path column : String} {type : SemanticType}
  (isSqlite : target.backend = .sqlite) (found : target.column path = .ok (column, type))

include isSqlite found

/-- A leaf that compares a path with a date is compiled into a condition on the time. -/
theorem exists_comparison_by_time
    {comparison : Comparison}
    (literal : comparison ≠ .like ∧ comparison ≠ .regex)
    (negated : Bool) :
    ∃ fragment,
      Compiles (target.compileLeaf ⟨path, .compare comparison, negated, .scalar (.date date)⟩)
        fragment [boundValue .sqlite (.date date)] ∧
      SelectsByTime column [moment] fragment [boundValue .sqlite (.date date)] fun stored =>
        .negateIf negated (.ofBool (accepts comparison (compare stored.elapsed moment.elapsed))) := by
  have complete := isComplete_of_denotes denotes
  have orderable : isOrderable (.date date) = true := isOrderable_of_isComplete complete
  have compiles := compiles_comparisonLeaf found negated literal fun _ => orderable
  rw [comparisonFragment, comparedSide_of_isComplete complete, foldsCase_date,
    boundOperand_of_isComplete complete, isSqlite] at compiles
  refine ⟨_, compiles, ?_⟩
  intro Datum database row stored storedMoment storedReachable storedDenotes inOrder holds
  have isSubject : (Fragment.column column false).IsSubject := trivial
  rw [List.map_singleton, Fragment.truth_compare_placeholder database.meaning row isSubject]
  change (SqlComparison.ofComparison comparison negated).truth database.meaning (row column)
    (database.bind _) = _
  rw [holds]
  exact truth_ofComparison_dates reachable denotes database storedReachable storedDenotes
    (inOrder moment List.mem_cons_self) literal negated

/-- A leaf with a range of dates is compiled into a condition on the time. -/
theorem exists_between_by_time
    {high : PartialDate}
    {highMoment : DateTime}
    (highReachable : high.Reachable)
    (highDenotes : high.toDateTime? = some highMoment)
    (negated : Bool) :
    ∃ fragment,
      Compiles
        (target.compileLeaf ⟨path, .between, negated, .pair (.date date) (.date high)⟩) fragment
        [boundValue .sqlite (.date date), boundValue .sqlite (.date high)] ∧
      SelectsByTime column [moment, highMoment] fragment
        [boundValue .sqlite (.date date), boundValue .sqlite (.date high)] fun stored =>
        .negateIf negated
          (.ofBool (moment.elapsed ≤ stored.elapsed ∧ stored.elapsed ≤ highMoment.elapsed)) := by
  have complete := isComplete_of_denotes denotes
  have highComplete := isComplete_of_denotes highDenotes
  have alike : (Scalar.date date).kind = (Scalar.date high).kind :=
    kind_eq_of_isComplete complete highComplete
  have compiles :=
    compiles_compileBetween target.backend
      ⟨path, .between, negated, .pair (.date date) (.date high)⟩ column type alike
      (isOrderable_of_isComplete complete)
  rw [comparedSide_of_isComplete complete, foldsCase_date, boundOperand_of_isComplete complete,
    boundOperand_of_isComplete highComplete, isSqlite] at compiles
  rw [compileLeaf_of_column found, isSqlite]
  refine ⟨_, compiles, ?_⟩
  intro Datum database row stored storedMoment storedReachable storedDenotes inOrder holds
  have isSubject : (Fragment.column column false).IsSubject := trivial
  have least :=
    truth_ofComparison_dates reachable denotes database storedReachable storedDenotes
      (inOrder moment List.mem_cons_self)
      (by decide : Comparison.ge ≠ .like ∧ Comparison.ge ≠ .regex) false
  have greatest :=
    truth_ofComparison_dates highReachable highDenotes database storedReachable storedDenotes
      (inOrder highMoment (List.mem_cons_of_mem _ List.mem_cons_self))
      (by decide : Comparison.le ≠ .like ∧ Comparison.le ≠ .regex) false
  rw [← holds] at least greatest
  rw [List.map_cons, List.map_singleton,
    Fragment.truth_between_placeholders database.meaning row isSubject]
  change Truth.negateIf negated (.both
    ((SqlComparison.ofComparison .ge false).truth database.meaning (row column) (database.bind _))
    ((SqlComparison.ofComparison .le false).truth database.meaning (row column)
      (database.bind _))) = _
  rw [least, greatest]
  exact congrArg (Truth.negateIf negated) (both_accepts _ _ _)

end

end

/--
Dates are bound in the order of time as long as the texts of their years are in order.

SQLite is given the text of the point of time for a date that comes about in any way and
has all segments.  Two such texts are in the order of time exactly if the texts of their
years are in the order of the years.  They are for years of at most four digits, and
they are not if one of the years is longer: then the later date has the earlier text.
Where they are, a leaf that compares a column with such a date, by any comparison but
those with a pattern, or with two of them by BETWEEN, is compiled into a condition that
says of a row what is said of the time of the date in the column, counted from the
beginning of the year 0.
-/
theorem bound_dates_select_by_time
    {date other : PartialDate}
    (reachable : date.Reachable)
    (otherReachable : other.Reachable)
    (complete : date.isComplete = true)
    (otherComplete : other.isComplete = true) :
    ∃ moment otherMoment : DateTime,
      date.toDateTime? = some moment ∧
      other.toDateTime? = some otherMoment ∧
      boundValue .sqlite (.date date) = .string (moment.text " ") ∧
      boundValue .sqlite (.date other) = .string (otherMoment.text " ") ∧
      (compare (moment.text " ") (otherMoment.text " ") =
          compare moment.elapsed otherMoment.elapsed ↔
        DateTime.YearsInOrder moment.year otherMoment.year) ∧
      (moment.year ≤ 9999 → otherMoment.year ≤ 9999 →
        DateTime.YearsInOrder moment.year otherMoment.year) ∧
      (moment.year ≤ 9999 → 9999 < otherMoment.year →
        moment.elapsed < otherMoment.elapsed ∧
          compare (otherMoment.text " ") (moment.text " ") = .lt) ∧
      ∀ (target : Target) (path column : String) (type : SemanticType) (negated : Bool),
        target.backend = .sqlite → target.column path = .ok (column, type) →
        (∀ comparison : Comparison, comparison ≠ .like ∧ comparison ≠ .regex →
          ∃ fragment,
            Compiles
              (target.compileLeaf ⟨path, .compare comparison, negated, .scalar (.date date)⟩)
              fragment [boundValue .sqlite (.date date)] ∧
            SelectsByTime column [moment] fragment [boundValue .sqlite (.date date)] fun stored =>
              .negateIf negated
                (.ofBool (accepts comparison (compare stored.elapsed moment.elapsed)))) ∧
        ∃ fragment,
          Compiles
            (target.compileLeaf ⟨path, .between, negated, .pair (.date date) (.date other)⟩)
            fragment [boundValue .sqlite (.date date), boundValue .sqlite (.date other)] ∧
          SelectsByTime column [moment, otherMoment] fragment
            [boundValue .sqlite (.date date), boundValue .sqlite (.date other)] fun stored =>
            .negateIf negated
              (.ofBool
                (moment.elapsed ≤ stored.elapsed ∧ stored.elapsed ≤ otherMoment.elapsed)) := by
  obtain ⟨moment, denotes, isReal, notNegative⟩ := reachable.exists_toDateTime? complete
  obtain ⟨otherMoment, otherDenotes, otherIsReal, otherNotNegative⟩ :=
    otherReachable.exists_toDateTime? otherComplete
  refine ⟨moment, otherMoment, denotes, otherDenotes, boundValue_of_toDateTime? denotes,
    boundValue_of_toDateTime? otherDenotes,
    DateTime.compare_text_iff isReal otherIsReal notNegative otherNotNegative " ",
    DateTime.yearsInOrder_of_le notNegative otherNotNegative, fun fourDigits long => ⟨?_, ?_⟩,
    fun target path column type negated isSqlite found => ⟨fun comparison literal => ?_, ?_⟩⟩
  · exact DateTime.elapsed_lt_of_year_lt isReal otherIsReal notNegative
      (Int.lt_of_le_of_lt fourDigits long)
  · exact DateTime.compare_text_of_long notNegative fourDigits long " "
  · exact exists_comparison_by_time reachable denotes isSqlite found literal negated
  · exact exists_between_by_time reachable denotes isSqlite found otherReachable otherDenotes
      negated

/-- The beginning of a year. -/
def newYear (year : Int) : DateTime :=
  ⟨year, 1, 1, 0, 0, 0, 0⟩

theorem isReal_newYear (year : Int) : (newYear year).IsReal :=
  ⟨by simp [newYear, DateTime.isValid, DateTime.wholeSecond, isCalendarDay, daysInMonth,
    isClockTime], (by decide : 0 < 2000000000)⟩

theorem reachable_newYear (year : Int) : (PartialDate.ofDateTime (newYear year)).Reachable :=
  .converted (isReal_newYear year)

theorem toDateTime?_newYear
    {year : Int}
    (notNegative : 0 ≤ year) :
    (PartialDate.ofDateTime (newYear year)).toDateTime? = some (newYear year) :=
  PartialDate.toDateTime?_ofDateTime (isReal_newYear year) notNegative

theorem elapsed_newYear_lt
    {year later : Int}
    (notNegative : 0 ≤ year)
    (earlier : year < later) :
    (newYear year).elapsed < (newYear later).elapsed :=
  DateTime.elapsed_lt_of_year_lt (isReal_newYear year) (isReal_newYear later) notNegative earlier

theorem yearsInOrder_newYear
    {year other : Int}
    (notNegative : 0 ≤ year ∧ 0 ≤ other)
    (fourDigits : year ≤ 9999 ∧ other ≤ 9999) :
    DateTime.YearsInOrder (newYear year).year (newYear other).year :=
  DateTime.yearsInOrder_of_le notNegative.1 notNegative.2 fourDigits.1 fourDigits.2

/-- The texts themselves, as they are compared. -/
def plainTexts : TextDatabase String where
  meaning :=
    { lower := String.toLower
      part := fun _ _ => none
      equal := fun text other => (compare text other).isEq
      less := fun text other => (compare text other).isLT
      like := fun _ _ => false
      regex := fun _ _ => false }
  bind
    | .string text => some text
    | _ => none
  datum := id
  bind_string := fun _ => rfl
  equal_datum := fun _ _ => rfl
  less_datum := fun _ _ => rfl

/-- A book printed in 1817 is found between the beginnings of 1816 and 1818, and after 1816. -/
theorem printed_by_time_on_library :
    ∃ catalog,
      Catalog.build library = .ok catalog ∧
      Target.column ⟨.sqlite, catalog, "book"⟩ "printed" = .ok ("printed", .datetime) ∧
      compare ((newYear 1816).text " ") ((newYear 1818).text " ") =
        compare (newYear 1816).elapsed (newYear 1818).elapsed ∧
      (∃ fragment,
        Compiles
          (Target.compileLeaf ⟨.sqlite, catalog, "book"⟩
            ⟨"printed", .compare .gt, false, .scalar (.date (.ofDateTime (newYear 1816)))⟩)
          fragment [.string "1816-01-01 00:00:00"] ∧
        (fragment.truth plainTexts.meaning (fun _ => some "1817-01-01 00:00:00")
          [some "1816-01-01 00:00:00"]).1 = .yes) ∧
      ∃ fragment,
        Compiles
          (Target.compileLeaf ⟨.sqlite, catalog, "book"⟩
            ⟨"printed", .between, false,
              .pair (.date (.ofDateTime (newYear 1816))) (.date (.ofDateTime (newYear 1818)))⟩)
          fragment [.string "1816-01-01 00:00:00", .string "1818-01-01 00:00:00"] ∧
        (fragment.truth plainTexts.meaning (fun _ => some "1817-01-01 00:00:00")
          [some "1816-01-01 00:00:00", some "1818-01-01 00:00:00"]).1 = .yes := by
  have checked : ((Catalog.build library).toOption.any fun catalog =>
      match Target.column ⟨.sqlite, catalog, "book"⟩ "printed" with
      | .ok found => found == ("printed", .datetime)
      | .error _ => false) = true := by
    decide +kernel
  simp only [Option.any_eq_true, toOption_eq_some_iff] at checked
  obtain ⟨catalog, built, isColumn⟩ := checked
  have found :
      Target.column ⟨.sqlite, catalog, "book"⟩ "printed" = .ok ("printed", .datetime) := by
    split at isColumn
    · next column equal => rw [equal, eq_of_beq isColumn]
    · cases isColumn
  have lowText :
      boundValue .sqlite (.date (.ofDateTime (newYear 1816))) = .string "1816-01-01 00:00:00" := by
    decide +kernel
  have highText :
      boundValue .sqlite (.date (.ofDateTime (newYear 1818))) = .string "1818-01-01 00:00:00" := by
    decide +kernel
  have storedText :
      boundValue .sqlite (.date (.ofDateTime (newYear 1817))) = .string "1817-01-01 00:00:00" := by
    decide +kernel
  have later : (newYear 1816).elapsed < (newYear 1817).elapsed :=
    elapsed_newYear_lt (by decide) (by decide)
  have earlier : (newYear 1817).elapsed < (newYear 1818).elapsed :=
    elapsed_newYear_lt (by decide) (by decide)
  have above := yearsInOrder_newYear (by decide : (0 : Int) ≤ 1817 ∧ (0 : Int) ≤ 1816) (by decide)
  have below := yearsInOrder_newYear (by decide : (0 : Int) ≤ 1817 ∧ (0 : Int) ≤ 1818) (by decide)
  have holds :
      (fun _ => some "1817-01-01 00:00:00" : String → Option String) "printed" =
        plainTexts.bind (boundValue .sqlite (.date (.ofDateTime (newYear 1817)))) := by
    rw [storedText]
    rfl
  obtain ⟨_, _, denotes, otherDenotes, _, _, order, fourDigits, _, selects⟩ :=
    bound_dates_select_by_time (reachable_newYear 1816) (reachable_newYear 1818) rfl rfl
  rw [toDateTime?_newYear (by decide), Option.some.injEq] at denotes otherDenotes
  rw [← denotes, ← otherDenotes] at order fourDigits
  simp only [← denotes, ← otherDenotes, lowText, highText] at selects
  obtain ⟨comparisons, fragment, compiles, truth⟩ := selects _ _ _ _ false rfl found
  refine ⟨catalog, built, found, order.mpr (fourDigits (by decide) (by decide)), ?_,
    fragment, compiles, ?_⟩
  · obtain ⟨fragment, compiles, truth⟩ := comparisons .gt (by decide)
    have isLater : accepts .gt (compare (newYear 1817).elapsed (newYear 1816).elapsed) = true := by
      rw [Nat.compare_eq_gt.mpr later]
      rfl
    refine ⟨fragment, compiles, (truth _ plainTexts _ _ _ (reachable_newYear 1817)
      (toDateTime?_newYear (by decide)) (List.forall_mem_singleton.mpr above) holds).trans ?_⟩
    exact congrArg (fun decided => Truth.negateIf false (.ofBool decided)) isLater
  · refine (truth _ plainTexts _ _ _ (reachable_newYear 1817) (toDateTime?_newYear (by decide))
      (List.forall_mem_cons.mpr ⟨above, List.forall_mem_singleton.mpr below⟩) holds).trans ?_
    exact congrArg (fun decided => Truth.negateIf false (.ofBool decided))
      (decide_eq_true ⟨Nat.le_of_lt later, Nat.le_of_lt earlier⟩)

/--
The later of two dates is bound as the earlier text.

No check keeps the year 10000 out of a converted date.  Whatever else a database does with
texts, the new year of 10000 is not after the new year of 9999 for it.
-/
theorem later_year_bound_first :
    (PartialDate.ofDateTime (newYear 9999)).Reachable ∧
    (PartialDate.ofDateTime (newYear 10000)).Reachable ∧
    (PartialDate.ofDateTime (newYear 9999)).isComplete = true ∧
    (PartialDate.ofDateTime (newYear 10000)).isComplete = true ∧
    (PartialDate.ofDateTime (newYear 9999)).toDateTime? = some (newYear 9999) ∧
    (PartialDate.ofDateTime (newYear 10000)).toDateTime? = some (newYear 10000) ∧
    (newYear 9999).elapsed < (newYear 10000).elapsed ∧
    boundValue .sqlite (.date (.ofDateTime (newYear 9999))) = .string "9999-01-01 00:00:00" ∧
    boundValue .sqlite (.date (.ofDateTime (newYear 10000))) = .string "+10000-01-01 00:00:00" ∧
    compare "+10000-01-01 00:00:00" "9999-01-01 00:00:00" = .lt ∧
    ∀ (Datum : Type) (database : TextDatabase Datum),
      SqlComparison.gt.truth database.meaning
        (database.bind (.string "+10000-01-01 00:00:00"))
        (database.bind (.string "9999-01-01 00:00:00")) = .no := by
  refine ⟨reachable_newYear 9999, reachable_newYear 10000, rfl, rfl,
    toDateTime?_newYear (by decide), toDateTime?_newYear (by decide),
    elapsed_newYear_lt (by decide) (by decide), by decide +kernel, by decide +kernel,
    by decide +kernel, fun Datum database => ?_⟩
  have first : compare "+10000-01-01 00:00:00" "9999-01-01 00:00:00" = .lt := by decide +kernel
  have literal : Comparison.gt ≠ .like ∧ Comparison.gt ≠ .regex := by decide
  rw [database.bind_string, database.bind_string]
  refine (database.truth_ofComparison literal false _ _).trans ?_
  rw [first]
  rfl

end ClassStore.Query
