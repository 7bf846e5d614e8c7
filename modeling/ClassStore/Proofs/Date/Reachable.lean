import ClassStore.Proofs.Date.Reading

/-!
# Dates that can come about

A partial date begins without any segment, is read from a text or is converted from a
point of civil time, and is completed segment by segment.  The conversion checks
nothing: it can give a year of more than four digits, though only together with all
other segments.  Still some point of civil time from the year 0 on fits every date
that comes about in one of these ways (`Reachable.exists_fits`).  A date with all
segments therefore stands for exactly one point of time.
-/

namespace ClassStore.Date

/-! ## Points of time that can be converted -/

namespace DateTime

/--
The day is in the calendar and the time is on the clock.

From one billion on, the nanoseconds are those of a leap second, counted from the
beginning of the second before it.
-/
structure IsReal (moment : DateTime) : Prop where
  isValid : moment.wholeSecond.isValid = true
  inLeapSecond : moment.nanosecond < 2000000000

theorem isValid_wholeSecond_iff {moment : DateTime} :
    moment.wholeSecond.isValid = true ↔
      isCalendarDay moment.year moment.month moment.day = true ∧
        isClockTime moment.hour moment.minute moment.second = true := by
  simp [isValid, wholeSecond]

theorem IsCivil.isReal {moment : DateTime} (isCivil : moment.IsCivil) : moment.IsReal := by
  have valid := isCivil.isValid
  simp only [DateTime.isValid, Bool.and_eq_true, decide_eq_true_eq] at valid
  exact ⟨isValid_wholeSecond_iff.mpr valid.1, by omega⟩

theorem IsReal.isCivil_wholeSecond
    {moment : DateTime}
    (isReal : moment.IsReal)
    (notNegative : 0 ≤ moment.year)
    (fourDigits : moment.year ≤ 9999) :
    moment.wholeSecond.IsCivil :=
  ⟨isReal.isValid, notNegative, fourDigits⟩

/-- The fraction of the second makes no difference to a segment. -/
theorem valueOf_wholeSecond (moment : DateTime) : moment.wholeSecond.valueOf = moment.valueOf := by
  funext segment
  cases segment <;> rfl

/-- What a point of time has in a segment, as a number without a sign. -/
def countOf (moment : DateTime) (segment : Segment) : Nat :=
  (moment.valueOf segment).toNat

theorem valueOf_eq_countOf
    {moment : DateTime}
    (notNegative : 0 ≤ moment.year)
    (segment : Segment) :
    moment.valueOf segment = moment.countOf segment := by
  cases segment with
  | year => exact (Int.toNat_of_nonneg notNegative).symm
  | month | day | hour | minute | second => rfl

end DateTime

namespace PartialDate

/-! ## Conversion -/

/-- A converted date has the segments of the point of time, but no year before the year 0. -/
theorem get?_ofDateTime_eq_some_iff
    {moment : DateTime}
    {segment : Segment}
    {value : Nat} :
    (ofDateTime moment).get? segment = some value ↔
      moment.valueOf segment = value ∧ (segment = .year → 0 ≤ moment.year) := by
  cases segment with
  | year =>
      change (if moment.year < 0 then none else some moment.year.toNat) = some value ↔
        moment.year = value ∧ (Segment.year = .year → 0 ≤ moment.year)
      split
      · next negative => simp [negative]
      · next notNegative =>
          rw [Option.some.injEq]
          omega
  | month | day | hour | minute | second =>
      simp only [ofDateTime, get?, DateTime.valueOf, Option.some.injEq, Int.natCast_inj,
        reduceCtorEq, false_implies, and_true]

theorem fits_wholeSecond_iff
    {date : PartialDate}
    {moment : DateTime} :
    date.Fits moment.wholeSecond ↔ date.Fits moment := by
  rw [Fits, DateTime.valueOf_wholeSecond]
  rfl

theorem fits_ofDateTime (moment : DateTime) : (ofDateTime moment).Fits moment :=
  fun _ _ defined => (get?_ofDateTime_eq_some_iff.mp defined).1

theorem isComplete_iff {date : PartialDate} :
    date.isComplete = true ↔ ∀ segment, (date.get? segment).isSome = true := by
  rw [isComplete, beq_iff_eq]
  constructor
  · intro full segment
    rw [← contains_segments, full]
    cases segment <;> rfl
  · intro defined
    have year := defined .year
    have month := defined .month
    have day := defined .day
    have hour := defined .hour
    have minute := defined .minute
    have second := defined .second
    simp only [get?] at year month day hour minute second
    rw [segments, year, month, day, hour, minute, second]
    rfl

theorem isComplete_ofDateTime
    {moment : DateTime}
    (notNegative : 0 ≤ moment.year) :
    (ofDateTime moment).isComplete = true := by
  rw [isComplete_iff]
  intro segment
  cases segment with
  | year => simp [ofDateTime, get?, Int.not_lt.mpr notNegative]
  | month | day | hour | minute | second => rfl

/-- A date with all segments is the conversion of the point of time that fits it. -/
theorem eq_ofDateTime_of_fits
    {date : PartialDate}
    (complete : date.isComplete = true)
    {moment : DateTime}
    (notNegative : 0 ≤ moment.year)
    (fits : date.Fits moment) :
    date = ofDateTime moment := by
  apply ext_get?
  intro segment
  obtain ⟨value, defined⟩ := Option.isSome_iff_exists.mp (isComplete_iff.mp complete segment)
  rw [defined, get?_ofDateTime_eq_some_iff.mpr ⟨fits segment value defined, fun _ => notNegative⟩]

/-- A converted point of time is denoted again, down to the second. -/
theorem toDateTime?_ofDateTime
    {moment : DateTime}
    (isReal : moment.IsReal)
    (notNegative : 0 ≤ moment.year) :
    (ofDateTime moment).toDateTime? = some moment.wholeSecond := by
  obtain ⟨isDay, isTime⟩ := DateTime.isValid_wholeSecond_iff.mp isReal.isValid
  have year : ((moment.year.toNat : Nat) : Int) = moment.year := Int.toNat_of_nonneg notNegative
  simp [toDateTime?, ofDateTime, Int.not_lt.mpr notNegative, year, isDay, isTime,
    DateTime.wholeSecond]

/-- Only a date with all segments denotes a point of time. -/
theorem isComplete_of_toDateTime?
    {date : PartialDate}
    (denotes : date.toDateTime?.isSome = true) :
    date.isComplete = true := by
  rcases date with
    ⟨_ | year, _ | month, _ | day, _ | hour, _ | minute, _ | second⟩ <;>
    first | rfl | cases denotes

/-! ## Histories -/

/-- The date comes about by assigning segments, reading texts and converting points of time. -/
inductive Reachable : PartialDate → Prop where
  | empty : Reachable empty
  | assigned {date after : PartialDate} {segment : Segment} {value : Nat}
      (reachable : Reachable date)
      (assigns : date.assign? segment value = some after) :
      Reachable after
  | read {text : String} {date : PartialDate}
      (read : read? text = some date) :
      Reachable date
  | converted {moment : DateTime}
      (isReal : moment.IsReal) :
      Reachable (ofDateTime moment)

/-- Some point of time from the year 0 on fits; a year of more than four digits is never alone. -/
structure FitsReal (date : PartialDate) (moment : DateTime) : Prop where
  isReal : moment.IsReal
  notNegative : 0 ≤ moment.year
  fits : date.Fits moment
  fourDigits : date.isComplete = false → moment.year ≤ 9999

theorem exists_fitsReal_of_isPossible
    {date : PartialDate}
    (possible : date.isPossible = true) :
    ∃ moment, date.FitsReal moment := by
  obtain ⟨moment, isCivil, fits⟩ := exists_fits_of_isPossible possible
  exact ⟨moment, isCivil.isReal, isCivil.notNegative, fits, fun _ => isCivil.fourDigits⟩

/-- An assignment is checked, whatever the date was before. -/
theorem isPossible_of_assign?
    {date after : PartialDate}
    {segment : Segment}
    {value : Nat}
    (assigns : date.assign? segment value = some after) :
    after.isPossible = true := by
  rw [assign?] at assigns
  split at assigns
  · next possible =>
      cases assigns
      exact possible
  · cases assigns

/-- Without its year, a point of time is possible: the twenty-ninth of February is in some year. -/
theorem isPossible_ofDateTime
    {moment : DateTime}
    (isReal : moment.IsReal)
    (negative : moment.year < 0) :
    (ofDateTime moment).isPossible = true := by
  obtain ⟨isDay, isTime⟩ := DateTime.isValid_wholeSecond_iff.mp isReal.isValid
  have year : (ofDateTime moment).year = none := if_pos negative
  have dayPossible : (ofDateTime moment).dayIsPossible = true :=
    dayIsPossible_of_isCalendarDay isDay (by simp [year]) (by simp [ofDateTime])
      (by simp [ofDateTime])
  have timePossible : (ofDateTime moment).timeIsPossible = true := isTime
  rw [isPossible, dayPossible, timePossible, yearIsPossible, year]
  rfl

theorem Reachable.exists_fits
    {date : PartialDate}
    (reachable : date.Reachable) :
    ∃ moment, date.FitsReal moment := by
  cases reachable with
  | empty => exact exists_fitsReal_of_isPossible rfl
  | assigned _ assigns => exact exists_fitsReal_of_isPossible (isPossible_of_assign? assigns)
  | read read =>
      obtain ⟨_, moment, isCivil, fits⟩ := exists_fits_of_read? read
      exact exists_fitsReal_of_isPossible (isPossible_of_fits isCivil fits)
  | @converted moment isReal =>
      rcases Int.lt_or_le moment.year 0 with negative | notNegative
      · exact exists_fitsReal_of_isPossible (isPossible_ofDateTime isReal negative)
      · refine ⟨moment, isReal, notNegative, fits_ofDateTime moment, fun incomplete => ?_⟩
        rw [isComplete_ofDateTime notNegative] at incomplete
        cases incomplete

theorem FitsReal.isCivil
    {date : PartialDate}
    {moment : DateTime}
    (fitsReal : date.FitsReal moment)
    (fourDigits : moment.year ≤ 9999) :
    moment.wholeSecond.IsCivil ∧ date.Fits moment.wholeSecond :=
  ⟨fitsReal.isReal.isCivil_wholeSecond fitsReal.notNegative fourDigits,
    fits_wholeSecond_iff.mpr fitsReal.fits⟩

/-- Some point of civil time fits a date that comes about and lacks a segment. -/
theorem Reachable.exists_isCivil_of_incomplete
    {date : PartialDate}
    (reachable : date.Reachable)
    (incomplete : date.isComplete = false) :
    ∃ moment : DateTime, moment.IsCivil ∧ date.Fits moment := by
  obtain ⟨moment, fitsReal⟩ := reachable.exists_fits
  exact ⟨_, fitsReal.isCivil (fitsReal.fourDigits incomplete)⟩

/-- A date with all segments is the conversion of a point of time from the year 0 on. -/
theorem Reachable.exists_eq_ofDateTime
    {date : PartialDate}
    (reachable : date.Reachable)
    (complete : date.isComplete = true) :
    ∃ moment : DateTime, moment.IsReal ∧ 0 ≤ moment.year ∧ date = ofDateTime moment := by
  obtain ⟨moment, fitsReal⟩ := reachable.exists_fits
  exact ⟨moment, fitsReal.isReal, fitsReal.notNegative,
    eq_ofDateTime_of_fits complete fitsReal.notNegative fitsReal.fits⟩

/-- A date with all segments denotes a point of time in the calendar, from the year 0 on. -/
theorem Reachable.exists_toDateTime?
    {date : PartialDate}
    (reachable : date.Reachable)
    (complete : date.isComplete = true) :
    ∃ moment, date.toDateTime? = some moment ∧ moment.IsReal ∧ 0 ≤ moment.year := by
  obtain ⟨moment, isReal, notNegative, rfl⟩ := reachable.exists_eq_ofDateTime complete
  exact ⟨moment.wholeSecond, toDateTime?_ofDateTime isReal notNegative,
    ⟨isReal.isValid, (by decide : 0 < 2000000000)⟩, notNegative⟩

theorem Reachable.isReal_of_toDateTime?
    {date : PartialDate}
    {moment : DateTime}
    (reachable : date.Reachable)
    (denotes : date.toDateTime? = some moment) :
    moment.IsReal ∧ 0 ≤ moment.year := by
  obtain ⟨denoted, same, isReal⟩ :=
    reachable.exists_toDateTime? (isComplete_of_toDateTime? (by rw [denotes]; rfl))
  rw [denotes, Option.some.injEq] at same
  rwa [same]

/-- Some point of civil time fits a date that comes about with a year of four digits, or open. -/
theorem Reachable.exists_isCivil
    {date : PartialDate}
    (reachable : date.Reachable)
    (fourDigits : ∀ year ∈ date.year, year ≤ 9999) :
    ∃ moment : DateTime, moment.IsCivil ∧ date.Fits moment := by
  cases complete : date.isComplete with
  | false => exact reachable.exists_isCivil_of_incomplete complete
  | true =>
      obtain ⟨moment, isReal, notNegative, rfl⟩ := reachable.exists_eq_ofDateTime complete
      have year : (ofDateTime moment).year = some moment.year.toNat :=
        if_neg (Int.not_lt.mpr notNegative)
      have bound := fourDigits moment.year.toNat year
      exact ⟨_, isReal.isCivil_wholeSecond notNegative (by omega),
        fits_wholeSecond_iff.mpr (fits_ofDateTime moment)⟩

/--
Dates with all segments are points of time.

A date that comes about in any way has all segments if and only if it denotes a point
of civil time, and the conversion of that point gives the date back.  A point of time
from the year 0 on is converted to a date that denotes it, down to the whole second.
Of a point of time before the year 0, exactly the year stays open.
-/
theorem complete_dates_are_moments :
    (∀ date : PartialDate, date.Reachable →
      (date.isComplete = true ↔ date.toDateTime?.isSome = true) ∧
      (date.isComplete = true → date.toDateTime?.map ofDateTime = some date)) ∧
    (∀ moment : DateTime, moment.IsReal → 0 ≤ moment.year →
      (ofDateTime moment).toDateTime? = some moment.wholeSecond) ∧
    ∀ moment : DateTime, moment.year < 0 →
      (ofDateTime moment).segments.toList = [.month, .day, .hour, .minute, .second] ∧
      ∀ segment value,
        (ofDateTime moment).get? segment = some value ↔
          segment ≠ .year ∧ moment.valueOf segment = value := by
  refine ⟨fun date reachable => ?_, fun moment isReal notNegative => ?_,
    fun moment negative => ⟨?_, fun segment value => ?_⟩⟩
  · have denotes (complete : date.isComplete = true) :
        ∃ moment : DateTime,
          date.toDateTime? = some moment.wholeSecond ∧ ofDateTime moment.wholeSecond = date := by
      obtain ⟨moment, isReal, notNegative, rfl⟩ := reachable.exists_eq_ofDateTime complete
      exact ⟨moment, toDateTime?_ofDateTime isReal notNegative, rfl⟩
    refine ⟨⟨fun complete => ?_, isComplete_of_toDateTime?⟩, fun complete => ?_⟩
    · obtain ⟨moment, same, _⟩ := denotes complete
      rw [same]
      rfl
    · obtain ⟨moment, same, back⟩ := denotes complete
      rw [same, Option.map_some, back]
  · exact toDateTime?_ofDateTime isReal notNegative
  · have year : (ofDateTime moment).year = none := if_pos negative
    rw [segments, year]
    rfl
  · rw [get?_ofDateTime_eq_some_iff]
    cases segment <;> simp [negative]

/-- A leap second at the end of a leap day before the year 0. -/
def ancientLeapSecond : DateTime :=
  ⟨-4, 2, 29, 23, 59, 59, 1500000000⟩

/-- Such a leap day can be completed by a leap year, and only by one. -/
theorem ancientLeapSecond_completed :
    ancientLeapSecond.year < 0 ∧
    (ofDateTime ancientLeapSecond).segments.toList = [.month, .day, .hour, .minute, .second] ∧
    (ofDateTime ancientLeapSecond).assign? .year 2023 = none ∧
    (∃ date,
      (ofDateTime ancientLeapSecond).assign? .year 2024 = some date ∧
      date.Reachable ∧
      date.isComplete = true ∧
      date.toDateTime?.isSome = true ∧
      date.toDateTime?.map ofDateTime = some date) ∧
    (ofDateTime { ancientLeapSecond with year := 2024 }).toDateTime? =
      some ⟨2024, 2, 29, 23, 59, 59, 0⟩ := by
  obtain ⟨complete, denoted, yearOpen⟩ := complete_dates_are_moments
  have reachable : (ofDateTime { ancientLeapSecond with year := 2024 }).Reachable :=
    .assigned (.converted ⟨by decide, by decide⟩)
      (by decide : (ofDateTime ancientLeapSecond).assign? .year 2024 = some _)
  obtain ⟨denotes, back⟩ := complete _ reachable
  exact ⟨by decide, (yearOpen ancientLeapSecond (by decide)).1, by decide,
    ⟨_, by decide, reachable, by decide, denotes.mp (by decide), back (by decide)⟩,
    denoted _ ⟨by decide, by decide⟩ (by decide)⟩

end PartialDate

end ClassStore.Date
