import ClassStore.Date.Partial
import Mathlib.Data.List.Nodup

/-!
# Partial dates that a real date fits

Each time a segment is assigned, a table of cases decides whether the defined
segments are still possible.  The table is exact: the segments are possible if and
only if some point of civil time has them (`isPossible_iff_exists_fits`).  What a
point of civil time has in all segments it has in some of them, so an assignment
that is refused early would be refused at the end as well, and the order in which
segments are assigned has no influence.
-/

namespace ClassStore.Date

/-! ## Calendar -/

theorem isCalendarDay_iff {year : Int} {month day : Nat} :
    isCalendarDay year month day = true ↔ 1 ≤ day ∧ day ≤ daysInMonth year month := by
  simp [isCalendarDay]

/-- No month has more days than in a leap year. -/
theorem daysInMonth_le_leapYear (year : Int) (month : Nat) :
    daysInMonth year month ≤ daysInMonth 2000 month := by
  have inFebruary : daysInMonth 2000 2 = 29 := by decide
  by_cases isFebruary : month = 2
  · rw [isFebruary, inFebruary, daysInMonth, if_pos rfl]
    split <;> omega
  · have same : daysInMonth year month = daysInMonth 2000 month := by
      rw [daysInMonth, daysInMonth, if_neg isFebruary, if_neg isFebruary]
    exact Nat.le_of_eq same

theorem daysInMonth_le (year : Int) (month : Nat) : daysInMonth year month ≤ 31 := by
  unfold daysInMonth
  repeat' split
  all_goals omega

/-- The months are those that have a first day. -/
theorem isCalendarDay_one_iff {year : Int} {month : Nat} :
    isCalendarDay year month 1 = true ↔ 1 ≤ month ∧ month ≤ 12 := by
  rw [isCalendarDay_iff]
  unfold daysInMonth
  repeat' split
  all_goals omega

theorem month_of_isCalendarDay
    {year : Int}
    {month day : Nat}
    (isDay : isCalendarDay year month day = true) :
    1 ≤ month ∧ month ≤ 12 := by
  rw [isCalendarDay_iff] at isDay
  exact isCalendarDay_one_iff.mp
    (isCalendarDay_iff.mpr ⟨Nat.le_refl 1, Nat.le_trans isDay.1 isDay.2⟩)

/-- January has every day that any month has. -/
theorem isCalendarDay_january_iff {year : Int} {day : Nat} :
    isCalendarDay year 1 day = true ↔ 1 ≤ day ∧ day ≤ 31 := by
  rw [isCalendarDay_iff]
  rfl

/-! ## Points of civil time -/

namespace DateTime

/-- The value that a point of civil time has in a segment. -/
def valueOf (moment : DateTime) : Segment → Int
  | .year => moment.year
  | .month => moment.month
  | .day => moment.day
  | .hour => moment.hour
  | .minute => moment.minute
  | .second => moment.second

/-- The point is on the calendar and on the clock, in a year of at most four digits. -/
structure IsCivil (moment : DateTime) : Prop where
  isValid : moment.isValid = true
  notNegative : 0 ≤ moment.year
  fourDigits : moment.year ≤ 9999

end DateTime

namespace PartialDate

/-- The point of civil time has the defined segments. -/
def Fits (date : PartialDate) (moment : DateTime) : Prop :=
  ∀ segment value, date.get? segment = some value → moment.valueOf segment = value

/-- The other date has the defined segments, and may have more. -/
def Within (date other : PartialDate) : Prop :=
  ∀ segment value, date.get? segment = some value → other.get? segment = some value

/-- What has all segments of a date has some of them. -/
theorem Within.fits
    {date other : PartialDate}
    (within : date.Within other)
    {moment : DateTime}
    (fits : other.Fits moment) :
    date.Fits moment :=
  fun segment value defined => fits segment value (within segment value defined)

theorem ext_get?
    {date other : PartialDate}
    (same : ∀ segment, date.get? segment = other.get? segment) :
    date = other := by
  cases date
  cases other
  have year := same .year
  have month := same .month
  have day := same .day
  have hour := same .hour
  have minute := same .minute
  have second := same .second
  simp_all [get?]

@[simp]
theorem get?_empty (segment : Segment) : empty.get? segment = none := by
  cases segment <;> rfl

/-! ## Possible dates -/

/-- A calendar day with the defined year, month and day makes these possible. -/
theorem dayIsPossible_of_isCalendarDay
    {date : PartialDate}
    {year : Int}
    {month day : Nat}
    (isDay : isCalendarDay year month day = true)
    (sameYear : ∀ defined ∈ date.year, year = defined)
    (sameMonth : ∀ defined ∈ date.month, month = defined)
    (sameDay : ∀ defined ∈ date.day, day = defined) :
    date.dayIsPossible = true := by
  rcases date with ⟨definedYear, definedMonth, definedDay, hour, minute, second⟩
  cases definedMonth with
  | none =>
      cases definedDay with
      | none => rfl
      | some definedDay =>
          cases sameDay definedDay rfl
          rw [isCalendarDay_iff] at isDay
          simp [dayIsPossible, isDay.1, Nat.le_trans isDay.2 (daysInMonth_le year month)]
  | some definedMonth =>
      cases sameMonth definedMonth rfl
      cases definedDay with
      | none => simp [dayIsPossible, month_of_isCalendarDay isDay]
      | some definedDay =>
          cases sameDay definedDay rfl
          cases definedYear with
          | none =>
              -- The year is open: the day is looked for in a leap year.
              rw [isCalendarDay_iff] at isDay
              exact isCalendarDay_iff.mpr
                ⟨isDay.1, Nat.le_trans isDay.2 (daysInMonth_le_leapYear year month)⟩
          | some definedYear =>
              cases sameYear definedYear rfl
              exact isDay

/-- A possible year, month and day are those of a calendar day, in the defined year if there is one. -/
theorem exists_isCalendarDay
    {date : PartialDate}
    (possible : date.dayIsPossible = true) :
    ∃ month day,
      isCalendarDay (date.year.getD 2000 : Nat) month day = true ∧
      (∀ defined ∈ date.month, month = defined) ∧
      ∀ defined ∈ date.day, day = defined := by
  rcases date with ⟨year, month, day, hour, minute, second⟩
  cases month with
  | none =>
      cases day with
      | none => exact ⟨1, 1, isCalendarDay_january_iff.mpr (by omega), by simp, by simp⟩
      | some day =>
          have range : 1 ≤ day ∧ day ≤ 31 := by simpa [dayIsPossible] using possible
          exact ⟨1, day, isCalendarDay_january_iff.mpr range, by simp, by simp⟩
  | some month =>
      cases day with
      | none =>
          have range : 1 ≤ month ∧ month ≤ 12 := by simpa [dayIsPossible] using possible
          exact ⟨month, 1, isCalendarDay_one_iff.mpr range, by simp, by simp⟩
      | some day => exact ⟨month, day, possible, by simp, by simp⟩

theorem yearIsPossible_iff {date : PartialDate} :
    date.yearIsPossible = true ↔ ∀ defined ∈ date.year, defined ≤ 9999 := by
  rcases date with ⟨_ | year, month, day, hour, minute, second⟩ <;> simp [yearIsPossible]

/-- An open part of the time can be taken to be zero. -/
theorem timeIsPossible_of_isClockTime
    {date : PartialDate}
    {hour minute second : Nat}
    (isTime : isClockTime hour minute second = true)
    (sameHour : ∀ defined ∈ date.hour, hour = defined)
    (sameMinute : ∀ defined ∈ date.minute, minute = defined)
    (sameSecond : ∀ defined ∈ date.second, second = defined) :
    date.timeIsPossible = true := by
  have below {part : Option Nat} {value : Nat} (same : ∀ defined ∈ part, value = defined) :
      part.getD 0 ≤ value := by
    cases part with
    | none => exact Nat.zero_le _
    | some defined => exact Nat.le_of_eq (same defined rfl).symm
  simp only [isClockTime, Bool.and_eq_true, decide_eq_true_eq] at isTime
  simp only [timeIsPossible, isClockTime, Bool.and_eq_true, decide_eq_true_eq]
  have hourBelow := below sameHour
  have minuteBelow := below sameMinute
  have secondBelow := below sameSecond
  omega

theorem isPossible_of_fits
    {date : PartialDate}
    {moment : DateTime}
    (isCivil : moment.IsCivil)
    (fits : date.Fits moment) :
    date.isPossible = true := by
  have valid := isCivil.isValid
  simp only [DateTime.isValid, Bool.and_eq_true] at valid
  have day : date.dayIsPossible = true :=
    dayIsPossible_of_isCalendarDay valid.1.1 (fun value defined => fits .year value defined)
      (fun value defined => Int.ofNat.inj (fits .month value defined))
      fun value defined => Int.ofNat.inj (fits .day value defined)
  have time : date.timeIsPossible = true :=
    timeIsPossible_of_isClockTime valid.1.2
      (fun value defined => Int.ofNat.inj (fits .hour value defined))
      (fun value defined => Int.ofNat.inj (fits .minute value defined))
      fun value defined => Int.ofNat.inj (fits .second value defined)
  have year : date.yearIsPossible = true := by
    rw [yearIsPossible_iff]
    intro value defined
    have same : moment.year = value := fits .year value defined
    have bound := isCivil.fourDigits
    omega
  rw [isPossible, year, day, time]
  rfl

theorem exists_fits_of_isPossible
    {date : PartialDate}
    (possible : date.isPossible = true) :
    ∃ moment : DateTime, moment.IsCivil ∧ date.Fits moment := by
  simp only [isPossible, Bool.and_eq_true] at possible
  obtain ⟨⟨year, day⟩, time⟩ := possible
  obtain ⟨month, day, isDay, sameMonth, sameDay⟩ := exists_isCalendarDay day
  rw [yearIsPossible_iff] at year
  refine ⟨⟨(date.year.getD 2000 : Nat), month, day, date.hour.getD 0, date.minute.getD 0,
    date.second.getD 0, 0⟩, ⟨?_, Int.natCast_nonneg _, ?_⟩, ?_⟩
  · rw [timeIsPossible] at time
    simp [DateTime.isValid, isDay, time]
  · apply Int.ofNat_le.mpr
    cases defined : date.year with
    | none => exact (by decide : 2000 ≤ 9999)
    | some value => exact year value defined
  · intro segment value defined
    cases segment with
    | year => simp [DateTime.valueOf, show date.year = some value from defined]
    | month => exact congrArg Int.ofNat (sameMonth value defined)
    | day => exact congrArg Int.ofNat (sameDay value defined)
    | hour => simp [DateTime.valueOf, show date.hour = some value from defined]
    | minute => simp [DateTime.valueOf, show date.minute = some value from defined]
    | second => simp [DateTime.valueOf, show date.second = some value from defined]

/-- The defined segments are possible exactly if some point of civil time has them. -/
theorem isPossible_iff_exists_fits {date : PartialDate} :
    date.isPossible = true ↔ ∃ moment : DateTime, moment.IsCivil ∧ date.Fits moment :=
  ⟨exists_fits_of_isPossible, fun ⟨_, isCivil, fits⟩ => isPossible_of_fits isCivil fits⟩

/-- A date remains possible when segments are left out. -/
theorem Within.isPossible
    {date other : PartialDate}
    (within : date.Within other)
    (possible : other.isPossible = true) :
    date.isPossible = true := by
  obtain ⟨moment, isCivil, fits⟩ := exists_fits_of_isPossible possible
  exact isPossible_of_fits isCivil (within.fits fits)

/-! ## Assignments -/

/-- Assigns values to segments one after the other, unless one of them is refused. -/
def assignAll? : List (Segment × Nat) → PartialDate → Option PartialDate
  | [], date => some date
  | (segment, value) :: entries, date => do
      let date ← date.assign? segment value
      assignAll? entries date

/-- Defines segments one after the other without asking whether the result is possible. -/
def setAll : List (Segment × Nat) → PartialDate → PartialDate
  | [], date => date
  | (segment, value) :: entries, date => setAll entries (date.set segment value)

theorem assignAll?_append
    (front back : List (Segment × Nat))
    (date : PartialDate) :
    assignAll? (front ++ back) date = (assignAll? front date).bind (assignAll? back) := by
  induction front generalizing date with
  | nil => rfl
  | cons entry front inductionHypothesis =>
      rcases entry with ⟨segment, value⟩
      simp only [List.cons_append, assignAll?, inductionHypothesis, Option.bind_eq_bind,
        Option.bind_assoc]

theorem get?_setAll_of_not_mem
    {entries : List (Segment × Nat)}
    {segment : Segment}
    (absent : segment ∉ entries.map Prod.fst)
    (date : PartialDate) :
    (setAll entries date).get? segment = date.get? segment := by
  induction entries generalizing date with
  | nil => rfl
  | cons entry entries inductionHypothesis =>
      rcases entry with ⟨assigned, value⟩
      rw [List.map_cons, List.mem_cons, not_or] at absent
      rw [setAll, inductionHypothesis absent.2, get?_set, if_neg absent.1]

theorem get?_setAll_of_mem
    {entries : List (Segment × Nat)}
    (distinct : (entries.map Prod.fst).Nodup)
    {segment : Segment}
    {value : Nat}
    (assigned : (segment, value) ∈ entries)
    (date : PartialDate) :
    (setAll entries date).get? segment = some value := by
  induction entries generalizing date with
  | nil => cases assigned
  | cons entry entries inductionHypothesis =>
      rcases entry with ⟨first, firstValue⟩
      rw [List.map_cons, List.nodup_cons] at distinct
      rcases List.mem_cons.mp assigned with same | isLater
      · cases same
        rw [setAll, get?_setAll_of_not_mem distinct.1, get?_set, if_pos rfl]
      · exact inductionHypothesis distinct.2 isLater _

/-- Exactly the assigned values are defined, if each segment is assigned once. -/
theorem get?_setAll_empty_eq_some_iff
    {entries : List (Segment × Nat)}
    (distinct : (entries.map Prod.fst).Nodup)
    {segment : Segment}
    {value : Nat} :
    (setAll entries empty).get? segment = some value ↔ (segment, value) ∈ entries := by
  constructor
  · intro defined
    by_cases assigned : segment ∈ entries.map Prod.fst
    · obtain ⟨⟨_, other⟩, isEntry, rfl⟩ := List.mem_map.mp assigned
      rw [get?_setAll_of_mem distinct isEntry] at defined
      cases defined
      exact isEntry
    · rw [get?_setAll_of_not_mem assigned, get?_empty] at defined
      cases defined
  · exact fun assigned => get?_setAll_of_mem distinct assigned empty

/-- Assigning open segments does not touch the defined ones. -/
theorem within_setAll
    {entries : List (Segment × Nat)}
    {date : PartialDate}
    (fresh : ∀ segment ∈ entries.map Prod.fst, date.get? segment = none) :
    date.Within (setAll entries date) := by
  intro segment value defined
  have absent : segment ∉ entries.map Prod.fst := by
    intro assigned
    rw [fresh segment assigned] at defined
    cases defined
  rw [get?_setAll_of_not_mem absent, defined]

/-- Open segments can be assigned one after the other exactly if the result is possible. -/
theorem assignAll?_eq_of_fresh
    {entries : List (Segment × Nat)}
    (distinct : (entries.map Prod.fst).Nodup)
    {date : PartialDate}
    (fresh : ∀ segment ∈ entries.map Prod.fst, date.get? segment = none)
    (possible : date.isPossible = true) :
    assignAll? entries date =
      if (setAll entries date).isPossible then some (setAll entries date) else none := by
  induction entries generalizing date with
  | nil => simp [assignAll?, setAll, possible]
  | cons entry entries inductionHypothesis =>
      rcases entry with ⟨segment, value⟩
      rw [List.map_cons, List.nodup_cons] at distinct
      have laterFresh :
          ∀ later ∈ entries.map Prod.fst, (date.set segment value).get? later = none := by
        intro later isLater
        have other : later ≠ segment := by
          rintro rfl
          exact distinct.1 isLater
        rw [get?_set, if_neg other]
        exact fresh later (List.mem_cons_of_mem _ isLater)
      rw [assignAll?, setAll, assign?]
      by_cases stillPossible : (date.set segment value).isPossible = true
      · simpa [stillPossible] using inductionHypothesis distinct.2 laterFresh stillPossible
      · have impossible : ¬(setAll entries (date.set segment value)).isPossible = true :=
          fun late => stillPossible ((within_setAll laterFresh).isPossible late)
        simp [stillPossible, impossible]

theorem assignAll?_empty_eq
    {entries : List (Segment × Nat)}
    (distinct : (entries.map Prod.fst).Nodup) :
    assignAll? entries empty =
      if (setAll entries empty).isPossible then some (setAll entries empty) else none :=
  assignAll?_eq_of_fresh distinct (fun _ _ => get?_empty _) rfl

theorem fits_setAll_iff
    {entries : List (Segment × Nat)}
    (distinct : (entries.map Prod.fst).Nodup)
    {moment : DateTime} :
    (setAll entries empty).Fits moment ↔
      ∀ entry ∈ entries, moment.valueOf entry.1 = entry.2 := by
  constructor
  · rintro fits ⟨segment, value⟩ isEntry
    exact fits segment value (get?_setAll_of_mem distinct isEntry empty)
  · intro agrees segment value defined
    exact agrees (segment, value) ((get?_setAll_empty_eq_some_iff distinct).mp defined)

/-- Values are assigned exactly if some point of civil time has them all, and then they are defined. -/
theorem assignAll?_eq_some_iff
    {entries : List (Segment × Nat)}
    (distinct : (entries.map Prod.fst).Nodup)
    {date : PartialDate} :
    assignAll? entries empty = some date ↔
      date = setAll entries empty ∧
        ∃ moment : DateTime,
          moment.IsCivil ∧ ∀ entry ∈ entries, moment.valueOf entry.1 = entry.2 := by
  have possible : (setAll entries empty).isPossible = true ↔
      ∃ moment : DateTime,
        moment.IsCivil ∧ ∀ entry ∈ entries, moment.valueOf entry.1 = entry.2 := by
    simp only [isPossible_iff_exists_fits, fits_setAll_iff distinct]
  rw [assignAll?_empty_eq distinct, ← possible]
  split
  · next isPossible => simp [isPossible, eq_comm]
  · next impossible => simp [impossible]

/-- The order of assignments to different segments has no influence on what is defined. -/
theorem setAll_empty_perm
    {entries others : List (Segment × Nat)}
    (distinct : (entries.map Prod.fst).Nodup)
    (perm : others.Perm entries) :
    setAll others empty = setAll entries empty := by
  have othersDistinct : (others.map Prod.fst).Nodup := (perm.map Prod.fst).nodup_iff.mpr distinct
  apply ext_get?
  intro segment
  apply Option.ext
  intro value
  rw [get?_setAll_empty_eq_some_iff othersDistinct, get?_setAll_empty_eq_some_iff distinct,
    perm.mem_iff]

theorem assignAll?_empty_perm
    {entries others : List (Segment × Nat)}
    (distinct : (entries.map Prod.fst).Nodup)
    (perm : others.Perm entries) :
    assignAll? others empty = assignAll? entries empty := by
  have othersDistinct : (others.map Prod.fst).Nodup := (perm.map Prod.fst).nodup_iff.mpr distinct
  rw [assignAll?_empty_eq othersDistinct, assignAll?_empty_eq distinct,
    setAll_empty_perm distinct perm]

end PartialDate

end ClassStore.Date
