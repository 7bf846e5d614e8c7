import ClassStore.Proofs.Date.SegmentOrder

/-!
# Order of time

`DateTime.elapsed` counts the seconds from the beginning of the year 0 along the
calendar: the days of all earlier years, of the earlier months of the year and of the
month, and the hours, minutes and seconds of the day.  Points of time are in the order
of their counts exactly as they are in the order of their segments, the year first
(`compare_elapsed`).  Texts of points of time have the same order exactly if the texts of
the years have it (`compare_text_iff`), which is the case for years of four digits.  A
longer year is written behind a sign, which comes before every digit, so its text comes
before theirs (`compare_yearText_of_long`).
-/

namespace ClassStore.Date

/-! ## Counting seconds -/

/-- The number of days in the months of a year before the given one. -/
def daysBeforeMonth (year : Int) (month : Nat) : Nat :=
  ((List.range month).map (daysInMonth year)).sum

/-- The number of days in the years from the year 0 on before the given one. -/
def daysBeforeYear : Nat → Nat
  | 0 => 0
  | year + 1 => daysBeforeYear year + daysBeforeMonth year 13

theorem daysBeforeMonth_succ (year : Int) (month : Nat) :
    daysBeforeMonth year (month + 1) =
      daysBeforeMonth year month + daysInMonth year month := by
  simp [daysBeforeMonth, List.range_succ]

theorem daysBeforeMonth_mono (year : Int) : Monotone (daysBeforeMonth year) :=
  monotone_nat_of_le_succ fun month => by
    rw [daysBeforeMonth_succ]
    exact Nat.le_add_right _ _

namespace DateTime

/-- The number of days of the year that are over. -/
def daysOfYear (moment : DateTime) : Nat :=
  daysBeforeMonth moment.year moment.month + (moment.day - 1)

/-- The number of seconds since the beginning of the year 0, without leap seconds. -/
def elapsed (moment : DateTime) : Nat :=
  (((daysBeforeYear moment.year.toNat + moment.daysOfYear) * 24 + moment.hour) * 60 +
    moment.minute) * 60 + moment.second

variable {moment other : DateTime}

theorem daysOfYear_lt
    (isDay : isCalendarDay moment.year moment.month moment.day = true) :
    moment.daysOfYear < daysBeforeMonth moment.year (moment.month + 1) := by
  have day := isCalendarDay_iff.mp isDay
  rw [daysOfYear, daysBeforeMonth_succ]
  omega

/-- Within a year the month decides, and within a month the day. -/
theorem compare_daysOfYear
    (isDay : isCalendarDay moment.year moment.month moment.day = true)
    (otherIsDay : isCalendarDay other.year other.month other.day = true)
    (sameYear : moment.year = other.year) :
    compare moment.daysOfYear other.daysOfYear =
      (compare moment.month other.month).then (compare moment.day other.day) := by
  have below := daysOfYear_lt isDay
  have otherBelow := daysOfYear_lt otherIsDay
  simp only [daysOfYear, ← sameYear] at below otherBelow ⊢
  rw [← Text.compare_pred (isCalendarDay_iff.mp isDay).1 (isCalendarDay_iff.mp otherIsDay).1]
  exact Text.compare_steps (fun month => daysBeforeMonth_mono _ (Nat.le_succ month)) below
    otherBelow

/-- The days of a year are over before the next year begins. -/
theorem daysOfYear_lt_daysBeforeYear
    (isDay : isCalendarDay moment.year moment.month moment.day = true)
    (notNegative : 0 ≤ moment.year) :
    daysBeforeYear moment.year.toNat + moment.daysOfYear <
      daysBeforeYear (moment.year.toNat + 1) := by
  have inDecember : moment.month + 1 ≤ 13 := Nat.succ_le_succ (month_of_isCalendarDay isDay).2
  have below := daysOfYear_lt isDay
  have whole := daysBeforeMonth_mono moment.year inDecember
  rw [daysBeforeYear, Int.toNat_of_nonneg notNegative]
  omega

/-- The year decides first, then the day of the year. -/
theorem compare_days
    (isDay : isCalendarDay moment.year moment.month moment.day = true)
    (otherIsDay : isCalendarDay other.year other.month other.day = true)
    (notNegative : 0 ≤ moment.year)
    (otherNotNegative : 0 ≤ other.year) :
    compare (daysBeforeYear moment.year.toNat + moment.daysOfYear)
        (daysBeforeYear other.year.toNat + other.daysOfYear) =
      (compare moment.year.toNat other.year.toNat).then
        ((compare moment.month other.month).then (compare moment.day other.day)) := by
  have years := Text.compare_steps (fun year => Nat.le_add_right (daysBeforeYear year) _)
    (daysOfYear_lt_daysBeforeYear isDay notNegative)
    (daysOfYear_lt_daysBeforeYear otherIsDay otherNotNegative)
  rw [years]
  refine Text.then_congr fun equal => compare_daysOfYear isDay otherIsDay ?_
  have sameYear := Nat.compare_eq_eq.mp equal
  omega

/-- Points of time are in the order of their segments, the year first. -/
theorem compare_elapsed
    (isReal : moment.IsReal)
    (otherIsReal : other.IsReal)
    (notNegative : 0 ≤ moment.year)
    (otherNotNegative : 0 ≤ other.year) :
    compare moment.elapsed other.elapsed =
      compare (Segment.all.map moment.countOf) (Segment.all.map other.countOf) := by
  obtain ⟨isDay, isTime⟩ := isValid_wholeSecond_iff.mp isReal.isValid
  obtain ⟨otherIsDay, otherIsTime⟩ := isValid_wholeSecond_iff.mp otherIsReal.isValid
  simp only [isClockTime, Bool.and_eq_true, decide_eq_true_eq] at isTime otherIsTime
  rw [elapsed, elapsed, Text.compare_mul_add isTime.2 otherIsTime.2,
    Text.compare_mul_add isTime.1.2 otherIsTime.1.2,
    Text.compare_mul_add isTime.1.1 otherIsTime.1.1,
    compare_days isDay otherIsDay notNegative otherNotNegative]
  simp only [Segment.all, List.map_cons, List.map_nil, List.compare_cons_cons,
    List.compare_nil_nil, countOf, valueOf, Int.toNat_natCast, Ordering.then_assoc,
    Ordering.then_eq]

/-! ## Texts of points of time -/

/-- What stands in front of a segment in the text of a point of time. -/
def separator (sign : List Char) (between : String) : Segment → List Char
  | .year => sign
  | .month | .day => ['-']
  | .hour => between.toList
  | .minute | .second => [':']

/-- The number of digits of a segment in the text of a point of time. -/
def digitsOf (yearDigits : Nat) : Segment → Nat
  | .year => yearDigits
  | segment => segment.width

theorem digitsOf_of_ne
    {segment : Segment}
    (notYear : segment ≠ .year)
    (yearDigits : Nat) :
    digitsOf yearDigits segment = segment.width := by
  cases segment with
  | year => exact absurd rfl notYear
  | month | day | hour | minute | second => rfl

/-- The year is written behind the sign, and fits into the given number of digits. -/
structure WritesYear (sign : List Char) (yearDigits : Nat) (moment : DateTime) : Prop where
  positive : 0 < yearDigits
  fits : moment.countOf .year < 10 ^ yearDigits
  toList_yearText : (yearText moment.year).toList =
    sign ++ (Text.padded yearDigits (moment.countOf .year)).toList

theorem natAbs_year (notNegative : 0 ≤ moment.year) :
    moment.year.natAbs = moment.countOf .year := by
  rw [countOf, valueOf]
  omega

theorem writesYear_of_le
    (notNegative : 0 ≤ moment.year)
    (fourDigits : moment.year ≤ 9999) :
    WritesYear [] 4 moment where
  positive := by decide
  fits := by
    rw [countOf, valueOf]
    omega
  toList_yearText := by
    rw [yearText, if_neg (by omega), if_neg (by omega), natAbs_year notNegative]
    rfl

/-- A year of more than four digits is written with as many digits as it has. -/
theorem writesYear_of_long (long : 9999 < moment.year) :
    WritesYear ['+'] (Nat.toDigits 10 (moment.countOf .year)).length moment where
  positive := Nat.length_toDigits_pos
  fits := (Nat.length_toDigits_le_iff (by decide) Nat.length_toDigits_pos).mp (Nat.le_refl _)
  toList_yearText := by
    have large : 10 ^ 4 ≤ moment.countOf .year := by
      rw [countOf, valueOf]
      omega
    have digits := Nat.le_of_lt (Text.lt_length_toDigits (by decide) large)
    rw [yearText, if_neg (by omega), if_pos long, natAbs_year (by omega), String.toList_append,
      Text.toList_padded_of_le digits, Text.toList_padded_of_le (Nat.le_refl _)]
    rfl

section

variable {sign : List Char} {yearDigits : Nat}

/-- The text of a point of time is a row of numbers. -/
theorem toList_text
    (year : WritesYear sign yearDigits moment)
    (between : String) :
    (moment.text between).toList =
      Text.rowText (separator sign between) (digitsOf yearDigits) Segment.all moment.countOf := by
  simp only [text, String.toList_append, year.toList_yearText, Text.rowText, Segment.all,
    List.flatMap_cons, List.flatMap_nil, List.append_nil, List.append_assoc]
  rfl

theorem countOf_lt_of_writesYear
    (isReal : moment.IsReal)
    (year : WritesYear sign yearDigits moment)
    (segment : Segment) :
    moment.countOf segment < 10 ^ digitsOf yearDigits segment := by
  by_cases isYear : segment = .year
  · rw [isYear]
    exact year.fits
  · rw [digitsOf_of_ne isYear]
    exact PartialDate.countOf_lt_of_isReal isReal isYear

/-- Texts whose years have one sign and one width are in the order of the segments. -/
theorem compare_text_of_writesYear
    (isReal : moment.IsReal)
    (otherIsReal : other.IsReal)
    (year : WritesYear sign yearDigits moment)
    (otherYear : WritesYear sign yearDigits other)
    (between : String) :
    compare (moment.text between) (other.text between) =
      compare (Segment.all.map moment.countOf) (Segment.all.map other.countOf) := by
  rw [Text.compare_toList, toList_text year, toList_text otherYear]
  refine Text.compare_rowText _ _ (fun segment _ => ?_)
    (fun segment _ => countOf_lt_of_writesYear isReal year segment)
    fun segment _ => countOf_lt_of_writesYear otherIsReal otherYear segment
  by_cases isYear : segment = .year
  · rw [isYear]
    exact year.positive
  · rw [digitsOf_of_ne isYear]
    exact PartialDate.width_pos segment

end

/-! ## Texts of years -/

theorem WritesYear.length
    {sign : List Char}
    {yearDigits : Nat}
    (year : WritesYear sign yearDigits moment) :
    (yearText moment.year).length = sign.length + yearDigits := by
  rw [← String.length_toList, year.toList_yearText, List.length_append,
    Text.length_padded_of_lt year.positive year.fits]

/-- A year of more than four digits is written with at least six characters. -/
theorem length_yearText_of_long (long : 9999 < moment.year) :
    6 ≤ (yearText moment.year).length := by
  have large : 10 ^ 4 ≤ moment.countOf .year := by
    rw [countOf, valueOf]
    omega
  have digits := Text.lt_length_toDigits (by decide) large
  rw [(writesYear_of_long long).length, List.length_singleton]
  omega

/-- Years that are written with equally many characters have one sign and one width. -/
theorem exists_writesYear_of_length_eq
    (notNegative : 0 ≤ moment.year)
    (otherNotNegative : 0 ≤ other.year)
    (length : (yearText moment.year).length = (yearText other.year).length) :
    ∃ sign yearDigits, WritesYear sign yearDigits moment ∧ WritesYear sign yearDigits other := by
  rcases Int.lt_or_le 9999 moment.year with long | fourDigits
  · rcases Int.lt_or_le 9999 other.year with otherLong | otherFourDigits
    · have year := writesYear_of_long long
      have otherYear := writesYear_of_long otherLong
      rw [year.length, otherYear.length] at length
      rw [← Nat.add_left_cancel length] at otherYear
      exact ⟨_, _, year, otherYear⟩
    · have characters := length_yearText_of_long long
      rw [length, (writesYear_of_le otherNotNegative otherFourDigits).length] at characters
      exact absurd characters (by decide)
  · rcases Int.lt_or_le 9999 other.year with otherLong | otherFourDigits
    · have characters := length_yearText_of_long otherLong
      rw [← length, (writesYear_of_le notNegative fourDigits).length] at characters
      exact absurd characters (by decide)
    · exact ⟨_, _, writesYear_of_le notNegative fourDigits,
        writesYear_of_le otherNotNegative otherFourDigits⟩

/-- The years are ordered like their texts. -/
def YearsInOrder (year other : Int) : Prop :=
  compare (yearText year) (yearText other) = compare year other

theorem compare_countOf_year
    (notNegative : 0 ≤ moment.year)
    (otherNotNegative : 0 ≤ other.year) :
    compare (moment.countOf .year) (other.countOf .year) =
      compare moment.year other.year := by
  have less : moment.countOf .year < other.countOf .year ↔ moment.year < other.year := by
    simp only [countOf, valueOf]
    omega
  have equal : moment.countOf .year = other.countOf .year ↔ moment.year = other.year := by
    simp only [countOf, valueOf]
    omega
  change compareOfLessAndEq _ _ = compareOfLessAndEq _ _
  simp only [compareOfLessAndEq, less, equal]

theorem yearsInOrder_of_length_eq
    (notNegative : 0 ≤ moment.year)
    (otherNotNegative : 0 ≤ other.year)
    (length : (yearText moment.year).length = (yearText other.year).length) :
    YearsInOrder moment.year other.year := by
  obtain ⟨sign, yearDigits, year, otherYear⟩ :=
    exists_writesYear_of_length_eq notNegative otherNotNegative length
  rw [YearsInOrder, Text.compare_toList, year.toList_yearText, otherYear.toList_yearText,
    Text.compare_append_left, Text.compare_padded year.positive year.fits otherYear.fits,
    compare_countOf_year notNegative otherNotNegative]

theorem yearsInOrder_of_le
    (notNegative : 0 ≤ moment.year)
    (otherNotNegative : 0 ≤ other.year)
    (fourDigits : moment.year ≤ 9999)
    (otherFourDigits : other.year ≤ 9999) :
    YearsInOrder moment.year other.year := by
  apply yearsInOrder_of_length_eq notNegative otherNotNegative
  rw [(writesYear_of_le notNegative fourDigits).length,
    (writesYear_of_le otherNotNegative otherFourDigits).length]

/-- Digits come behind the sign and behind the dash that ends a year. -/
theorem compare_of_isDigit
    {character digit : Char}
    (early : character < '0')
    (isDigit : digit.isDigit = true) :
    compare character digit = .lt :=
  compareOfLessAndEq_eq_lt.mpr
    (Nat.lt_of_lt_of_le early (Char.isDigit_iff_toNat.mp isDigit).1)

/-- The sign of a year of more than four digits comes before the digits of all shorter years. -/
theorem compare_yearText_of_long
    (notNegative : 0 ≤ moment.year)
    (fourDigits : moment.year ≤ 9999)
    (long : 9999 < other.year) :
    compare (yearText other.year) (yearText moment.year) = .lt := by
  have year := writesYear_of_le notNegative fourDigits
  obtain ⟨digit, digits, written⟩ :=
    Text.exists_padded_eq_cons year.positive (moment.countOf .year)
  have isDigit : digit.isDigit = true :=
    Text.isDigit_of_mem_padded (written ▸ List.mem_cons_self)
  rw [Text.compare_toList, year.toList_yearText, (writesYear_of_long long).toList_yearText,
    List.nil_append, written, List.singleton_append, List.compare_cons_cons,
    compare_of_isDigit (by decide) isDigit]
  rfl

/-! ## Texts and time -/

/-- The text of a year is digits behind its first character, and a dash ends it. -/
theorem exists_toList_text
    (notNegative : 0 ≤ moment.year)
    (between : String) :
    ∃ first digits rest,
      (yearText moment.year).toList = first :: digits ∧
      (moment.text between).toList = first :: (digits ++ '-' :: rest) ∧
      ∀ digit ∈ digits, compare '-' digit = .lt := by
  obtain ⟨rest, dashed⟩ :
      ∃ rest, (moment.text between).toList = (yearText moment.year).toList ++ '-' :: rest :=
    ⟨_, by simp only [text, String.toList_append, List.append_assoc]; rfl⟩
  rcases Int.lt_or_le 9999 moment.year with long | fourDigits
  · have written := (writesYear_of_long long).toList_yearText
    rw [written] at dashed
    exact ⟨'+', _, rest, written, dashed, fun digit isMember =>
      compare_of_isDigit (by decide) (Text.isDigit_of_mem_padded isMember)⟩
  · have year := writesYear_of_le notNegative fourDigits
    obtain ⟨first, digits, split⟩ :=
      Text.exists_padded_eq_cons year.positive (moment.countOf .year)
    have written := year.toList_yearText
    rw [List.nil_append, split] at written
    rw [written] at dashed
    exact ⟨first, digits, rest, written, dashed, fun digit isMember =>
      compare_of_isDigit (by decide)
        (Text.isDigit_of_mem_padded (split ▸ List.mem_cons_of_mem first isMember))⟩

/-- Years that are not written with equally many characters decide by their texts. -/
theorem compare_text_of_length_ne
    (notNegative : 0 ≤ moment.year)
    (otherNotNegative : 0 ≤ other.year)
    (length : (yearText moment.year).length ≠ (yearText other.year).length)
    (between : String) :
    compare (moment.text between) (other.text between) =
      compare (yearText moment.year) (yearText other.year) := by
  obtain ⟨first, digits, rest, year, text, before⟩ := exists_toList_text notNegative between
  obtain ⟨otherFirst, otherDigits, back, otherYear, otherText, otherBefore⟩ :=
    exists_toList_text otherNotNegative between
  rw [← String.length_toList, ← String.length_toList, year, otherYear] at length
  have different : digits.length ≠ otherDigits.length := fun same => length (congrArg (· + 1) same)
  rw [Text.compare_toList, Text.compare_toList, text, otherText, year, otherYear,
    List.compare_cons_cons, List.compare_cons_cons,
    Text.compare_append_of_length_ne different before otherBefore]

/-- A year of more than four digits puts the text before the texts of all shorter years. -/
theorem compare_text_of_long
    (notNegative : 0 ≤ moment.year)
    (fourDigits : moment.year ≤ 9999)
    (long : 9999 < other.year)
    (between : String) :
    compare (other.text between) (moment.text between) = .lt := by
  have characters := length_yearText_of_long long
  have otherCharacters := (writesYear_of_le notNegative fourDigits).length
  have different : (yearText other.year).length ≠ (yearText moment.year).length := by
    rw [otherCharacters]
    exact Nat.ne_of_gt (Nat.lt_of_lt_of_le (by decide) characters)
  rw [compare_text_of_length_ne (by omega) notNegative different,
    compare_yearText_of_long notNegative fourDigits long]

/-- Different years decide which point of time is the earlier one. -/
theorem compare_elapsed_of_year_ne
    (isReal : moment.IsReal)
    (otherIsReal : other.IsReal)
    (notNegative : 0 ≤ moment.year)
    (otherNotNegative : 0 ≤ other.year)
    (different : moment.year ≠ other.year) :
    compare moment.elapsed other.elapsed = compare moment.year other.year := by
  rw [compare_elapsed isReal otherIsReal notNegative otherNotNegative]
  change compare (moment.countOf .year :: _) (other.countOf .year :: _) = _
  rw [List.compare_cons_cons, compare_countOf_year notNegative otherNotNegative]
  have decided : compare moment.year other.year ≠ .eq :=
    fun equal => different (Std.LawfulEqOrd.eq_of_compare equal)
  cases order : compare moment.year other.year with
  | eq => exact absurd order decided
  | lt | gt => rfl

theorem elapsed_lt_of_year_lt
    (isReal : moment.IsReal)
    (otherIsReal : other.IsReal)
    (notNegative : 0 ≤ moment.year)
    (earlier : moment.year < other.year) :
    moment.elapsed < other.elapsed := by
  rw [← Nat.compare_eq_lt, compare_elapsed_of_year_ne isReal otherIsReal notNegative (by omega)
    (Int.ne_of_lt earlier)]
  exact compareOfLessAndEq_eq_lt.mpr earlier

/-- Texts whose years have equally many characters are in the order of time. -/
theorem compare_text_of_length_eq
    (isReal : moment.IsReal)
    (otherIsReal : other.IsReal)
    (notNegative : 0 ≤ moment.year)
    (otherNotNegative : 0 ≤ other.year)
    (length : (yearText moment.year).length = (yearText other.year).length)
    (between : String) :
    compare (moment.text between) (other.text between) =
      compare moment.elapsed other.elapsed := by
  obtain ⟨sign, yearDigits, year, otherYear⟩ :=
    exists_writesYear_of_length_eq notNegative otherNotNegative length
  rw [compare_elapsed isReal otherIsReal notNegative otherNotNegative,
    compare_text_of_writesYear isReal otherIsReal year otherYear]

/-- Texts are in the order of time exactly if the years are in the order of their texts. -/
theorem compare_text_iff
    (isReal : moment.IsReal)
    (otherIsReal : other.IsReal)
    (notNegative : 0 ≤ moment.year)
    (otherNotNegative : 0 ≤ other.year)
    (between : String) :
    compare (moment.text between) (other.text between) =
        compare moment.elapsed other.elapsed ↔
      YearsInOrder moment.year other.year := by
  by_cases length : (yearText moment.year).length = (yearText other.year).length
  · exact iff_of_true
      (compare_text_of_length_eq isReal otherIsReal notNegative otherNotNegative length between)
      (yearsInOrder_of_length_eq notNegative otherNotNegative length)
  · have different : moment.year ≠ other.year := fun same => length (by rw [same])
    rw [compare_text_of_length_ne notNegative otherNotNegative length,
      compare_elapsed_of_year_ne isReal otherIsReal notNegative otherNotNegative different,
      YearsInOrder]

end DateTime

end ClassStore.Date
