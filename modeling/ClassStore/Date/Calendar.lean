import ClassStore.Text.Numeral

/-!
# Calendar and clock

The proleptic Gregorian calendar and the twenty-four hour clock.  `DateTime`
is a point of civil time; `DateTime.text` writes it with a sign in front of any
year that does not have four digits.

Dates and times come from a date library.  What is written here is what the library
documents of them: its calendar is the Gregorian one, extended by the same rules to all
the years before; it constructs the days and times that are on the calendar and on the
clock, and no others; and it formats a year with at least four digits, and with a sign
outside of 0 to 9999.  Nothing else of it is used.
-/

namespace ClassStore.Date

/-- Every fourth year is a leap year, except centuries not divisible by four.  By the same
rule the year 0 is one, and so are years before it. -/
def isLeapYear (year : Int) : Bool :=
  year % 4 = 0 && (year % 100 ≠ 0 || year % 400 = 0)

/-- The number of days of a month; no month but the twelve has any. -/
def daysInMonth (year : Int) (month : Nat) : Nat :=
  if month = 2 then
    if isLeapYear year then 29 else 28
  else if month = 4 ∨ month = 6 ∨ month = 9 ∨ month = 11 then
    30
  else if 1 ≤ month ∧ month ≤ 12 then
    31
  else
    0

/-- The library constructs a date from these numbers. -/
def isCalendarDay (year : Int) (month day : Nat) : Bool :=
  1 ≤ day && day ≤ daysInMonth year month

/-- The library constructs a time from these numbers: the clock shows it once a day.  The
second is never 60, since the library counts leap seconds in nanoseconds. -/
def isClockTime (hour minute second : Nat) : Bool :=
  hour < 24 && minute < 60 && second < 60

/-- A point of civil time, with the fields that the library gives access to. -/
structure DateTime where
  year : Int
  month : Nat
  day : Nat
  hour : Nat
  minute : Nat
  second : Nat
  nanosecond : Nat
deriving DecidableEq, Repr

namespace DateTime

/-- The day is in the calendar and the time is on the clock. -/
def isValid (moment : DateTime) : Bool :=
  isCalendarDay moment.year moment.month moment.day &&
    isClockTime moment.hour moment.minute moment.second &&
    moment.nanosecond < 1000000000

/-- The moment without the part of its last second. -/
def wholeSecond (moment : DateTime) : DateTime :=
  { moment with nanosecond := 0 }

/-- A year as the library formats it: with at least four digits, and with a sign when it is
not from 0 to 9999. -/
def yearText (year : Int) : String :=
  if year < 0 then
    "-" ++ Text.padded 4 year.natAbs
  else if 9999 < year then
    "+" ++ Text.padded 4 year.natAbs
  else
    Text.padded 4 year.natAbs

/-- The moment down to the second, with the given text between day and time. -/
def text (between : String) (moment : DateTime) : String :=
  yearText moment.year ++ "-" ++ Text.padded 2 moment.month ++ "-" ++
    Text.padded 2 moment.day ++ between ++ Text.padded 2 moment.hour ++ ":" ++
    Text.padded 2 moment.minute ++ ":" ++ Text.padded 2 moment.second

end DateTime

end ClassStore.Date
