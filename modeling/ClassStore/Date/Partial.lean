import ClassStore.Date.Segment
import ClassStore.Date.Calendar

/-!
# Partial dates

A partial date defines any subset of the six segments.  Segments are assigned
one at a time, and an assignment is refused as soon as no real date fits the
defined segments any more.  Where the year is open the twenty-ninth of February
is possible.
-/

namespace ClassStore.Date

/-- A date and time of day of which any subset of the segments is defined. -/
structure PartialDate where
  year : Option Nat
  month : Option Nat
  day : Option Nat
  hour : Option Nat
  minute : Option Nat
  second : Option Nat
deriving DecidableEq, Repr

namespace PartialDate

/-- The date of which nothing is defined. -/
def empty : PartialDate :=
  ⟨none, none, none, none, none, none⟩

/-- The value of a segment, if it is defined. -/
def get? (date : PartialDate) : Segment → Option Nat
  | .year => date.year
  | .month => date.month
  | .day => date.day
  | .hour => date.hour
  | .minute => date.minute
  | .second => date.second

/-- Defines a segment without asking whether the result is possible. -/
def set (date : PartialDate) (segment : Segment) (value : Nat) : PartialDate :=
  match segment with
  | .year => { date with year := some value }
  | .month => { date with month := some value }
  | .day => { date with day := some value }
  | .hour => { date with hour := some value }
  | .minute => { date with minute := some value }
  | .second => { date with second := some value }

def segments (date : PartialDate) : SegmentSet where
  year := date.year.isSome
  month := date.month.isSome
  day := date.day.isSome
  hour := date.hour.isSome
  minute := date.minute.isSome
  second := date.second.isSome

def isComplete (date : PartialDate) : Bool :=
  date.segments == SegmentSet.full

/-- A defined year has at most four digits. -/
def yearIsPossible (date : PartialDate) : Bool :=
  match date.year with
  | some year => year ≤ 9999
  | none => true

/-- Some calendar day has the defined month and day, in the year if it is defined. -/
def dayIsPossible (date : PartialDate) : Bool :=
  match date.month, date.day with
  | some month, some day => isCalendarDay (date.year.getD 2000) month day
  | some month, none => 1 ≤ month && month ≤ 12
  | none, some day => 1 ≤ day && day ≤ 31
  | none, none => true

/-- Some time on the clock has the defined hour, minute and second. -/
def timeIsPossible (date : PartialDate) : Bool :=
  isClockTime (date.hour.getD 0) (date.minute.getD 0) (date.second.getD 0)

/-- Some real date fits the defined segments. -/
def isPossible (date : PartialDate) : Bool :=
  date.yearIsPossible && date.dayIsPossible && date.timeIsPossible

/-- Defines a segment, or refuses if no real date would fit any more. -/
def assign? (date : PartialDate) (segment : Segment) (value : Nat) : Option PartialDate :=
  let assigned := date.set segment value
  if assigned.isPossible then some assigned else none

/-- The segments of a point of civil time; a year before the year 0 stays open. -/
def ofDateTime (moment : DateTime) : PartialDate where
  year := if moment.year < 0 then none else some moment.year.toNat
  month := some moment.month
  day := some moment.day
  hour := some moment.hour
  minute := some moment.minute
  second := some moment.second

/-- The point of civil time that a complete date denotes. -/
def toDateTime? (date : PartialDate) : Option DateTime :=
  match date.year, date.month, date.day, date.hour, date.minute, date.second with
  | some year, some month, some day, some hour, some minute, some second =>
      if isCalendarDay year month day && isClockTime hour minute second then
        some ⟨year, month, day, hour, minute, second, 0⟩
      else
        none
  | _, _, _, _, _, _ => none

/-- A defined segment with its full width. -/
def fieldText (date : PartialDate) (segment : Segment) : Option String :=
  (date.get? segment).map (Text.padded segment.width)

/-- The defined segments with their full widths, one after the other. -/
def segmentText (date : PartialDate) : String :=
  String.join (Segment.all.filterMap date.fieldText)

/-- After defining a segment it has its new value and the others their old ones. -/
@[simp]
theorem get?_set
    (date : PartialDate)
    (assigned wanted : Segment)
    (value : Nat) :
    (date.set assigned value).get? wanted =
      if wanted = assigned then some value else date.get? wanted := by
  cases assigned <;> cases wanted <;> rfl

/-- The defined segments are those with a value. -/
@[simp]
theorem contains_segments
    (date : PartialDate)
    (segment : Segment) :
    date.segments.contains segment = (date.get? segment).isSome := by
  cases segment <;> rfl

end PartialDate

end ClassStore.Date
