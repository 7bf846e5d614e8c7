import ClassStore.Backend

/-!
# Segments of a date

A date is made of six segments, from the year down to the second.  A
`SegmentSet` says which of them are defined.  Only an unbroken run of segments
can be ordered, so `SegmentSet.isContiguous` decides which comparisons a
partial date admits.
-/

namespace ClassStore.Date

/-- The six segments of a date and time of day. -/
inductive Segment where
  | year
  | month
  | day
  | hour
  | minute
  | second
deriving DecidableEq, Repr

namespace Segment

/-- The segments from the coarsest to the finest. -/
def all : List Segment :=
  [.year, .month, .day, .hour, .minute, .second]

/-- The name by which a segment is called in messages. -/
def name : Segment → String
  | .year => "year"
  | .month => "month"
  | .day => "day"
  | .hour => "hour"
  | .minute => "minute"
  | .second => "second"

/-- The number of digits a segment is written with. -/
def width : Segment → Nat
  | .year => 4
  | _ => 2

/-- The pattern that makes a backend format the segment with its full width. -/
def pattern : Backend → Segment → String
  | .postgres, .year => "YYYY"
  | .postgres, .month => "MM"
  | .postgres, .day => "DD"
  | .postgres, .hour => "HH24"
  | .postgres, .minute => "MI"
  | .postgres, .second => "SS"
  | .sqlite, .year => "%Y"
  | .sqlite, .month => "%m"
  | .sqlite, .day => "%d"
  | .sqlite, .hour => "%H"
  | .sqlite, .minute => "%M"
  | .sqlite, .second => "%S"

end Segment

/-- A set of segments. -/
structure SegmentSet where
  year : Bool
  month : Bool
  day : Bool
  hour : Bool
  minute : Bool
  second : Bool
deriving DecidableEq, Repr

namespace SegmentSet

/-- No segment is defined. -/
def empty : SegmentSet :=
  ⟨false, false, false, false, false, false⟩

/-- A complete date and time. -/
def full : SegmentSet :=
  ⟨true, true, true, true, true, true⟩

def contains (segments : SegmentSet) : Segment → Bool
  | .year => segments.year
  | .month => segments.month
  | .day => segments.day
  | .hour => segments.hour
  | .minute => segments.minute
  | .second => segments.second

def insert (segments : SegmentSet) : Segment → SegmentSet
  | .year => { segments with year := true }
  | .month => { segments with month := true }
  | .day => { segments with day := true }
  | .hour => { segments with hour := true }
  | .minute => { segments with minute := true }
  | .second => { segments with second := true }

/-- The members from the coarsest to the finest. -/
def toList (segments : SegmentSet) : List Segment :=
  Segment.all.filter segments.contains

def isEmpty (segments : SegmentSet) : Bool :=
  segments.toList.isEmpty

def size (segments : SegmentSet) : Nat :=
  segments.toList.length

/-- The members form one unbroken and nonempty run. -/
def isContiguous (segments : SegmentSet) : Bool :=
  let fromFirst := Segment.all.dropWhile fun segment => !segments.contains segment
  let afterRun := fromFirst.dropWhile segments.contains
  !segments.isEmpty && !afterRun.any segments.contains

/-- The pattern that makes a backend format exactly the members. -/
def pattern (backend : Backend) (segments : SegmentSet) : String :=
  String.join (segments.toList.map (Segment.pattern backend))

/-- The set as messages name it. -/
def text (segments : SegmentSet) : String :=
  if segments.isEmpty then
    "none"
  else
    String.intercalate "+" (segments.toList.map Segment.name)

/-- After adding a segment exactly it and the old members belong to the set. -/
@[simp]
theorem contains_insert
    (segments : SegmentSet)
    (added wanted : Segment) :
    (segments.insert added).contains wanted =
      (wanted == added || segments.contains wanted) := by
  cases added <;> cases wanted <;> simp [insert, contains]

end SegmentSet

end ClassStore.Date
