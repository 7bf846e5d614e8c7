import ClassStore.Date.Partial

/-!
# Written form of partial dates

A partial date is written as `YYYY-MM-DDTHH:MM:SS` with the letter x in place
of every digit of an open segment.  Reading accepts capital X as well, a blank
in place of the T, and a form that stops after the day.
-/

namespace ClassStore.Date.PartialDate

/-- The segments in written order, each with what may stand between it and the last. -/
def layout : List (Segment × List Char) :=
  [(.year, []), (.month, ['-']), (.day, ['-']),
   (.hour, ['T', ' ']), (.minute, [':']), (.second, [':'])]

/-- One segment as it is written, open or not. -/
def segmentNotation (date : PartialDate) (segment : Segment) : String :=
  (date.fieldText segment).getD
    (String.ofList (List.replicate segment.width 'x'))

/-- The written form, always with all six segments. -/
def text (date : PartialDate) : String :=
  String.join (layout.map fun (segment, separators) =>
    String.ofList (separators.take 1) ++ date.segmentNotation segment)

/-- Takes one of the separators from the front, if any is required. -/
def dropSeparator (separators characters : List Char) : Option (List Char) :=
  if separators.isEmpty then
    some characters
  else
    match characters with
    | [] => none
    | character :: rest => if separators.contains character then some rest else none

/-- Takes the written segment into account: letters x leave it open. -/
def readField (date : PartialDate) (segment : Segment) (field : List Char) :
    Option PartialDate :=
  if field.all fun character => character = 'x' || character = 'X' then
    some date
  else
    (Text.unsigned? field).bind (date.assign? segment)

/-- Reads the written segments one after the other. -/
def readFields : List (Segment × List Char) → PartialDate → List Char → Option PartialDate
  | [], date, characters => if characters.isEmpty then some date else none
  | (segment, separators) :: following, date, characters => do
      let characters ← dropSeparator separators characters
      let date ← date.readField segment (characters.take segment.width)
      readFields following date (characters.drop segment.width)

/-- The segments that a text of the given length must have. -/
def layoutOfLength (length : Nat) : Option (List (Segment × List Char)) :=
  if length = 10 then
    some (layout.take 3)
  else if length = 19 then
    some layout
  else
    none

/-- Reads a written date that defines at least one segment. -/
def read? (text : String) : Option PartialDate := do
  let expected ← layoutOfLength text.toList.length
  let date ← readFields expected empty text.toList
  if date.segments.isEmpty then none else some date

/-- What is said of a text that is not a written date. -/
def readError (text : String) : String :=
  "invalid date `" ++ text ++
    "`: expected YYYY-MM-DD[THH:MM:SS] with undefined segments written as x"

end ClassStore.Date.PartialDate
