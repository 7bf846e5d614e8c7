import ClassStore.Catalog.Basic
import ClassStore.Query.CompileError
import ClassStore.Query.Fragment
import ClassStore.Search.Node

/-!
# Compilation of a leaf

A leaf becomes a condition on one column of the class view.  Values never
become part of the condition: each is bound to a placeholder, in the order in
which the placeholders are written.  Of a partial date only the defined
segments take part, and where they are to be ordered they must form one run.
-/

namespace ClassStore.Query

open ClassStore.Catalog
open ClassStore.Search
open ClassStore.Date

/-- A computation that binds values as it goes and may fail. -/
abbrev Compiling :=
  ExceptT CompileError (StateM (List Scalar))

/-- What a search is compiled for. -/
structure Target where
  backend : Backend
  catalog : Catalog
  key : String

/-- Binds a value to the next placeholder. -/
def bindValue (value : Scalar) : Compiling Unit :=
  modify fun binds => binds ++ [value]

/-- Binds values to the next placeholders, one after the other. -/
def bindValues : List Scalar → Compiling Unit
  | [] => pure ()
  | value :: values => do
      bindValue value
      bindValues values

/--
The value as the driver of a backend takes it.

SQLite has neither truth values nor dates.  The one become numbers; the others
become texts, which are in the order of time for years of at most four digits.
-/
def boundValue : Backend → Scalar → Scalar
  | .postgres, value => value
  | .sqlite, .boolean value => .integer (if value then 1 else 0)
  | .sqlite, .date value =>
      match value.toDateTime? with
      | some moment => .string (moment.text " ")
      | none => .string value.segmentText
  | .sqlite, value => value

/--
The value as a comparison takes it.

The operator of SQLite for regular expressions heeds letter case, so there the
pattern itself has to ask for the opposite.
-/
def comparedValue (backend : Backend) (comparison : Comparison) (value : Scalar) : Scalar :=
  match backend, comparison, value with
  | .sqlite, .regex, .string pattern => .string ("(?i)" ++ pattern)
  | backend, _, value => boundValue backend value

/-- Fails because the values of a leaf do not fit. -/
def mismatched {Output : Type} (leaf : Leaf) (mismatch : Mismatch) : Compiling Output :=
  throw (.typeMismatch leaf.path mismatch)

/-- The column of a path and the type that its values are compared as. -/
def Target.column (target : Target) (path : String) :
    Except CompileError (String × SemanticType) :=
  match target.catalog.resolvePath? target.key path with
  | some resolved => .ok (resolved.column, resolved.attr.searchType)
  | none => .error (.unknownAttribute path target.key)

/-- The value is a text whose letter case does not count. -/
def foldsCase (type : SemanticType) (value : Scalar) : Bool :=
  type.isCaseFolded && value.variant = .string

/-- Compares a column with a date, or with the segments that are defined. -/
def compileDateComparison (backend : Backend) (leaf : Leaf) (column : String)
    (comparison : Comparison) (date : PartialDate) : Compiling Fragment :=
  let operator := SqlComparison.ofComparison comparison leaf.negated
  if comparison = .like ∨ comparison = .regex then
    mismatched leaf (.dateOperand (.compare comparison))
  else if date.isComplete then do
    bindValue (boundValue backend (.date date))
    pure (.compare (.column column false) operator (.placeholder false))
  else if comparison.isOrdering && !date.segments.isContiguous then
    mismatched leaf (.brokenSegments (.compare comparison) date.segments)
  else do
    bindValue (.string date.segmentText)
    pure (.compare (.datePart column date.segments) operator (.placeholder false))

def compileComparison (backend : Backend) (leaf : Leaf) (column : String)
    (type : SemanticType) (comparison : Comparison) (value : Scalar) : Compiling Fragment :=
  match value with
  | .date date => compileDateComparison backend leaf column comparison date
  | value => do
      let folded := foldsCase type value && comparison != .regex
      bindValue (comparedValue backend comparison value)
      pure (.compare (.column column folded)
        (SqlComparison.ofComparison comparison leaf.negated) (.placeholder folded))

/-- Demands that a column lies between two partial dates with the same segments. -/
def compileDateBetween (leaf : Leaf) (column : String) (low high : PartialDate) :
    Compiling Fragment :=
  if low.segments.isContiguous then do
    bindValues [.string low.segmentText, .string high.segmentText]
    pure (.between (.datePart column low.segments) (.placeholder false) (.placeholder false)
      leaf.negated)
  else
    mismatched leaf (.brokenSegments .between low.segments)

/-- Demands that a column lies between two values. -/
def compilePlainBetween (backend : Backend) (leaf : Leaf) (column : String)
    (type : SemanticType) (low high : Scalar) : Compiling Fragment := do
  let folded := foldsCase type low
  bindValues [boundValue backend low, boundValue backend high]
  pure (.between (.column column folded) (.placeholder folded) (.placeholder folded)
    leaf.negated)

/-- Demands that a column lies between two bounds of one kind. -/
def compileBetween (backend : Backend) (leaf : Leaf) (column : String)
    (type : SemanticType) (low high : Scalar) : Compiling Fragment :=
  if low.kind ≠ high.kind then
    mismatched leaf (.unlikeBounds low.kind high.kind)
  else
    match low, high with
    | .date lowDate, .date highDate =>
        if lowDate.isComplete then
          compilePlainBetween backend leaf column type low high
        else
          compileDateBetween leaf column lowDate highDate
    | _, _ => compilePlainBetween backend leaf column type low high

/-- Adds a date to the group with the same defined segments, or begins a new group. -/
def addToGroups (date : PartialDate) :
    List (SegmentSet × List PartialDate) → List (SegmentSet × List PartialDate)
  | [] => [(date.segments, [date])]
  | (segments, dates) :: groups =>
      if segments = date.segments then
        (segments, dates ++ [date]) :: groups
      else
        (segments, dates) :: addToGroups date groups

/-- Groups dates by their defined segments, in the order in which these first occur. -/
def groupBySegments (dates : List PartialDate) : List (SegmentSet × List PartialDate) :=
  dates.foldl (fun groups date => addToGroups date groups) []

/-- Placeholders for the given number of values. -/
def placeholders (count : Nat) (folded : Bool) : List Fragment :=
  List.replicate count (.placeholder folded)

/-- Demands that a column agrees with one of some dates with the same segments. -/
def compileDateGroup (backend : Backend) (leaf : Leaf) (column : String)
    (segments : SegmentSet) (dates : List PartialDate) : Compiling Fragment :=
  if segments = SegmentSet.full then do
    bindValues (dates.map fun date => boundValue backend (.date date))
    pure (.among (.column column false) (placeholders dates.length false) leaf.negated)
  else do
    bindValues (dates.map fun date => .string date.segmentText)
    pure (.among (.datePart column segments) (placeholders dates.length false) leaf.negated)

/-- Compiles the groups of dates one after the other. -/
def compileDateGroups (backend : Backend) (leaf : Leaf) (column : String) :
    List (SegmentSet × List PartialDate) → Compiling (List Fragment)
  | [] => pure []
  | (segments, dates) :: groups => do
      let fragment ← compileDateGroup backend leaf column segments dates
      let fragments ← compileDateGroups backend leaf column groups
      pure (fragment :: fragments)

/-- Demands that a column agrees with one of some dates. -/
def compileAnyDate (backend : Backend) (leaf : Leaf) (column : String)
    (dates : List PartialDate) : Compiling Fragment := do
  let fragments ← compileDateGroups backend leaf column (groupBySegments dates)
  match fragments with
  | [fragment] => pure fragment
  | fragments => pure (.group (if leaf.negated then .all else .any) fragments true)

/-- The dates that the values are, if all of them are dates. -/
def allDates? : List Scalar → Option (List PartialDate)
  | [] => some []
  | value :: values => do
      let date ← value.date?
      let dates ← allDates? values
      some (date :: dates)

/-- Demands that a column has one of some values. -/
def compileAny (backend : Backend) (leaf : Leaf) (column : String)
    (type : SemanticType) (values : List Scalar) : Compiling Fragment :=
  match values with
  | [] => mismatched leaf .noValues
  | first :: _ =>
      match allDates? values with
      | some dates => compileAnyDate backend leaf column dates
      | none =>
          match findOdd? first values with
          | some odd => mismatched leaf (.mixedValues first.kind odd.kind)
          | none => do
              let folded := foldsCase type first
              bindValues (values.map (boundValue backend))
              pure (.among (.column column folded) (placeholders values.length folded)
                leaf.negated)

/-- Compiles a leaf whose column and type are known. -/
def compileOnColumn (backend : Backend) (leaf : Leaf) (column : String)
    (type : SemanticType) : Compiling Fragment :=
  match leaf.value, leaf.operator with
  | .null, .compare .eq => pure (.isNull (.column column false) leaf.negated)
  | .null, .compare .ne => pure (.isNull (.column column false) (!leaf.negated))
  | .null, operator => mismatched leaf (.nullOperand operator)
  | .scalar value, .compare comparison =>
      compileComparison backend leaf column type comparison value
  | .scalar _, operator => mismatched leaf (.tooFewValues operator)
  | .pair low high, .between => compileBetween backend leaf column type low high
  | .list values, .any => compileAny backend leaf column type values
  | _, operator => mismatched leaf (.wrongOperand operator)

def Target.compileLeaf (target : Target) (leaf : Leaf) : Compiling Fragment :=
  match target.column leaf.path with
  | .ok (column, type) => compileOnColumn target.backend leaf column type
  | .error error => throw error

end ClassStore.Query
