import ClassStore.Proofs.Query.Binding
import Mathlib.Data.List.Perm.Basic

/-!
# What a condition says of a row

A condition is true or false of a row, or unknown where a null takes part in a
comparison.  Truth values are combined by the logic of SQL, in which `unknown` lies
between the other two: AND takes the least and OR the greatest.

How values of a database are compared is left to an `Interpretation`; what is fixed
is how the operators hang together.  Of the comparisons, four are primitive and each
of the others says that a primitive one does not hold.  BETWEEN stands for two
comparisons, and IN for one with each of its items.

Values are bound to placeholders from left to right.  `Fragment.truth` takes the
values that are still to be bound and gives back those that it leaves to what is
written behind it.
-/

namespace ClassStore.Query

open ClassStore.Date
open ClassStore.Search

/-- A truth value of SQL. -/
inductive Truth where
  | no
  | unknown
  | yes
deriving DecidableEq, Repr

namespace Truth

def ofBool (value : Bool) : Truth :=
  if value then .yes else .no

/-- What NOT makes of a truth value. -/
def negate : Truth → Truth
  | .no => .yes
  | .unknown => .unknown
  | .yes => .no

/-- What AND makes of two truth values. -/
def both : Truth → Truth → Truth
  | .no, _ => .no
  | _, .no => .no
  | .unknown, _ => .unknown
  | _, .unknown => .unknown
  | .yes, .yes => .yes

/-- What OR makes of two truth values. -/
def either : Truth → Truth → Truth
  | .yes, _ => .yes
  | _, .yes => .yes
  | .unknown, _ => .unknown
  | _, .unknown => .unknown
  | .no, .no => .no

/-- Negates the truth value if a NOT is written. -/
def negateIf (negated : Bool) (truth : Truth) : Truth :=
  if negated then truth.negate else truth

/-- What the word between two members of a group makes of their truth values. -/
def join : Combinator → Truth → Truth → Truth
  | .all => both
  | .any => either

/-- What a group makes of the truth values of its members; without any it is neutral. -/
def combine : Combinator → List Truth → Truth
  | .all, [] => .yes
  | .any, [] => .no
  | combinator, truth :: truths => join combinator truth (combine combinator truths)

/-- The combinator that a negation turns the combinator into. -/
def dual : Combinator → Combinator
  | .all => .any
  | .any => .all

@[simp]
theorem negate_negate (truth : Truth) : truth.negate.negate = truth := by
  cases truth <;> rfl

theorem ofBool_not (value : Bool) : ofBool (!value) = (ofBool value).negate := by
  cases value <;> rfl

theorem negateIf_not (negated : Bool) (truth : Truth) :
    negateIf (!negated) truth = (negateIf negated truth).negate := by
  cases negated <;> simp [negateIf]

theorem join_assoc (combinator : Combinator) (first second third : Truth) :
    join combinator (join combinator first second) third =
      join combinator first (join combinator second third) := by
  cases combinator <;> cases first <;> cases second <;> cases third <;> rfl

theorem join_comm (combinator : Combinator) (left right : Truth) :
    join combinator left right = join combinator right left := by
  cases combinator <;> cases left <;> cases right <;> rfl

theorem combine_nil_join (combinator : Combinator) (truth : Truth) :
    join combinator (combine combinator []) truth = truth := by
  cases combinator <;> cases truth <;> rfl

theorem combine_singleton (combinator : Combinator) (truth : Truth) :
    combine combinator [truth] = truth := by
  cases combinator <;> cases truth <;> rfl

theorem combine_append (combinator : Combinator) (front back : List Truth) :
    combine combinator (front ++ back) =
      join combinator (combine combinator front) (combine combinator back) := by
  induction front with
  | nil => rw [List.nil_append, combine_nil_join]
  | cons truth front inductionHypothesis =>
      rw [List.cons_append, combine, combine, inductionHypothesis, join_assoc]

/-- A group of groups of one combinator is the group of all their members. -/
theorem combine_flatMap
    {Item : Type}
    (combinator : Combinator)
    (truths : Item → List Truth)
    (items : List Item) :
    combine combinator (items.flatMap truths) =
      combine combinator (items.map fun item => combine combinator (truths item)) := by
  induction items with
  | nil => rfl
  | cons item items inductionHypothesis =>
      rw [List.flatMap_cons, List.map_cons, combine_append, combine, inductionHypothesis]

/-- The order of its members means nothing to a group. -/
theorem combine_perm
    (combinator : Combinator)
    {left right : List Truth}
    (permuted : left.Perm right) :
    combine combinator left = combine combinator right := by
  induction permuted with
  | nil => rfl
  | cons truth _ inductionHypothesis => rw [combine, combine, inductionHypothesis]
  | swap first second truths =>
      rw [combine, combine, combine, combine, ← join_assoc, ← join_assoc,
        join_comm combinator second first]
  | trans _ _ front back => exact front.trans back

/-- By De Morgan, a group is negated by its other combinator and its negated members. -/
theorem negate_combine (combinator : Combinator) (truths : List Truth) :
    (combine combinator truths).negate =
      combine (dual combinator) (truths.map negate) := by
  induction truths with
  | nil => cases combinator <;> rfl
  | cons truth truths inductionHypothesis =>
      rw [List.map_cons, combine, combine, ← inductionHypothesis]
      generalize combine combinator truths = rest
      cases combinator <;> cases truth <;> cases rest <;> rfl

end Truth

/-! ## Comparing values -/

/--
How the values of a database are compared, none of which is null.

A segment of a value can be missing, as it is where the value is no date.
-/
structure Interpretation (Datum : Type) where
  lower : Datum → Datum
  part : SegmentSet → Datum → Option Datum
  equal : Datum → Datum → Bool
  less : Datum → Datum → Bool
  like : Datum → Datum → Bool
  regex : Datum → Datum → Bool

variable {Datum : Type}

/-- The comparison holds between two values that are not null. -/
def SqlComparison.holds (meaning : Interpretation Datum) :
    SqlComparison → Datum → Datum → Bool
  | .eq, left, right => meaning.equal left right
  | .ne, left, right => !meaning.equal left right
  | .lt, left, right => meaning.less left right
  | .ge, left, right => !meaning.less left right
  | .gt, left, right => meaning.less right left
  | .le, left, right => !meaning.less right left
  | .like, left, right => meaning.like left right
  | .notLike, left, right => !meaning.like left right
  | .regex, left, right => meaning.regex left right
  | .notRegex, left, right => !meaning.regex left right

/-- Nothing is known of a comparison in which a null takes part. -/
def SqlComparison.truth (meaning : Interpretation Datum) (comparison : SqlComparison) :
    Option Datum → Option Datum → Truth
  | some left, some right => .ofBool (comparison.holds meaning left right)
  | _, _ => .unknown

/-- The comparison that is written for a negated one is its negation. -/
theorem SqlComparison.truth_ofComparison_not
    (meaning : Interpretation Datum)
    (comparison : Comparison)
    (negated : Bool)
    (left right : Option Datum) :
    (ofComparison comparison (!negated)).truth meaning left right =
      ((ofComparison comparison negated).truth meaning left right).negate := by
  cases left with
  | none => rfl
  | some left =>
      cases right with
      | none => rfl
      | some right =>
          cases comparison <;> cases negated <;>
            simp [truth, ofComparison, holds, Truth.ofBool_not]

/-! ## Evaluating conditions -/

/-- Makes letter case irrelevant; of a null nothing is made. -/
def Interpretation.fold (meaning : Interpretation Datum) (folded : Bool)
    (value : Option Datum) : Option Datum :=
  if folded then value.map meaning.lower else value

namespace Fragment

variable (meaning : Interpretation Datum) (row : String → Option Datum)

/-- The value of one side of a comparison, and what is left of the bound values. -/
def operand : Fragment → List (Option Datum) → Option Datum × List (Option Datum)
  | .column name folded, values => (meaning.fold folded (row name), values)
  | .placeholder folded, values => (meaning.fold folded (values.headD none), values.tail)
  | .datePart name segments, values => ((row name).bind (meaning.part segments), values)
  | _, values => (none, values)

/-- The values of some operands from left to right. -/
def operands : List Fragment → List (Option Datum) → List (Option Datum) × List (Option Datum)
  | [], values => ([], values)
  | fragment :: fragments, values =>
      let (value, values) := fragment.operand meaning row values
      let (others, values) := operands fragments values
      (value :: others, values)

mutual

/-- Whether a condition holds of the row, and what is left of the bound values. -/
def truth : Fragment → List (Option Datum) → Truth × List (Option Datum)
  | .compare left comparison right, values =>
      let (leftValue, values) := left.operand meaning row values
      let (rightValue, values) := right.operand meaning row values
      (comparison.truth meaning leftValue rightValue, values)
  | .between subject low high negated, values =>
      let (value, values) := subject.operand meaning row values
      let (least, values) := low.operand meaning row values
      let (greatest, values) := high.operand meaning row values
      (Truth.negateIf negated
        (.both (SqlComparison.ge.truth meaning value least)
          (SqlComparison.le.truth meaning value greatest)), values)
  | .among subject items negated, values =>
      let (value, values) := subject.operand meaning row values
      let (others, values) := operands meaning row items values
      (Truth.negateIf negated
        (.combine .any (others.map (SqlComparison.eq.truth meaning value))), values)
  | .isNull subject negated, values =>
      let (value, values) := subject.operand meaning row values
      (Truth.ofBool (value.isNone != negated), values)
  | .group combinator members _, values =>
      let (memberTruths, values) := truths members values
      (.combine combinator memberTruths, values)
  | _, values => (.unknown, values)

/-- Whether each of the conditions holds of the row, from left to right. -/
def truths : List Fragment → List (Option Datum) → List Truth × List (Option Datum)
  | [], values => ([], values)
  | fragment :: fragments, values =>
      let (first, values) := fragment.truth values
      let (others, values) := truths fragments values
      (first :: others, values)

end

/-- The condition is a column, or some segments of one: no value is bound to it. -/
def IsSubject : Fragment → Prop
  | .column _ _ => True
  | .datePart _ _ => True
  | _ => False

/-- The value of a column, or of some segments of one. -/
def subjectValue (subject : Fragment) : Option Datum :=
  (subject.operand meaning row []).1

theorem operands_placeholders
    (folded : Bool)
    (values rest : List (Option Datum)) :
    operands meaning row (placeholders values.length folded) (values ++ rest) =
      (values.map (meaning.fold folded), rest) := by
  induction values with
  | nil => rfl
  | cons value values inductionHypothesis =>
      rw [List.length_cons, placeholders, List.replicate_succ, operands, operand,
        List.cons_append, List.tail_cons, ← placeholders]
      simp only [inductionHypothesis]
      rfl

variable {subject : Fragment} (isSubject : subject.IsSubject)

include isSubject in
theorem operand_of_isSubject (values : List (Option Datum)) :
    subject.operand meaning row values = (subject.subjectValue meaning row, values) := by
  cases subject with
  | column name folded => rfl
  | datePart name segments => rfl
  | _ => cases isSubject

include isSubject in
theorem truth_compare_placeholder
    (comparison : SqlComparison)
    (folded : Bool)
    (value : Option Datum)
    (rest : List (Option Datum)) :
    (Fragment.compare subject comparison (.placeholder folded)).truth meaning row
        (value :: rest) =
      (comparison.truth meaning (subject.subjectValue meaning row)
        (meaning.fold folded value), rest) := by
  simp only [truth, operand_of_isSubject meaning row isSubject]
  rfl

include isSubject in
/-- A column between two values is at least the one and at most the other. -/
theorem truth_between_placeholders
    (folded negated : Bool)
    (low high : Option Datum)
    (rest : List (Option Datum)) :
    (Fragment.between subject (.placeholder folded) (.placeholder folded) negated).truth
        meaning row (low :: high :: rest) =
      (Truth.negateIf negated
        (.both
          (SqlComparison.ge.truth meaning (subject.subjectValue meaning row)
            (meaning.fold folded low))
          (SqlComparison.le.truth meaning (subject.subjectValue meaning row)
            (meaning.fold folded high))), rest) := by
  simp only [truth, operand_of_isSubject meaning row isSubject]
  rfl

include isSubject in
/-- A column is among some values if it equals one of them. -/
theorem truth_among_placeholders
    (folded negated : Bool)
    (values rest : List (Option Datum)) :
    (Fragment.among subject (placeholders values.length folded) negated).truth meaning row
        (values ++ rest) =
      (Truth.negateIf negated
        (.combine .any (values.map fun value =>
          SqlComparison.eq.truth meaning (subject.subjectValue meaning row)
            (meaning.fold folded value))), rest) := by
  simp only [truth, operand_of_isSubject meaning row isSubject, operands_placeholders,
    List.map_map]
  rfl

end Fragment

end ClassStore.Query
