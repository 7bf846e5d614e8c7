import Mathlib.Order.Monotone.Basic

/-!
# Comparing from the front

Lists and texts are compared from the front: the first difference decides.  Where the
front parts have the same length, the rest counts only if they are equal
(`compare_append`).  Numbers that are made of a step and a rest that stays below the
next step are compared in the same way (`compare_steps`), so a list of such parts is
ordered like the number that is made of them.
-/

namespace ClassStore.Text

/-- Lists of one length in front decide, unless they are equal. -/
theorem compare_append
    {Item : Type}
    [Ord Item]
    {front other : List Item}
    (length : front.length = other.length)
    (rest back : List Item) :
    compare (front ++ rest) (other ++ back) =
      (compare front other).then (compare rest back) := by
  induction front generalizing other with
  | nil =>
      cases List.length_eq_zero_iff.mp length.symm
      rfl
  | cons item front inductionHypothesis =>
      cases other with
      | nil => cases length
      | cons head other =>
          rw [List.cons_append, List.cons_append, List.compare_cons_cons,
            List.compare_cons_cons, inductionHypothesis (Nat.succ.inj length),
            Ordering.then_assoc]

/-- The same list in front makes no difference. -/
theorem compare_append_left
    {Item : Type}
    [Ord Item]
    [Std.LawfulEqOrd Item]
    (front rest back : List Item) :
    compare (front ++ rest) (front ++ back) = compare rest back := by
  rw [compare_append rfl, Std.ReflOrd.compare_self]
  rfl

/-- Lists of different lengths in front decide alone, if what follows comes before their items. -/
theorem compare_append_of_length_ne
    {Item : Type}
    [Ord Item]
    [Std.OrientedOrd Item]
    {next : Item}
    {front other : List Item}
    (length : front.length ≠ other.length)
    (before : ∀ item ∈ front, compare next item = .lt)
    (otherBefore : ∀ item ∈ other, compare next item = .lt)
    (rest back : List Item) :
    compare (front ++ next :: rest) (other ++ next :: back) = compare front other := by
  induction front generalizing other with
  | nil =>
      cases other with
      | nil => exact absurd rfl length
      | cons head other =>
          rw [List.forall_mem_cons] at otherBefore
          rw [List.nil_append, List.cons_append, List.compare_cons_cons, otherBefore.1]
          rfl
  | cons item front inductionHypothesis =>
      rw [List.forall_mem_cons] at before
      cases other with
      | nil =>
          rw [List.nil_append, List.cons_append, List.compare_cons_cons,
            Std.OrientedCmp.gt_of_lt before.1]
          rfl
      | cons head other =>
          rw [List.forall_mem_cons] at otherBefore
          have shorter : front.length ≠ other.length := fun same => length (congrArg (· + 1) same)
          rw [List.cons_append, List.cons_append, List.compare_cons_cons,
            inductionHypothesis shorter before.2 otherBefore.2, List.compare_cons_cons]

theorem compare_eq_lt_iff_lt
    {characters others : List Char} :
    compare characters others = .lt ↔ characters < others := by
  induction characters generalizing others with
  | nil => cases others <;> simp
  | cons character characters inductionHypothesis =>
      cases others with
      | nil => simp
      | cons other others =>
          have first : compare character other = .lt ↔ character < other :=
            compareOfLessAndEq_eq_lt
          rw [List.compare_cons_cons, Ordering.then_eq_lt, List.cons_lt_cons_iff, first,
            inductionHypothesis, Std.LawfulEqOrd.compare_eq_iff_eq]

/-- Texts are compared character by character. -/
theorem compare_toList (text other : String) :
    compare text other = compare text.toList other.toList := by
  have less : compare text other = .lt ↔ compare text.toList other.toList = .lt := by
    rw [compare_eq_lt_iff_lt]
    exact compareOfLessAndEq_eq_lt
  have equal : compare text other = .eq ↔ compare text.toList other.toList = .eq := by
    rw [Std.LawfulEqOrd.compare_eq_iff_eq, Std.LawfulEqOrd.compare_eq_iff_eq,
      String.toList_inj]
  cases comparison : compare text other with
  | lt => exact (less.mp comparison).symm
  | eq => exact (equal.mp comparison).symm
  | gt =>
      cases listed : compare text.toList other.toList with
      | lt => rw [less.mpr listed] at comparison; cases comparison
      | eq => rw [equal.mpr listed] at comparison; cases comparison
      | gt => rfl

/-- Numbers are compared by the steps that they stand on, and on one step by what is left. -/
theorem compare_steps
    {start : Nat → Nat}
    (ascending : ∀ step, start step ≤ start (step + 1))
    {step other rest back : Nat}
    (below : start step + rest < start (step + 1))
    (otherBelow : start other + back < start (other + 1)) :
    compare (start step + rest) (start other + back) =
      (compare step other).then (compare rest back) := by
  have monotone : Monotone start := monotone_nat_of_le_succ ascending
  rcases Nat.lt_trichotomy step other with earlier | rfl | later
  · have before : start (step + 1) ≤ start other := monotone earlier
    rw [Nat.compare_eq_lt.mpr earlier, Nat.compare_eq_lt.mpr (by omega)]
    rfl
  · rw [Nat.compare_eq_eq.mpr rfl, Nat.compare_eq_ite_lt, Nat.compare_eq_ite_lt]
    simp
  · have before : start (other + 1) ≤ start step := monotone later
    rw [Nat.compare_eq_gt.mpr later, Nat.compare_eq_gt.mpr (by omega)]
    rfl

/-- In a system of numerals the higher digits decide. -/
theorem compare_mul_add
    {radix rest back : Nat}
    (below : rest < radix)
    (otherBelow : back < radix)
    (high other : Nat) :
    compare (high * radix + rest) (other * radix + back) =
      (compare high other).then (compare rest back) := by
  have step (value : Nat) : (value + 1) * radix = value * radix + radix := Nat.succ_mul _ _
  refine @compare_steps (· * radix) (fun value => ?_) high other rest back ?_ ?_
  · rw [step]
    exact Nat.le_add_right _ _
  · rw [step]
    omega
  · rw [step]
    omega

/-- What comes behind a difference does not count. -/
theorem then_congr
    {first left right : Ordering}
    (same : first = .eq → left = right) :
    first.then left = first.then right := by
  cases first with
  | eq => rw [same rfl]
  | lt | gt => rfl

/-- Counting from one or from zero makes no difference. -/
theorem compare_pred
    {value other : Nat}
    (positive : 1 ≤ value)
    (otherPositive : 1 ≤ other) :
    compare (value - 1) (other - 1) = compare value other := by
  have less : value - 1 < other - 1 ↔ value < other := by omega
  have greater : other - 1 < value - 1 ↔ other < value := by omega
  simp only [Nat.compare_eq_ite_lt, less, greater]

end ClassStore.Text
