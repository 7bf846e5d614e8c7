import ClassStore.Schema.Gtin
import Mathlib.Algebra.Ring.Parity

/-!
# Check digits

Zeros in front of a trade item number add nothing to its weighted sum, and fourteen is
even.  So the weights can be counted from the end: `checkSum` is the weighted sum of the
digits alone, whatever their number.

What a part of a number adds to this sum depends on the digits of the part and on its
place (`exists_checkSum_eq`).  At every place exactly one digit balances the rest, since
one and three have no divisor in common with ten.  That is why a last digit can always be
found and why no other digit can stand in for it (`gtin_detects_errors`).  Neighbours
differ in weight by two, so swapping them goes unnoticed only if twice their difference
ends in zero.
-/

namespace ClassStore.Schema

/-! ## Digits -/

theorem digitValue_le
    {digit : Char}
    (isDigit : digit.isDigit = true) :
    digitValue digit ≤ 9 :=
  Nat.sub_le_of_le_add (Char.isDigit_iff_toNat.mp isDigit).2

theorem digitValue_inj
    {digit other : Char}
    (isDigit : digit.isDigit = true)
    (otherIsDigit : other.isDigit = true)
    (same : digitValue digit = digitValue other) :
    digit = other := by
  have atLeast := (Char.isDigit_iff_toNat.mp isDigit).1
  have otherAtLeast := (Char.isDigit_iff_toNat.mp otherIsDigit).1
  rw [digitValue, digitValue] at same
  apply Char.toNat_inj.mp
  omega

theorem exists_digit
    {value : Nat}
    (small : value < 10) :
    ∃ digit : Char, digit.isDigit = true ∧ digitValue digit = value := by
  refine ⟨Nat.digitChar value, ?_, ?_⟩
  · simpa using small
  · rw [digitValue, Nat.toNat_digitChar_of_lt_ten small]
    exact Nat.add_sub_cancel_left _ _

/-! ## Weighted sums -/

theorem weightedSum_append (heavy : Bool) (front back : List Char) :
    weightedSum heavy (front ++ back) =
      weightedSum heavy front + weightedSum (not^[front.length] heavy) back := by
  induction front generalizing heavy with
  | nil => simp [weightedSum]
  | cons digit front inductionHypothesis =>
      rw [List.cons_append, weightedSum, weightedSum, inductionHypothesis, Nat.add_assoc]
      rfl

theorem weightedSum_zeros (heavy : Bool) (count : Nat) :
    weightedSum heavy (List.replicate count '0') = 0 := by
  induction count generalizing heavy with
  | zero => rfl
  | succ count inductionHypothesis =>
      rw [List.replicate_succ, weightedSum, inductionHypothesis]
      simp [digitValue]

/-- The weighted sum of a number, in which the last digit weighs one. -/
def checkSum (digits : List Char) : Nat :=
  weightedSum (digits.length % 2 = 0) digits

/-- A number is filled with zeros that add nothing to its sum. -/
theorem weightedSum_fillGtin
    {digits : List Char}
    (short : digits.length ≤ gtinLength) :
    weightedSum true (fillGtin digits) = checkSum digits := by
  have phase : not^[gtinLength - digits.length] true = decide (digits.length % 2 = 0) := by
    rw [gtinLength] at short ⊢
    rcases Nat.mod_two_eq_zero_or_one digits.length with even | odd
    · rw [Bool.involutive_not.iterate_even (Nat.even_iff.mpr (by omega)), even]
      rfl
    · rw [Bool.involutive_not.iterate_odd (Nat.odd_iff.mpr (by omega)), odd]
      rfl
  rw [fillGtin, weightedSum_append, weightedSum_zeros, List.length_replicate, phase, checkSum,
    Nat.zero_add]

theorem checkSum_zero_cons (digits : List Char) :
    checkSum ('0' :: digits) = checkSum digits := by
  have nothing : digitValue '0' = 0 := by
    rfl
  have phase : (!decide ((digits.length + 1) % 2 = 0)) = decide (digits.length % 2 = 0) := by
    rw [← decide_not, decide_eq_decide]
    omega
  rw [checkSum, checkSum, weightedSum, nothing, Nat.mul_zero, Nat.zero_add, List.length_cons, phase]

/-- A part of a number adds its own weighted sum to that of the rest. -/
theorem exists_checkSum_eq (front back : List Char) (count : Nat) :
    ∃ heavy rest, ∀ part : List Char, part.length = count →
      checkSum (front ++ part ++ back) = rest + weightedSum heavy part := by
  obtain ⟨first, isFirst⟩ :
      ∃ first, first = decide ((front.length + count + back.length) % 2 = 0) := ⟨_, rfl⟩
  refine ⟨not^[front.length] first,
    weightedSum first front + weightedSum (not^[front.length + count] first) back, ?_⟩
  intro part length
  rw [checkSum, List.length_append, List.length_append, length, ← isFirst, weightedSum_append,
    weightedSum_append, List.length_append, length]
  omega

theorem weightedSum_singleton (heavy : Bool) (digit : Char) :
    weightedSum heavy [digit] = (if heavy then 3 else 1) * digitValue digit := by
  rw [weightedSum, weightedSum, Nat.add_zero]

/-! ## Places in a number -/

/-- At no place two digits balance the rest. -/
theorem eq_of_balanced
    {heavy : Bool}
    {rest : Nat}
    {digit other : Char}
    (isDigit : digit.isDigit = true)
    (otherIsDigit : other.isDigit = true)
    (balanced : (rest + weightedSum heavy [digit]) % 10 = 0)
    (otherBalanced : (rest + weightedSum heavy [other]) % 10 = 0) :
    digit = other := by
  have small := digitValue_le isDigit
  have otherSmall := digitValue_le otherIsDigit
  apply digitValue_inj isDigit otherIsDigit
  rw [weightedSum_singleton] at balanced otherBalanced
  cases heavy with
  | false =>
      simp only [Bool.false_eq_true, if_false] at balanced otherBalanced
      omega
  | true =>
      simp only [if_true] at balanced otherBalanced
      omega

/-- At every place some digit balances the rest. -/
theorem exists_balanced (heavy : Bool) (rest : Nat) :
    ∃ digit : Char,
      digit.isDigit = true ∧ (rest + weightedSum heavy [digit]) % 10 = 0 := by
  -- Seven threes are twenty-one, so seven times what is missing is what a heavy digit needs.
  obtain ⟨digit, isDigit, isValue⟩ :=
    exists_digit (Nat.mod_lt ((if heavy then 7 else 1) * (10 - rest % 10)) (by decide : 0 < 10))
  refine ⟨digit, isDigit, ?_⟩
  rw [weightedSum_singleton, isValue]
  cases heavy with
  | false =>
      simp only [Bool.false_eq_true, if_false]
      omega
  | true =>
      simp only [if_true]
      omega

/-- Neighbours can be swapped in the sum if twice their difference ends in zero. -/
theorem balanced_swap_iff
    {heavy : Bool}
    {rest : Nat}
    {first second : Char}
    (isDigit : first.isDigit = true)
    (secondIsDigit : second.isDigit = true)
    (balanced : (rest + weightedSum heavy [first, second]) % 10 = 0) :
    (rest + weightedSum heavy [second, first]) % 10 = 0 ↔
      first = second ∨
        digitValue first = digitValue second + 5 ∨ digitValue second = digitValue first + 5 := by
  have small := digitValue_le isDigit
  have secondSmall := digitValue_le secondIsDigit
  have same : first = second ↔ digitValue first = digitValue second :=
    ⟨congrArg digitValue, digitValue_inj isDigit secondIsDigit⟩
  rw [same]
  simp only [weightedSum] at balanced ⊢
  cases heavy with
  | false =>
      simp only [Bool.false_eq_true, if_false, Bool.not_false, if_true] at balanced ⊢
      omega
  | true =>
      simp only [Bool.not_true, Bool.false_eq_true, if_false, if_true] at balanced ⊢
      omega

/-! ## Trade item numbers -/

/-- The characters are those of a trade item number. -/
structure IsNumber (digits : List Char) : Prop where
  length_ge : 8 ≤ digits.length
  length_le : digits.length ≤ gtinLength
  digital : ∀ digit ∈ digits, digit.isDigit = true
  balanced : checkSum digits % 10 = 0

theorem isGtin_iff {code : String} :
    isGtin code = true ↔ IsNumber code.toList := by
  simp only [isGtin, Bool.and_eq_true, decide_eq_true_eq, List.all_eq_true]
  constructor
  · rintro ⟨⟨⟨long, short⟩, digital⟩, balanced⟩
    exact ⟨long, short, digital, weightedSum_fillGtin short ▸ balanced⟩
  · rintro ⟨long, short, digital, balanced⟩
    exact ⟨⟨⟨long, short⟩, digital⟩, (weightedSum_fillGtin short).symm ▸ balanced⟩

namespace IsNumber

variable
    {front back : List Char}

/-- A part of a number is replaced by another one of its length if the sum stays balanced. -/
theorem replace_iff
    {part other : List Char}
    (isNumber : IsNumber (front ++ part ++ back))
    (length : other.length = part.length) :
    IsNumber (front ++ other ++ back) ↔
      (∀ digit ∈ other, digit.isDigit = true) ∧ checkSum (front ++ other ++ back) % 10 = 0 := by
  have sameLength : (front ++ other ++ back).length = (front ++ part ++ back).length := by
    simp only [List.length_append, length]
  constructor
  · intro otherIsNumber
    refine ⟨fun digit isMember => ?_, otherIsNumber.balanced⟩
    exact otherIsNumber.digital digit (by simp [isMember])
  · rintro ⟨digital, balanced⟩
    refine ⟨sameLength ▸ isNumber.length_ge, sameLength ▸ isNumber.length_le, ?_, balanced⟩
    intro digit isMember
    rw [List.mem_append, List.mem_append] at isMember
    rcases isMember with (inFront | inOther) | inBack
    · exact isNumber.digital digit (by simp [inFront])
    · exact digital digit inOther
    · exact isNumber.digital digit (by simp [inBack])

theorem eq_of_replaced
    {digit other : Char}
    (isNumber : IsNumber (front ++ [digit] ++ back))
    (otherIsNumber : IsNumber (front ++ [other] ++ back)) :
    digit = other := by
  obtain ⟨heavy, rest, sum⟩ := exists_checkSum_eq front back 1
  apply eq_of_balanced (isNumber.digital digit (by simp)) (otherIsNumber.digital other (by simp))
  · rw [← sum [digit] rfl]
    exact isNumber.balanced
  · rw [← sum [other] rfl]
    exact otherIsNumber.balanced

theorem swap_iff
    {first second : Char}
    (isNumber : IsNumber (front ++ [first, second] ++ back)) :
    IsNumber (front ++ [second, first] ++ back) ↔
      first = second ∨
        digitValue first = digitValue second + 5 ∨ digitValue second = digitValue first + 5 := by
  obtain ⟨heavy, rest, sum⟩ := exists_checkSum_eq front back 2
  have isDigit := isNumber.digital first (by simp)
  have secondIsDigit := isNumber.digital second (by simp)
  have balanced := isNumber.balanced
  rw [sum [first, second] rfl] at balanced
  have digital : ∀ digit ∈ [second, first], digit.isDigit = true := by
    simp [isDigit, secondIsDigit]
  calc
    IsNumber (front ++ [second, first] ++ back)
    _ ↔ (∀ digit ∈ [second, first], digit.isDigit = true) ∧
          checkSum (front ++ [second, first] ++ back) % 10 = 0 := isNumber.replace_iff rfl
    _ ↔ checkSum (front ++ [second, first] ++ back) % 10 = 0 := and_iff_right digital
    _ ↔ (rest + weightedSum heavy [second, first]) % 10 = 0 := by
      rw [sum [second, first] rfl]
    _ ↔ _ := balanced_swap_iff isDigit secondIsDigit balanced

end IsNumber

theorem exists_last_digit
    {digits : List Char}
    (long : 7 ≤ digits.length)
    (short : digits.length ≤ 13)
    (digital : ∀ digit ∈ digits, digit.isDigit = true) :
    ∃ digit : Char, digit.isDigit = true ∧ IsNumber (digits ++ [digit]) := by
  obtain ⟨heavy, rest, sum⟩ := exists_checkSum_eq digits [] 1
  obtain ⟨digit, isDigit, balanced⟩ := exists_balanced heavy rest
  rw [← sum [digit] rfl, List.append_nil] at balanced
  refine ⟨digit, isDigit, ?_, ?_, ?_, balanced⟩
  · rw [List.length_append, List.length_singleton]
    exact Nat.succ_le_succ long
  · rw [List.length_append, List.length_singleton]
    exact Nat.succ_le_succ short
  · simpa [or_imp, forall_and, isDigit] using digital

theorem isNumber_zero_cons_iff
    {digits : List Char}
    (long : 8 ≤ digits.length)
    (short : digits.length ≤ 13) :
    IsNumber ('0' :: digits) ↔ IsNumber digits := by
  have isZero : Char.isDigit '0' = true := by
    rfl
  constructor
  · rintro ⟨_, _, digital, balanced⟩
    rw [checkSum_zero_cons] at balanced
    exact ⟨long, Nat.le_succ_of_le short, (List.forall_mem_cons.mp digital).2, balanced⟩
  · rintro ⟨_, _, digital, balanced⟩
    rw [← checkSum_zero_cons] at balanced
    exact ⟨Nat.le_succ_of_le long, Nat.succ_le_succ short,
      List.forall_mem_cons.mpr ⟨isZero, digital⟩, balanced⟩

/--
The check digit of a trade item number shows errors.

Seven to thirteen digits are completed to a valid number by exactly one digit.  A valid
number with one digit changed is not valid.  With two neighbours swapped it is valid only
if they are equal or differ by five.  A zero in front makes no difference.
-/
theorem gtin_detects_errors :
    (∀ digits : String, 7 ≤ digits.length → digits.length ≤ 13 →
      (∀ digit ∈ digits.toList, digit.isDigit = true) →
      ∃! digit : Char, digit.isDigit = true ∧ isGtin (digits.push digit) = true) ∧
    (∀ (front back : String) (digit other : Char),
      isGtin (front.push digit ++ back) = true → other ≠ digit →
      isGtin (front.push other ++ back) = false) ∧
    (∀ (front back : String) (first second : Char),
      isGtin ((front.push first).push second ++ back) = true →
      (isGtin ((front.push second).push first ++ back) = true ↔
        first = second ∨
          digitValue first = digitValue second + 5 ∨
          digitValue second = digitValue first + 5)) ∧
    (∀ code : String, 8 ≤ code.length → code.length ≤ 13 →
      isGtin ("0" ++ code) = isGtin code) := by
  refine ⟨?_, ?_, ?_, ?_⟩
  · intro digits long short digital
    rw [← String.length_toList] at long short
    obtain ⟨digit, isDigit, isNumber⟩ := exists_last_digit long short digital
    refine ⟨digit, ⟨isDigit, ?_⟩, ?_⟩
    · rw [isGtin_iff, String.toList_push]
      exact isNumber
    · rintro other ⟨_, valid⟩
      rw [isGtin_iff, String.toList_push] at valid
      rw [← List.append_nil (digits.toList ++ _)] at valid isNumber
      exact valid.eq_of_replaced isNumber
  · intro front back digit other valid different
    rw [isGtin_iff, String.toList_append, String.toList_push] at valid
    rw [Bool.eq_false_iff, ne_eq, isGtin_iff, String.toList_append, String.toList_push]
    intro otherValid
    exact different (otherValid.eq_of_replaced valid)
  · intro front back first second valid
    have pair : ∀ first second : Char,
        ((front.push first).push second ++ back).toList =
          front.toList ++ [first, second] ++ back.toList := by
      intro first second
      simp
    rw [isGtin_iff, pair] at valid ⊢
    exact valid.swap_iff
  · intro code long short
    rw [← String.length_toList] at long short
    rw [Bool.eq_iff_iff, isGtin_iff, isGtin_iff, String.toList_append]
    exact isNumber_zero_cons_iff long short

/-- The number of a pencil: its last digit, two slips that are found and one that is not. -/
theorem errors_in_pencil_number_detected :
    (∃! digit : Char, digit.isDigit = true ∧ isGtin ("400638133393".push digit) = true) ∧
    isGtin ("400638133393".push '1' ++ "") = true ∧
    isGtin ("400638133393".push '2' ++ "") = false ∧
    isGtin (("4".push '0').push '0' ++ "6381333931") = true ∧
    isGtin (("40063".push '1').push '8' ++ "333931") = false ∧
    isGtin ("0" ++ "4006381333931") = isGtin "4006381333931" := by
  obtain ⟨completed, changed, swapped, filled⟩ := gtin_detects_errors
  have digital : "400638133393".toList.all Char.isDigit = true := by
    decide +kernel
  have valid : isGtin ("400638133393".push '1' ++ "") = true := by
    decide +kernel
  have zeros : isGtin (("4".push '0').push '0' ++ "6381333931") = true := by
    decide +kernel
  have neighbours : isGtin (("40063".push '8').push '1' ++ "333931") = true := by
    decide +kernel
  refine ⟨completed _ (by decide) (by decide) (List.all_eq_true.mp digital), valid,
    changed _ _ _ _ valid (by decide), ?_, ?_, filled _ (by decide) (by decide)⟩
  · exact (swapped _ _ _ _ zeros).mpr (.inl rfl)
  · rw [Bool.eq_false_iff, ne_eq, swapped _ _ _ _ neighbours]
    decide

end ClassStore.Schema
