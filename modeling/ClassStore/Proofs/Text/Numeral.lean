import ClassStore.Text.Numeral
import ClassStore.Proofs.Text.Comparison
import Mathlib.Algebra.Ring.Nat

/-!
# Numerals that are read back

A number is read back from its numeral, whether it is signed or filled up with zeros to
a given width.  Numerals of one width have the order of the numbers that they stand for
(`compare_padded`); without the zeros, a longer numeral could come before a shorter one.
-/

namespace ClassStore.Text

/-! ## Values -/

theorem digitsValue_eq (digits : List Char) :
    digitsValue digits = Nat.ofDigitChars 10 digits 0 := by
  simp only [digitsValue, Nat.ofDigitChars, Nat.mul_comm]

/-- The first digit counts as often as there are numerals of the length of the rest. -/
theorem digitsValue_cons (digit : Char) (digits : List Char) :
    digitsValue (digit :: digits) =
      (digit.toNat - '0'.toNat) * 10 ^ digits.length + digitsValue digits := by
  rw [digitsValue_eq, digitsValue_eq, Nat.ofDigitChars_cons,
    Nat.ofDigitChars_eq_ofDigitChars_zero, Nat.mul_zero, Nat.zero_add, Nat.mul_comm]

theorem digitsValue_lt
    {digits : List Char}
    (digital : ∀ digit ∈ digits, digit.isDigit = true) :
    digitsValue digits < 10 ^ digits.length := by
  induction digits with
  | nil => decide
  | cons digit digits inductionHypothesis =>
      rw [List.forall_mem_cons] at digital
      have below := inductionHypothesis digital.2
      have digitBelow : digit.toNat - '0'.toNat ≤ 9 :=
        Nat.sub_le_of_le_add (Char.isDigit_iff_toNat.mp digital.1).2
      have highest := Nat.mul_le_mul_right (10 ^ digits.length) digitBelow
      rw [digitsValue_cons, List.length_cons, Nat.pow_succ]
      omega

theorem unsigned?_toDigits (number : Nat) :
    unsigned? (Nat.toDigits 10 number) = some number := by
  have digits : (Nat.toDigits 10 number).all Char.isDigit = true := by
    rw [List.all_eq_true]
    intro digit isDigit
    exact Nat.isDigit_of_mem_toDigits (by decide) (by decide) isDigit
  have nonempty : (Nat.toDigits 10 number).isEmpty = false := by
    simp
  rw [unsigned?, digits, nonempty, digitsValue_eq,
    Nat.ofDigitChars_toDigits (by decide) (by decide)]
  rfl

/-! ## Signed numerals -/

/-- A numeral without a sign is a nonnegative one. -/
theorem signed?_of_unsigned?
    {digits : List Char}
    {value : Nat}
    (read : unsigned? digits = some value) :
    signed? digits = some (value : Int) := by
  have digital : digits.all Char.isDigit = true := by
    rw [unsigned?] at read
    split at read
    · next digital => exact (Bool.and_eq_true_iff.mp digital).2
    · cases read
  rw [signed?.eq_def]
  split
  · simp at digital
  · simp at digital
  · rw [read]
    rfl

theorem signed?_repr (value : Int) : signed? value.repr.toList = some value := by
  rw [Int.repr_eq_if]
  split
  · next nonnegative =>
      rw [Nat.toList_repr, signed?_of_unsigned? (unsigned?_toDigits _),
        Int.toNat_of_nonneg nonnegative]
  · next negative =>
      have magnitude : ((-value).toNat : Int) = -value := Int.toNat_of_nonneg (by omega)
      rw [String.toList_append, Nat.toList_repr, signed?.eq_def]
      change Option.map _ (do
        let number ← unsigned? (Nat.toDigits 10 (-value).toNat)
        pure (number : Int)) = _
      rw [unsigned?_toDigits]
      change some (-((-value).toNat : Int)) = some value
      rw [magnitude, Int.neg_neg]

/-- What can be read is a sign, or none, and a run of digits. -/
theorem exists_digits_of_signed?
    {characters : List Char}
    {value : Int}
    (read : signed? characters = some value) :
    ∃ sign digits,
      characters = sign ++ digits ∧
      sign ∈ [[], ['-'], ['+']] ∧
      digits ≠ [] ∧
      ∀ digit ∈ digits, digit.isDigit = true := by
  have isRun : ∀ {digits : List Char} {number : Nat},
      unsigned? digits = some number →
        digits ≠ [] ∧ ∀ digit ∈ digits, digit.isDigit = true := by
    intro digits number isNumber
    rw [unsigned?] at isNumber
    split at isNumber
    · next isRun => simpa using isRun
    · cases isNumber
  rw [signed?.eq_def] at read
  split at read
  all_goals
    rcases Option.map_eq_some_iff.mp read with ⟨_, ofNumber, _⟩
    rcases Option.bind_eq_some_iff.mp ofNumber with ⟨_, isNumber, _⟩
  · exact ⟨['-'], _, rfl, by decide, isRun isNumber⟩
  · exact ⟨['+'], _, rfl, by decide, isRun isNumber⟩
  · exact ⟨[], _, rfl, by decide, isRun isNumber⟩

theorem toInt64?_toInt (value : Int64) : toInt64? value.toInt = some value := by
  have above : Int64.minValue.toInt ≤ value.toInt :=
    Int64.le_iff_toInt_le.mp (Int64.minValue_le value)
  have below : value.toInt ≤ Int64.maxValue.toInt :=
    Int64.le_iff_toInt_le.mp (Int64.le_maxValue value)
  rw [toInt64?, if_pos ⟨above, below⟩, Int64.ofInt_toInt]

/-- Every number of 64 bits is read back from its numeral. -/
theorem int64?_repr (value : Int64) : int64? value.toInt.repr = some value := by
  rw [int64?, signed?_repr, Option.bind_some, toInt64?_toInt]

/-! ## Numerals of a given width -/

theorem toList_padded (width value : Nat) :
    (padded width value).toList =
      List.replicate (width - (Nat.toDigits 10 value).length) '0' ++ Nat.toDigits 10 value := by
  rw [padded, String.toList_ofList]

theorem isDigit_of_mem_padded
    {width value : Nat}
    {character : Char}
    (isMember : character ∈ (padded width value).toList) :
    character.isDigit = true := by
  rw [toList_padded, List.mem_append] at isMember
  rcases isMember with isZero | isDigit
  · rw [List.eq_of_mem_replicate isZero]
    rfl
  · exact Nat.isDigit_of_mem_toDigits (by decide) (by decide) isDigit

/-- The zeros in front do not change the value. -/
theorem digitsValue_padded (width value : Nat) :
    digitsValue (padded width value).toList = value := by
  rw [digitsValue_eq, toList_padded, Nat.ofDigitChars_append, Nat.ofDigitChars_replicate_zero,
    Nat.mul_zero, Nat.ofDigitChars_toDigits (by decide) (by decide)]

/-- A numeral is at least as long as its width. -/
theorem le_length_padded (width value : Nat) : width ≤ (padded width value).toList.length := by
  rw [toList_padded, List.length_append, List.length_replicate]
  omega

theorem exists_padded_eq_cons
    {width : Nat}
    (positive : 0 < width)
    (value : Nat) :
    ∃ digit digits, (padded width value).toList = digit :: digits :=
  List.exists_cons_of_length_pos (Nat.lt_of_lt_of_le positive (le_length_padded width value))

/-- Only the numeral of zero begins with a zero. -/
theorem eq_nil_of_toDigits_eq_zero_cons
    {number : Nat}
    {digits : List Char}
    (written : Nat.toDigits 10 number = '0' :: digits) :
    digits = [] := by
  have digital : ∀ digit ∈ '0' :: digits, digit.isDigit = true := fun digit member =>
    Nat.isDigit_of_mem_toDigits (by decide) (by decide) (written ▸ member)
  have value : digitsValue digits = number := by
    have read := Nat.ofDigitChars_toDigits (b := 10) (n := number) (by decide) (by decide)
    rw [written, ← digitsValue_eq, digitsValue_cons, Nat.sub_self, Nat.zero_mul,
      Nat.zero_add] at read
    exact read
  by_contra longer
  have short :=
    (Nat.length_toDigits_le_iff (by decide) (List.length_pos_iff.mpr longer)).mpr
      (value ▸ digitsValue_lt fun digit member => digital digit (List.mem_cons_of_mem _ member))
  rw [written, List.length_cons] at short
  omega

theorem lt_length_toDigits
    {length value : Nat}
    (positive : 0 < length)
    (large : 10 ^ length ≤ value) :
    length < (Nat.toDigits 10 value).length :=
  Nat.not_le.mp fun short =>
    Nat.not_lt.mpr large ((Nat.length_toDigits_le_iff (by decide) positive).mp short)

/-- A numeral is at least as long as the digits of its number. -/
theorem lt_length_padded
    {length width value : Nat}
    (positive : 0 < length)
    (large : 10 ^ length ≤ value) :
    length < (padded width value).toList.length := by
  have digits := lt_length_toDigits positive large
  rw [toList_padded, List.length_append]
  omega

/-- A number with no more digits than the width is as long as the width. -/
theorem length_padded_of_lt
    {width value : Nat}
    (positive : 0 < width)
    (fits : value < 10 ^ width) :
    (padded width value).toList.length = width := by
  have digits := (Nat.length_toDigits_le_iff (by decide) positive).mpr fits
  rw [toList_padded, List.length_append, List.length_replicate]
  omega

/-- A number with no fewer digits than the width is not filled up. -/
theorem toList_padded_of_le
    {width value : Nat}
    (long : width ≤ (Nat.toDigits 10 value).length) :
    (padded width value).toList = Nat.toDigits 10 value := by
  rw [toList_padded, Nat.sub_eq_zero_of_le long]
  rfl

/-- Digits have the order of their values. -/
theorem compare_digit
    {digit other : Char}
    (isDigit : digit.isDigit = true)
    (otherIsDigit : other.isDigit = true) :
    compare digit other =
      compare (digit.toNat - '0'.toNat) (other.toNat - '0'.toNat) := by
  have atLeast : '0'.toNat ≤ digit.toNat := (Char.isDigit_iff_toNat.mp isDigit).1
  have otherAtLeast : '0'.toNat ≤ other.toNat := (Char.isDigit_iff_toNat.mp otherIsDigit).1
  have less : digit < other ↔ digit.toNat - '0'.toNat < other.toNat - '0'.toNat := by
    change digit.toNat < other.toNat ↔ _
    omega
  have equal : digit = other ↔ digit.toNat - '0'.toNat = other.toNat - '0'.toNat := by
    rw [← Char.toNat_inj]
    omega
  change compareOfLessAndEq digit other = compareOfLessAndEq _ _
  simp only [compareOfLessAndEq, less, equal]

/-- Runs of digits of one length have the order of their values. -/
theorem compare_digits
    {digits others : List Char}
    (digital : ∀ digit ∈ digits, digit.isDigit = true)
    (othersDigital : ∀ digit ∈ others, digit.isDigit = true)
    (length : digits.length = others.length) :
    compare digits others = compare (digitsValue digits) (digitsValue others) := by
  induction digits generalizing others with
  | nil =>
      cases List.length_eq_zero_iff.mp length.symm
      rfl
  | cons digit digits inductionHypothesis =>
      cases others with
      | nil => cases length
      | cons other others =>
          rw [List.forall_mem_cons] at digital othersDigital
          have sameLength : digits.length = others.length := Nat.succ.inj length
          have below := digitsValue_lt digital.2
          have otherBelow := digitsValue_lt othersDigital.2
          rw [← sameLength] at otherBelow
          rw [List.compare_cons_cons, inductionHypothesis digital.2 othersDigital.2 sameLength,
            digitsValue_cons, digitsValue_cons, ← sameLength, compare_mul_add below otherBelow,
            compare_digit digital.1 othersDigital.1]

/-- Numerals of one width have the order of their numbers. -/
theorem compare_padded
    {width value other : Nat}
    (positive : 0 < width)
    (fits : value < 10 ^ width)
    (otherFits : other < 10 ^ width) :
    compare (padded width value).toList (padded width other).toList = compare value other := by
  rw [compare_digits (fun _ => isDigit_of_mem_padded) (fun _ => isDigit_of_mem_padded)
    ((length_padded_of_lt positive fits).trans (length_padded_of_lt positive otherFits).symm),
    digitsValue_padded, digitsValue_padded]

/-- A run of digits is the numeral of its value, with its own length. -/
theorem toList_padded_digitsValue
    {digits : List Char}
    (nonempty : digits ≠ [])
    (digital : ∀ digit ∈ digits, digit.isDigit = true) :
    (padded digits.length (digitsValue digits)).toList = digits := by
  have length : (padded digits.length (digitsValue digits)).toList.length = digits.length :=
    length_padded_of_lt (List.length_pos_iff.mpr nonempty) (digitsValue_lt digital)
  have same :=
    compare_digits (fun _ => isDigit_of_mem_padded) digital length
  rw [digitsValue_padded, Nat.compare_eq_eq.mpr rfl] at same
  exact Std.LawfulEqOrd.eq_of_compare same

/-! ## Numerals in columns -/

section Columns

variable {Column : Type} (front : Column → List Char) (width : Column → Nat)

/-- Numbers in columns: each is filled up to the width of its column, behind a fixed text. -/
def rowText (columns : List Column) (value : Column → Nat) : List Char :=
  columns.flatMap fun column => front column ++ (padded (width column) (value column)).toList

theorem rowText_cons (column : Column) (columns : List Column) (value : Column → Nat) :
    rowText front width (column :: columns) value =
      front column ++
        ((padded (width column) (value column)).toList ++ rowText front width columns value) := by
  rw [rowText, List.flatMap_cons, List.append_assoc]
  rfl

/-- Rows whose numbers fit into the columns have the order of the numbers, the first one first. -/
theorem compare_rowText
    {columns : List Column}
    {value other : Column → Nat}
    (positive : ∀ column ∈ columns, 0 < width column)
    (fits : ∀ column ∈ columns, value column < 10 ^ width column)
    (otherFits : ∀ column ∈ columns, other column < 10 ^ width column) :
    compare (rowText front width columns value) (rowText front width columns other) =
      compare (columns.map value) (columns.map other) := by
  induction columns with
  | nil => rfl
  | cons column columns inductionHypothesis =>
      rw [List.forall_mem_cons] at positive fits otherFits
      have length := length_padded_of_lt positive.1 fits.1
      have otherLength := length_padded_of_lt positive.1 otherFits.1
      rw [rowText_cons, rowText_cons, compare_append_left,
        compare_append (length.trans otherLength.symm),
        compare_padded positive.1 fits.1 otherFits.1,
        inductionHypothesis positive.2 fits.2 otherFits.2, List.map_cons, List.map_cons,
        List.compare_cons_cons]

end Columns

end ClassStore.Text
