import ClassStore.Proofs.Grammar.Operand
import ClassStore.Proofs.Text.Numeral

/-!
# Values that are read back

A value is carried by its text alone.  Read as the type that it is a value of, the
text stands for the value again: every number of 64 bits, every truth value and
every string, and every date whose written form is one.
-/

namespace ClassStore.Text

theorem truth?_of_digit (value : Bool) :
    truth? (if value then "1" else "0") = some value := by
  cases value <;> decide +kernel

end ClassStore.Text

namespace ClassStore.Search

open ClassStore.Catalog
open ClassStore.Date

/-- The text of a value stands for the value; of a date its written form has to be one. -/
theorem readValue?_text
    {type : SemanticType}
    {value : Scalar}
    (fits : value.variant = Grammar.variantOf type)
    (written : ∀ date, value = .date date → PartialDate.read? date.text = some date) :
    readValue? type value.text = some value := by
  rw [Grammar.variantOf] at fits
  rw [readValue?]
  split at fits
  · next integral =>
      rw [if_pos integral]
      cases value with
      | integer number =>
          change (Text.int64? number.toInt.repr).map Scalar.integer = _
          rw [Text.int64?_repr, Option.map_some]
      | string | boolean | date => cases fits
  · next notIntegral =>
      rw [if_neg notIntegral]
      split at fits
      · next isTruth =>
          rw [if_pos isTruth]
          cases value with
          | boolean truth =>
              change (Text.truth? (if truth then "1" else "0")).map Scalar.boolean = _
              rw [Text.truth?_of_digit, Option.map_some]
          | string | integer | date => cases fits
      · next notTruth =>
          rw [if_neg notTruth]
          split at fits
          · next isDate =>
              rw [if_pos isDate]
              cases value with
              | date date =>
                  change (PartialDate.read? date.text).map Scalar.date = _
                  rw [written date rfl, Option.map_some]
              | string | integer | boolean => cases fits
          · next notDate =>
              rw [if_neg notDate]
              cases value with
              | string text => rfl
              | integer | boolean | date => cases fits

end ClassStore.Search
