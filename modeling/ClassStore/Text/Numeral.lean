/-!
# Numerals

Reading and writing of decimal numerals.  A signed numeral is an optional sign
and at least one ASCII digit; as a 64-bit value it must also be in range.
-/

namespace ClassStore.Text

/-- The value of a run of ASCII digits, most significant first. -/
def digitsValue (digits : List Char) : Nat :=
  digits.foldl (fun total digit => total * 10 + (digit.toNat - '0'.toNat)) 0

/-- Reads a nonempty run of ASCII digits. -/
def unsigned? (digits : List Char) : Option Nat :=
  if !digits.isEmpty && digits.all Char.isDigit then
    some (digitsValue digits)
  else
    none

/-- Reads an optional sign followed by a nonempty run of ASCII digits. -/
def signed? : List Char → Option Int
  | '-' :: digits => (unsigned? digits).map fun value => -(value : Int)
  | '+' :: digits => (unsigned? digits).map fun value => (value : Int)
  | digits => (unsigned? digits).map fun value => (value : Int)

/-- Narrows an integer to 64 bits, refusing one that does not fit. -/
def toInt64? (value : Int) : Option Int64 :=
  if Int64.minValue.toInt ≤ value ∧ value ≤ Int64.maxValue.toInt then
    some (Int64.ofInt value)
  else
    none

def int64? (text : String) : Option Int64 :=
  (signed? text.toList).bind toInt64?

/-- Writes a number with at least `width` digits, filling with zeros on the left. -/
def padded (width value : Nat) : String :=
  let digits := Nat.toDigits 10 value
  String.ofList (List.replicate (width - digits.length) '0' ++ digits)

end ClassStore.Text
