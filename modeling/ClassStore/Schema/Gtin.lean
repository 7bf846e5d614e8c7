/-!
# Trade item numbers

A trade item number has eight to fourteen digits.  Filled with zeros on the
left to fourteen digits, the digits weigh three and one in turn, and the
weighted sum of a valid number ends in zero.
-/

namespace ClassStore.Schema

def digitValue (digit : Char) : Nat :=
  digit.toNat - '0'.toNat

/-- The sum of the digits, each second one weighing three, the first if `heavy`. -/
def weightedSum (heavy : Bool) : List Char → Nat
  | [] => 0
  | digit :: digits => (if heavy then 3 else 1) * digitValue digit + weightedSum (!heavy) digits

/-- The length to which a number is filled with zeros. -/
def gtinLength : Nat :=
  14

/-- The digits with zeros on the left. -/
def fillGtin (digits : List Char) : List Char :=
  List.replicate (gtinLength - digits.length) '0' ++ digits

/-- The text is a valid trade item number. -/
def isGtin (code : String) : Bool :=
  let digits := code.toList
  8 ≤ digits.length && digits.length ≤ gtinLength && digits.all Char.isDigit &&
    weightedSum true (fillGtin digits) % 10 = 0

end ClassStore.Schema
