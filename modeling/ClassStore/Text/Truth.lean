import ClassStore.Text.Case

/-!
# Truth values

A truth value is written as a word or as a digit.
-/

namespace ClassStore.Text

/-- Reads one of the words for a truth value, without regard to letter case. -/
def truth? (text : String) : Option Bool :=
  let folded := foldCase text
  if folded = "1" ∨ folded = "true" then
    some true
  else if folded = "0" ∨ folded = "false" then
    some false
  else
    none

end ClassStore.Text
