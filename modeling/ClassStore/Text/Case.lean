/-!
# Letter case

Words of the request vocabulary are recognised without regard to the case of
ASCII letters.  Other letters are compared as they stand.
-/

namespace ClassStore.Text

/-- Writes every ASCII capital as its small letter. -/
def foldCase (text : String) : String :=
  String.ofList (text.toList.map Char.toLower)

/-- The texts differ at most in the case of ASCII letters. -/
def sameIgnoringCase (left right : String) : Bool :=
  foldCase left == foldCase right

end ClassStore.Text
