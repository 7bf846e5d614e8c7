import ClassStore.Exchange.Json
import ClassStore.Text.Numeral

/-!
# Writing JSON

A value is written on one line and without blanks.  A string has its quotes,
backslashes and control characters escaped, those with a letter of their own by
that letter.  Beyond that, everything is escaped that some reader takes for the end
of a line.
-/

namespace ClassStore.Exchange.Json

/-- A number in four hexadecimal digits. -/
def hexText (code : Nat) : List Char :=
  let digits := Nat.toDigits 16 code
  List.replicate (4 - digits.length) '0' ++ digits

/-- The characters that are written as a backslash and a letter, each with its letter. -/
def letters : List (Char × Char) :=
  [('"', '"'), ('\\', '\\'), ('\x08', 'b'), ('\x0c', 'f'), ('\n', 'n'), ('\r', 'r'),
   ('\t', 't')]

/-- The character is written by its number, unless it has a letter. -/
def needsNumber (character : Char) : Bool :=
  character.toNat < 0x20 || character.toNat = 0x85 || character.toNat = 0x2028 ||
    character.toNat = 0x2029

/-- A character as it stands within a string. -/
def characterText (character : Char) : List Char :=
  match letters.lookup character with
  | some letter => ['\\', letter]
  | none =>
      if needsNumber character then
        '\\' :: 'u' :: hexText character.toNat
      else
        [character]

/-- A string between its quotes. -/
def stringText (value : String) : String :=
  String.ofList ('"' :: value.toList.flatMap characterText ++ ['"'])

mutual

/-- The text of a value. -/
def text : Json → String
  | .null => "null"
  | .boolean value => if value then "true" else "false"
  | .integer value => toString value
  | .decimal numeral => numeral
  | .string value => stringText value
  | .array items => "[" ++ String.intercalate "," (itemTexts items) ++ "]"
  | .object members => "\x7b" ++ String.intercalate "," (memberTexts members) ++ "\x7d"

/-- The texts of the items of an array. -/
def itemTexts : List Json → List String
  | [] => []
  | item :: items => item.text :: itemTexts items

/-- The texts of the members of an object. -/
def memberTexts : List (String × Json) → List String
  | [] => []
  | (name, value) :: members => (stringText name ++ ":" ++ value.text) :: memberTexts members

end

end ClassStore.Exchange.Json
