import ClassStore.Exchange.Json
import ClassStore.Text.Numeral

/-!
# Reading JSON

A text is read by recursive descent.  Every step takes at least one character,
so the length of the text bounds the depth of the recursion; there is no other
limit on nesting.  Of several members of an object with one name the last is kept.
-/

namespace ClassStore.Exchange.Json

/-- The character may stand between the parts of a value. -/
def isJsonBlank (character : Char) : Bool :=
  character = ' ' || character = '\t' || character = '\n' || character = '\r'

/-- What follows the blanks. -/
def dropBlanks (characters : List Char) : List Char :=
  characters.dropWhile isJsonBlank

/-- The value of a hexadecimal digit. -/
def hexDigit? (digit : Char) : Option Nat :=
  if '0' ≤ digit ∧ digit ≤ '9' then
    some (digit.toNat - '0'.toNat)
  else if 'a' ≤ digit ∧ digit ≤ 'f' then
    some (digit.toNat - 'a'.toNat + 10)
  else if 'A' ≤ digit ∧ digit ≤ 'F' then
    some (digit.toNat - 'A'.toNat + 10)
  else
    none

/-- The number that four hexadecimal digits denote. -/
def hexUnit? (first second third fourth : Char) : Option Nat := do
  let a ← hexDigit? first
  let b ← hexDigit? second
  let c ← hexDigit? third
  let d ← hexDigit? fourth
  some (((a * 16 + b) * 16 + c) * 16 + d)

/-- The character that a letter after a backslash stands for. -/
def escaped? (letter : Char) : Option Char :=
  [('"', '"'), ('\\', '\\'), ('/', '/'), ('b', '\x08'), ('f', '\x0c'), ('n', '\n'),
   ('r', '\r'), ('t', '\t')].lookup letter

/-- The unit is the first of two that together make a character. -/
def isHighUnit (unit : Nat) : Bool :=
  0xD800 ≤ unit && unit < 0xDC00

/-- The unit is the second of two that together make a character. -/
def isLowUnit (unit : Nat) : Bool :=
  0xDC00 ≤ unit && unit < 0xE000

/-- The character of two units that only together make one. -/
def pairedUnits (high low : Nat) : Char :=
  Char.ofNat (0x10000 + (high - 0xD800) * 0x400 + (low - 0xDC00))

/-- The contents of a string whose quote has been taken, collected in reverse. -/
def stringContents (collected : List Char) : List Char → Option (String × List Char)
  | [] => none
  | '"' :: rest => some (String.ofList collected.reverse, rest)
  | '\\' :: 'u' :: a :: b :: c :: d :: rest =>
      match hexUnit? a b c d with
      | none => none
      | some unit =>
          if isHighUnit unit then
            match rest with
            | '\\' :: 'u' :: e :: f :: g :: h :: rest =>
                match hexUnit? e f g h with
                | none => none
                | some low =>
                    if isLowUnit low then
                      stringContents (pairedUnits unit low :: collected) rest
                    else
                      none
            | _ => none
          else if isLowUnit unit then
            none
          else
            stringContents (Char.ofNat unit :: collected) rest
  | '\\' :: letter :: rest =>
      match escaped? letter with
      | some character => stringContents (character :: collected) rest
      | none => none
  | character :: rest =>
      if character.toNat < 0x20 then none else stringContents (character :: collected) rest

/-- A character that a number may be written with. -/
def isNumberCharacter (character : Char) : Bool :=
  character.isDigit || character = '-' || character = '+' || character = '.' ||
    character = 'e' || character = 'E'

/-- The integer that a numeral denotes, unless it is a fraction or too large. -/
def integerOf? (numeral : List Char) : Option Int :=
  match numeral with
  | ['-', '0'] => none
  | '+' :: _ => none
  | numeral =>
      (Text.signed? numeral).filter fun value =>
        Int64.minValue.toInt ≤ value && value < range64

/-- What follows a row of digits, which must not be empty. -/
def dropDigits? : List Char → Option (List Char)
  | digit :: rest => if digit.isDigit then some (rest.dropWhile Char.isDigit) else none
  | [] => none

/-- What follows the digits before a point, where a zero stands alone. -/
def dropWhole? : List Char → Option (List Char)
  | '0' :: rest => some rest
  | characters => dropDigits? characters

/-- What follows a point and its digits, which may be missing together. -/
def dropFraction? : List Char → Option (List Char)
  | '.' :: rest => dropDigits? rest
  | characters => some characters

/-- What follows the sign of an exponent, which may be missing. -/
def dropSign : List Char → List Char
  | '+' :: rest => rest
  | '-' :: rest => rest
  | characters => characters

/-- What follows an exponent, which may be missing. -/
def dropExponent? : List Char → Option (List Char)
  | 'e' :: rest => dropDigits? (dropSign rest)
  | 'E' :: rest => dropDigits? (dropSign rest)
  | characters => some characters

/-- What follows a number without its sign. -/
def dropUnsigned? (characters : List Char) : Option (List Char) :=
  ((dropWhole? characters).bind dropFraction?).bind dropExponent?

/-- The characters are those of one number, from the first to the last. -/
def isNumeral : List Char → Bool
  | '-' :: rest => dropUnsigned? rest == some []
  | characters => dropUnsigned? characters == some []

/-- The value of a numeral. -/
def ofNumeral (numeral : List Char) : Json :=
  match integerOf? numeral with
  | some value => .integer value
  | none => .decimal (String.ofList numeral)

/-- The value that a word stands for. -/
def ofWord? (word : List Char) : Option Json :=
  [("null", null), ("true", boolean true), ("false", boolean false)].lookup (String.ofList word)

/-- The members after which none has their name. -/
def lastOfEach : List (String × Json) → List (String × Json)
  | [] => []
  | member :: members =>
      if members.any fun other => other.1 == member.1 then
        lastOfEach members
      else
        member :: lastOfEach members

mutual

/-- A value and the characters after it. -/
def readValue : Nat → List Char → Option (Json × List Char)
  | 0, _ => none
  | depth + 1, characters =>
      match dropBlanks characters with
      | [] => none
      | '"' :: rest =>
          (stringContents [] rest).map fun (value, rest) => (.string value, rest)
      | '[' :: rest =>
          match dropBlanks rest with
          | ']' :: rest => some (.array [], rest)
          | rest => (readItems depth rest).map fun (items, rest) => (.array items, rest)
      | '{' :: rest =>
          match dropBlanks rest with
          | '}' :: rest => some (.object [], rest)
          | rest =>
              (readMembers depth rest).map fun (members, rest) =>
                (.object (lastOfEach members), rest)
      | first :: rest =>
          if first = '-' || first.isDigit then
            let numeral := (first :: rest).takeWhile isNumberCharacter
            if isNumeral numeral then
              some (ofNumeral numeral, (first :: rest).drop numeral.length)
            else
              none
          else
            let word := (first :: rest).takeWhile Char.isAlpha
            (ofWord? word).map fun value => (value, (first :: rest).drop word.length)

/-- The items of an array up to its end. -/
def readItems : Nat → List Char → Option (List Json × List Char)
  | 0, _ => none
  | depth + 1, characters => do
      let (item, rest) ← readValue depth characters
      match dropBlanks rest with
      | ',' :: rest =>
          let (items, rest) ← readItems depth rest
          some (item :: items, rest)
      | ']' :: rest => some ([item], rest)
      | _ => none

/-- The members of an object up to its end. -/
def readMembers : Nat → List Char → Option (List (String × Json) × List Char)
  | 0, _ => none
  | depth + 1, characters =>
      match dropBlanks characters with
      | '"' :: rest => do
          let (name, rest) ← stringContents [] rest
          match dropBlanks rest with
          | ':' :: rest => do
              let (value, rest) ← readValue depth rest
              match dropBlanks rest with
              | ',' :: rest =>
                  let (members, rest) ← readMembers depth rest
                  some ((name, value) :: members, rest)
              | '}' :: rest => some ([(name, value)], rest)
              | _ => none
          | _ => none
      | _ => none

end

/-- The value that a whole text denotes. -/
def read? (text : String) : Option Json :=
  let characters := text.toList
  (readValue (characters.length + 1) characters).bind fun (value, rest) =>
    if (dropBlanks rest).isEmpty then some value else none

end ClassStore.Exchange.Json
