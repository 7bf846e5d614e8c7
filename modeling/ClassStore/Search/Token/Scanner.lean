import ClassStore.Search.Token
import ClassStore.Text.Blank

/-!
# Tokens of a text

The scanner reads the textual form of a search.  Between tokens it skips ASCII
blanks.  A word, a number or an arrow extends as far as it can.  Positions are
counted in bytes of UTF-8.  After a failure the scanner can still be asked: an
unknown character stays where it is, and of a string that is never closed only
the opening quote is passed over.
-/

namespace ClassStore.Search

/-- The number of bytes that the characters take up in UTF-8. -/
def byteCount : List Char → Nat
  | [] => 0
  | character :: characters => character.utf8Size + byteCount characters

/-- A position in a text: what follows it and how many bytes precede it. -/
structure Scanner where
  rest : List Char
  offset : Nat
deriving DecidableEq

namespace Scanner

/-- The position at the beginning of a text. -/
def start (text : String) : Scanner :=
  ⟨text.toList, 0⟩

/-- Nothing is left to read. -/
def isAtEnd (scanner : Scanner) : Bool :=
  scanner.rest.isEmpty

/-- Passes over the given number of characters. -/
def advance (scanner : Scanner) (length : Nat) : Scanner :=
  ⟨scanner.rest.drop length, scanner.offset + byteCount (scanner.rest.take length)⟩

def skipBlanks (scanner : Scanner) : Scanner :=
  scanner.advance (scanner.rest.takeWhile Text.isBlank).length

/-- The minus sign that the characters begin with, if they do. -/
def signPart : List Char → List Char
  | '-' :: _ => ['-']
  | _ => []

/-- The digits that the characters begin with. -/
def digitPart (characters : List Char) : List Char :=
  characters.takeWhile Char.isDigit

/-- A point and the digits after it, if the characters begin with both. -/
def fractionPart : List Char → List Char
  | '.' :: following =>
      let digits := digitPart following
      if digits.isEmpty then [] else '.' :: digits
  | _ => []

/-- The longest number that the characters begin with. -/
def numberPart (characters : List Char) : List Char :=
  let sign := signPart characters
  let whole := digitPart (characters.drop sign.length)
  let fraction := fractionPart (characters.drop (sign.length + whole.length))
  sign ++ whole ++ fraction

/-- The characters begin with a digit, or with a minus sign and a digit. -/
def beginsNumber : List Char → Bool
  | [] => false
  | '-' :: following => following.head?.any Char.isDigit
  | first :: _ => first.isDigit

def isMark (character : Char) : Bool :=
  character = ',' || character = '[' || character = ']' ||
    character = '(' || character = ')'

/-- The token that the characters begin with and how many of them it takes up. -/
def lexeme? (characters : List Char) : Option (Token × Nat) :=
  match characters with
  | [] => none
  | first :: following =>
      if beginsNumber characters then
        let number := numberPart characters
        some (⟨.value, String.ofList number⟩, number.length)
      else if first.isAlpha then
        let word := first :: following.takeWhile isWordCharacter
        some (Token.ofWord (String.ofList word), word.length)
      else if first = '=' && following.head? == some '>' then
        some (Token.arrow, 2)
      else if isMark first then
        some (Token.mark (String.singleton first), 1)
      else
        none

/-- A string closed by its quote: the contents, the length up to and with the quote. -/
def literal? (quote : Char) : List Char → Option (List Char × Nat)
  | [] => none
  | character :: following =>
      if character = '\\' then
        match following with
        | [] => none
        | escaped :: following =>
            (literal? quote following).map fun (contents, length) =>
              (escaped :: contents, length + 2)
      else if character = quote then
        some ([], 1)
      else
        (literal? quote following).map fun (contents, length) =>
          (character :: contents, length + 1)

/-- What an error quotes: at most 24 characters, up to the first white space. -/
def excerpt (characters : List Char) : String :=
  String.ofList ((characters.takeWhile fun character =>
    !Text.isWhiteSpace character).take 24)

/-- The next token, or nothing at the end, and the position after it. -/
def next (scanner : Scanner) : Except LexError (Option Token) × Scanner :=
  let scanner := scanner.skipBlanks
  match scanner.rest with
  | [] => (.ok none, scanner)
  | first :: following =>
      if first = '\'' || first = '"' then
        match literal? first following with
        | some (contents, length) =>
            (.ok (some ⟨.value, String.ofList contents⟩), scanner.advance (length + 1))
        | none => (.error (.unterminatedString scanner.offset), scanner.advance 1)
      else
        match lexeme? scanner.rest with
        | some (token, length) => (.ok (some token), scanner.advance length)
        | none =>
            (.error (.unexpectedInput (excerpt scanner.rest) scanner.offset), scanner)

/-- All tokens from the position on; each takes up at least one character. -/
def stream (scanner : Scanner) : TokenStream :=
  TokenStream.unfold next (scanner.rest.length + 1) scanner

end Scanner

def TokenStream.ofText (text : String) : TokenStream :=
  (Scanner.start text).stream

end ClassStore.Search
