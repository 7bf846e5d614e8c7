import ClassStore.Search.Token.Scanner

/-!
# Tokens of the bytes of a text

The cursor delivers the tokens of a text from its UTF-8 bytes.  It keeps nothing but the
index of a byte, which it moves by counts of bytes and which could therefore come to lie
inside a character.  Blanks, numbers and words are found byte by byte.  The contents of
strings and excerpts are read as characters, from a slice of the text, and a slice that
does not begin and end between characters cannot be taken.  A request for which a slice
is missing has no answer.
-/

namespace ClassStore.Search

/-! ## Bytes -/

/-- The bytes that are digits of ASCII. -/
def isDigitByte (byte : UInt8) : Bool :=
  '0'.toUInt8 ≤ byte && byte ≤ '9'.toUInt8

/-- The bytes that are letters of ASCII. -/
def isLetterByte (byte : UInt8) : Bool :=
  ('a'.toUInt8 ≤ byte && byte ≤ 'z'.toUInt8) || ('A'.toUInt8 ≤ byte && byte ≤ 'Z'.toUInt8)

/-- The bytes that continue a word: ASCII letters and digits, underscore and dot. -/
def isWordByte (byte : UInt8) : Bool :=
  isLetterByte byte || isDigitByte byte || byte == '_'.toUInt8 || byte == '.'.toUInt8

/-- The bytes that are blanks of ASCII: space, tab, line feed, form feed and return. -/
def isBlankByte (byte : UInt8) : Bool :=
  byte == ' '.toUInt8 || byte == '\t'.toUInt8 || byte == '\n'.toUInt8 ||
    byte == '\x0c'.toUInt8 || byte == '\r'.toUInt8

/-- The bytes that a string stands between. -/
def isQuoteByte (byte : UInt8) : Bool :=
  byte == '\''.toUInt8 || byte == '"'.toUInt8

/-- The bytes that are punctuation of one character. -/
def isMarkByte (byte : UInt8) : Bool :=
  byte == ','.toUInt8 || byte == '['.toUInt8 || byte == ']'.toUInt8 ||
    byte == '('.toUInt8 || byte == ')'.toUInt8

/-- The text from one byte to another, unless an index is inside a character or too large. -/
def slice? (source : String) (start stop : Nat) : Option String :=
  if valid : String.Pos.Raw.IsValid source ⟨start⟩ ∧
      String.Pos.Raw.IsValid source ⟨stop⟩ ∧ start ≤ stop then
    some (source.extract (source.pos ⟨start⟩ valid.1) (source.pos ⟨stop⟩ valid.2.1))
  else
    none

/-! ## Cursors -/

/-- A text and the index of the byte that is read next. -/
structure Cursor where
  source : String
  current : Nat
deriving DecidableEq

namespace Cursor

/-- The cursor at the first byte of a text. -/
def start (source : String) : Cursor :=
  ⟨source, 0⟩

/-- Nothing is left to read. -/
def isAtEnd (cursor : Cursor) : Bool :=
  cursor.source.utf8ByteSize ≤ cursor.current

/-- The bytes that have not been read. -/
def remaining (cursor : Cursor) : List UInt8 :=
  cursor.source.toByteArray.data.toList.drop cursor.current

/-- The byte the given number of bytes ahead, if the text goes on so far. -/
def peekAt (cursor : Cursor) (ahead : Nat) : Option UInt8 :=
  cursor.source.toByteArray.data[cursor.current + ahead]?

/-- The byte that is read next, unless the text has come to its end. -/
def peek (cursor : Cursor) : Option UInt8 :=
  cursor.peekAt 0

/-- Moves by the given number of bytes. -/
def move (cursor : Cursor) (count : Nat) : Cursor :=
  { cursor with current := cursor.current + count }

/-- Moves as long as the bytes are of one kind. -/
def moveWhile (cursor : Cursor) (isKind : UInt8 → Bool) : Cursor :=
  cursor.move (cursor.remaining.takeWhile isKind).length

/-- Moves behind a sign, if there is one, the digits, and a point with digits behind it. -/
def moveNumber (cursor : Cursor) : Cursor :=
  let unsigned := if cursor.peek = some '-'.toUInt8 then cursor.move 1 else cursor
  let whole := unsigned.moveWhile isDigitByte
  if whole.peek = some '.'.toUInt8 && (whole.peekAt 1).any isDigitByte then
    (whole.move 1).moveWhile isDigitByte
  else
    whole

/-- The text between two cursors. -/
def textUpTo? (cursor behind : Cursor) : Option String :=
  slice? cursor.source cursor.current behind.current

/-- The text from the cursor to the end. -/
def restText? (cursor : Cursor) : Option String :=
  slice? cursor.source cursor.current cursor.source.utf8ByteSize

/--
The contents of a string up to the closing quote, and the number of bytes up to and with it.

A backslash takes the character behind it for a part of the contents.  The characters
begin the given number of bytes behind the opening quote.
-/
def closing? (quote : UInt8) : Nat → List Char → Option (List Char × Nat)
  | _, [] => none
  | index, character :: following =>
      if character = '\\' then
        match following with
        | [] => none
        | escaped :: following =>
            (closing? quote (index + character.utf8Size + escaped.utf8Size) following).map
              fun (contents, count) => (escaped :: contents, count)
      else if character.toNat = quote.toNat then
        some ([], index + 1)
      else
        (closing? quote (index + character.utf8Size) following).map
          fun (contents, count) => (character :: contents, count)

/-- The string behind an opening quote and the cursor behind it, or nothing if it is open. -/
def string? (cursor : Cursor) (quote : UInt8) : Option (Option (String × Cursor)) := do
  let text ← cursor.restText?
  some ((closing? quote 0 text.toList).map fun (contents, count) =>
    (String.ofList contents, cursor.move count))

/-- The failure in front of a character that begins no token. -/
def unexpected? (cursor : Cursor) : Option LexError := do
  let text ← cursor.restText?
  some (.unexpectedInput (Scanner.excerpt text.toList) cursor.current)

/-- What a request is answered with in front of the given byte, and the cursor after it. -/
def answer? (cursor : Cursor) (byte : UInt8) :
    Option (Except LexError (Option Token) × Cursor) := do
  if isQuoteByte byte then
    let inside := cursor.move 1
    match ← inside.string? byte with
    | some (contents, behind) => some (.ok (some ⟨.value, contents⟩), behind)
    | none => some (.error (.unterminatedString cursor.current), inside)
  else if isDigitByte byte ||
      byte == '-'.toUInt8 && (cursor.peekAt 1).any isDigitByte then
    let behind := cursor.moveNumber
    let number ← cursor.textUpTo? behind
    some (.ok (some ⟨.value, number⟩), behind)
  else if isLetterByte byte then
    let behind := cursor.moveWhile isWordByte
    let word ← cursor.textUpTo? behind
    some (.ok (some (Token.ofWord word)), behind)
  else if byte == '='.toUInt8 && cursor.peekAt 1 == some '>'.toUInt8 then
    some (.ok (some Token.arrow), cursor.move 2)
  else if isMarkByte byte then
    let behind := cursor.move 1
    let mark ← cursor.textUpTo? behind
    some (.ok (some (Token.mark mark)), behind)
  else
    let failure ← cursor.unexpected?
    some (.error failure, cursor)

/-- The next token, or nothing at the end, and the cursor after it, unless a slice is missing. -/
def next? (cursor : Cursor) : Option (Except LexError (Option Token) × Cursor) :=
  let first := cursor.moveWhile isBlankByte
  match first.peek with
  | none => some (.ok none, first)
  | some byte => first.answer? byte

/-- The cursor after the given number of requests, if all of them have answers. -/
def after? (cursor : Cursor) : Nat → Option Cursor
  | 0 => some cursor
  | requests + 1 => do
      let before ← cursor.after? requests
      let (_, behind) ← before.next?
      some behind

end Cursor

end ClassStore.Search
