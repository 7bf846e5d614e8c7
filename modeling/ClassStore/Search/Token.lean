import ClassStore.Search.Term

/-!
# Tokens of a search

A search arrives as text or as terms.  Both are turned into the same tokens,
so that one grammar serves both.  A `TokenStream` is what a source of tokens
delivers: its tokens up to the first failure, and that failure.
-/

namespace ClassStore.Search

/-- The classes of tokens. -/
inductive TokenKind where
  | identifier
  | punctuation
  | comparison
  | keyword
  | value
  | undefined
deriving DecidableEq, Repr

/-- A token with its text; a value carries its contents without quotes. -/
structure Token where
  kind : TokenKind
  text : String
deriving DecidableEq, Repr

/-- Why no further token can be delivered. -/
inductive LexError where
  | unexpectedInput (fragment : String) (offset : Nat)
  | unterminatedString (offset : Nat)
deriving DecidableEq, Repr

def LexError.message : LexError → String
  | .unexpectedInput fragment offset =>
      "unexpected input at " ++ toString offset ++ ": `" ++ fragment ++ "`"
  | .unterminatedString offset =>
      "unterminated string literal starting at " ++ toString offset

namespace Token

def mark (text : String) : Token :=
  ⟨.punctuation, text⟩

def keyword (text : String) : Token :=
  ⟨.keyword, text⟩

def ofScalar (scalar : Scalar) : Token :=
  ⟨.value, scalar.text⟩

def undefinedValue : Token :=
  ⟨.undefined, undefinedWord⟩

/-- The separator of searches and of list items. -/
def comma : Token :=
  mark ","

/-- The mark between a path and its operand. -/
def arrow : Token :=
  mark "=>"

/-- The token as an error quotes it: values between single quotes. -/
def shown (token : Token) : String :=
  match token.kind with
  | .value => "'" ++ token.text ++ "'"
  | _ => token.text

end Token

/-- The words that stand for comparisons, in the order they are documented. -/
def comparisonWords : List String :=
  Comparison.every.map Comparison.word

def keywords : List String :=
  ["BETWEEN", "AND", "OR", "ANY", "NOT"]

/-- The two words for the undefined value. -/
def undefinedWords : List String :=
  [undefinedWord, "undef"]

/-- The kind of token that a complete word is. -/
def wordKind (word : String) : TokenKind :=
  if undefinedWords.contains word then
    .undefined
  else if comparisonWords.contains word then
    .comparison
  else if keywords.contains word then
    .keyword
  else
    .identifier

/-- The word has a meaning of its own and so cannot name an attribute. -/
def isReserved (word : String) : Bool :=
  wordKind word ≠ .identifier

/-- The characters that continue a word: ASCII letters and digits, underscore and dot. -/
def isWordCharacter (character : Char) : Bool :=
  character.isAlphanum || character = '_' || character = '.'

/-- A word begins with an ASCII letter. -/
def isIdentifier (word : String) : Bool :=
  match word.toList with
  | [] => false
  | first :: following => first.isAlpha && following.all isWordCharacter

def Token.ofWord (word : String) : Token :=
  match wordKind word with
  | .undefined => Token.undefinedValue
  | kind => ⟨kind, word⟩

/-- The tokens of a source up to its first failure, and that failure. -/
structure TokenStream where
  tokens : List Token
  failure : Option LexError
deriving DecidableEq, Repr

namespace TokenStream

/-- Puts a token in front of the stream. -/
def push (token : Token) (stream : TokenStream) : TokenStream :=
  { stream with tokens := token :: stream.tokens }

/-- Asks a source for tokens until it ends or fails, at most the given number of times. -/
def unfold {Source : Type}
    (next : Source → Except LexError (Option Token) × Source) :
    Nat → Source → TokenStream
  | 0, _ => ⟨[], none⟩
  | requests + 1, source =>
      match next source with
      | (.ok none, _) => ⟨[], none⟩
      | (.error failure, _) => ⟨[], some failure⟩
      | (.ok (some token), source) => (unfold next requests source).push token

/-- The stream of tokens that have been delivered already, each a token or a failure. -/
def ofDelivered : List (Except LexError Token) → TokenStream
  | [] => ⟨[], none⟩
  | .error failure :: _ => ⟨[], some failure⟩
  | .ok token :: delivered => (ofDelivered delivered).push token

def complete (stream : TokenStream) : Except LexError (List Token) :=
  match stream.failure with
  | none => .ok stream.tokens
  | some failure => .error failure

end TokenStream

end ClassStore.Search
