import ClassStore.Search.Token

/-!
# Tokens of terms

The walker delivers the tokens of a list of terms one at a time.  It keeps a
stack of the groups that it is inside of and the tokens of the term at hand
that it has not delivered yet.  `Term.listTokens` writes down the same tokens
by recursion on the terms.
-/

namespace ClassStore.Search

/-- A path that a search can name: a word without a meaning of its own. -/
def isSearchablePath (path : String) : Bool :=
  isIdentifier path && !isReserved path

def itemTokens : List Scalar → List Token
  | [] => []
  | [value] => [Token.ofScalar value]
  | value :: values => Token.ofScalar value :: Token.comma :: itemTokens values

/-- The tokens of a list between its brackets. -/
def listTokens (opening : String) (values : List Scalar) (closing : String) : List Token :=
  Token.mark opening :: itemTokens values ++ [Token.mark closing]

def Operand.tokens : Operand → List Token
  | .scalar value => [Token.ofScalar value]
  | .undefined => [Token.undefinedValue]
  | .compare comparison value => [⟨.comparison, comparison.word⟩, Token.ofScalar value]
  | .between low high => Token.keyword "BETWEEN" :: listTokens "[" [low, high] "]"
  | .list values => listTokens "[" values "]"
  | .any values => Token.keyword "ANY" :: listTokens "(" values ")"
  | .negation operand => Token.keyword "NOT" :: operand.tokens

/-- The tokens in front of an operand. -/
def pathTokens (path : String) : List Token :=
  [⟨.identifier, path⟩, Token.arrow]

def groupTokens (combinator : Combinator) : List Token :=
  [Token.keyword combinator.word, Token.mark "("]

mutual

def Term.tokens : Term → List Token
  | .search path operand => pathTokens path ++ operand.tokens
  | .group combinator members =>
      groupTokens combinator ++ Term.listTokens members ++ [Token.mark ")"]

/-- The tokens of terms, separated by commas. -/
def Term.listTokens : List Term → List Token
  | [] => []
  | [term] => term.tokens
  | term :: next :: terms => term.tokens ++ Token.comma :: Term.listTokens (next :: terms)

end

/-- The terms still to be visited at one level of nesting. -/
structure Walker.Level where
  terms : List Term
  started : Bool
  isGroup : Bool

/-- A position in a list of terms. -/
structure Walker where
  levels : List Walker.Level
  pending : List Token
  searches : Nat

namespace Walker

/-- The position in front of the first term. -/
def start (terms : List Term) : Walker :=
  ⟨[⟨terms, false, false⟩], [], 0⟩

/-- Delivers the first of some tokens and keeps the others for later. -/
def deliver (walker : Walker) : List Token → Except LexError (Option Token) × Walker
  | [] => (.ok none, walker)
  | token :: pending => (.ok (some token), { walker with pending := pending })

/-- The next token when nothing is pending, from the innermost level outwards. -/
def visit (searches : Nat) : List Level → Except LexError (Option Token) × Walker
  | [] => (.ok none, ⟨[], [], searches⟩)
  | level :: outer =>
      match level.terms with
      | [] =>
          if level.isGroup then
            (.ok (some (Token.mark ")")), ⟨outer, [], searches⟩)
          else
            visit searches outer
      | term :: terms =>
          let separator := if level.started then [Token.comma] else []
          let level := { level with terms := terms, started := true }
          match term with
          | .search path operand =>
              if isSearchablePath path then
                deliver ⟨level :: outer, [], searches + 1⟩
                  (separator ++ pathTokens path ++ operand.tokens)
              else
                (.error (.unexpectedInput path searches), ⟨level :: outer, separator, searches⟩)
          | .group combinator members =>
              deliver ⟨⟨members, false, true⟩ :: level :: outer, [], searches⟩
                (separator ++ groupTokens combinator)

/-- The next token, or nothing at the end, and the position after it. -/
def next (walker : Walker) : Except LexError (Option Token) × Walker :=
  match walker.pending with
  | [] => visit walker.searches walker.levels
  | token :: pending => (.ok (some token), { walker with pending := pending })

/-- All tokens from the position on; there are fewer than the given number. -/
def stream (bound : Nat) (walker : Walker) : TokenStream :=
  TokenStream.unfold next bound walker

end Walker

/-- The tokens of a list of terms. -/
def TokenStream.ofTerms (terms : List Term) : TokenStream :=
  (Walker.start terms).stream ((Term.listTokens terms).length + 1)

end ClassStore.Search
