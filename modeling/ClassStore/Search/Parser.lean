import ClassStore.Catalog.Basic
import ClassStore.Search.Coercion
import ClassStore.Search.Node
import ClassStore.Search.ParseError
import ClassStore.Search.Token.Scanner
import ClassStore.Search.Token.Walker

/-!
# Grammar of a search

```text
statements := statement (',' statement)* ','?
statement  := search | ('AND' | 'OR') '(' statements ')'
search     := identifier '=>'? 'NOT'? operand
operand    := value | NULL | comparison (value | NULL) | between | any
between    := 'BETWEEN'? '[' value separator value separator? ']'
any        := 'ANY' '(' value (separator value)* separator? ')'
separator  := ',' | '=>'
```

Each nonterminal is a function from the tokens that follow to a result and the
tokens after it.  Attribute paths are resolved as they are read, and values are
read as the type of the attribute asks, so a parsed tree speaks only of
searchable attributes and of values that fit them.  A group is read with one
level of nesting less to spare than what it stands in.
-/

namespace ClassStore.Search

open ClassStore.Catalog

namespace Parser

/-- What a search is read against: a class of a catalog, and how its tokens end. -/
structure Setting where
  catalog : Catalog
  key : String
  failure : Option LexError

/-- Why reading stops, with the tokens that have not been taken. -/
inductive Stop where
  | before (fault : SyntaxFault) (rest : List Token)
  | after (fault : SyntaxFault) (rest : List Token)
  | other (error : ParseError)

/-- Stops where the tokens end: at the failure of their source, or for want of a token. -/
def Setting.ended {Output : Type} (setting : Setting) (stop : Stop) : Except Stop Output :=
  match setting.failure with
  | some failure => .error (.other (.lexical failure))
  | none => .error stop

/-- Takes the token if it follows; the result says whether it did. -/
def Setting.optional (setting : Setting) (wanted : Token) :
    List Token → Except Stop (Bool × List Token)
  | [] =>
      match setting.failure with
      | some failure => .error (.other (.lexical failure))
      | none => .ok (false, [])
  | token :: rest =>
      if token = wanted then .ok (true, rest) else .ok (false, token :: rest)

def Setting.expect (setting : Setting) (mark : String) : List Token → Except Stop (List Token)
  | [] => setting.ended (.before (.markExpected mark) [])
  | token :: rest =>
      if token = Token.mark mark then
        .ok rest
      else
        .error (.before (.markExpected mark) (token :: rest))

/-- The value that a token of the path's operand stands for. -/
def valueOf (path : String) (type : SemanticType) (text : String) : Except Stop Scalar :=
  match coerce type text with
  | .ok value => .ok value
  | .error mismatch => .error (.other (.typeMismatch path mismatch))

/-- The items of a list whose opening mark has been taken, and the closing mark. -/
def Setting.items (setting : Setting) (path : String) (type : SemanticType) (closing : String) :
    List Token → Except Stop (List Scalar × List Token)
  | [] => setting.ended (.after (.itemExpected closing) [])
  | token :: rest =>
      if token = Token.mark closing then
        .ok ([], rest)
      else if token.kind = .value then do
        let value ← valueOf path type token.text
        match rest with
        | [] => setting.ended (.before (.itemSeparatorExpected closing) [])
        | separator :: rest =>
            if separator = Token.mark closing then
              .ok ([value], rest)
            else if separator = Token.comma ∨ separator = Token.arrow then do
              let (values, rest) ← setting.items path type closing rest
              .ok (value :: values, rest)
            else
              .error (.before (.itemSeparatorExpected closing) (separator :: rest))
      else
        .error (.after (.itemExpected closing) rest)

/-- The bounds of BETWEEN, whose bracket has been taken. -/
def Setting.bounds (setting : Setting) (path : String) (type : SemanticType)
    (rest : List Token) : Except Stop ((Operator × Value) × List Token) := do
  let (values, rest) ← setting.items path type "]" rest
  match values with
  | [low, high] =>
      if low.kind = high.kind then
        .ok ((.between, .pair low high), rest)
      else
        .error (.other (.typeMismatch path (.unlikeBounds low.kind high.kind)))
  | _ => .error (.after (.pairExpected values.length) rest)

/-- The alternatives of ANY, whose bracket has been taken. -/
def Setting.alternatives (setting : Setting) (path : String) (type : SemanticType)
    (rest : List Token) : Except Stop ((Operator × Value) × List Token) := do
  let (values, rest) ← setting.items path type ")" rest
  match values with
  | [] => .error (.after .itemsExpected rest)
  | first :: _ =>
      match findOdd? first values with
      | some odd => .error (.other (.typeMismatch path (.mixedValues first.kind odd.kind)))
      | none => .ok ((.any, .list values), rest)

/-- The value that an operator word is followed by. -/
def Setting.compared (setting : Setting) (path : String) (type : SemanticType)
    (operator : Operator) : List Token → Except Stop ((Operator × Value) × List Token)
  | [] => setting.ended (.after (.comparisonValueExpected operator) [])
  | token :: rest =>
      if token.kind = .value then do
        let value ← valueOf path type token.text
        .ok ((operator, .scalar value), rest)
      else if token.kind = .undefined ∧
          (operator = .compare .eq ∨ operator = .compare .ne) then
        .ok ((operator, .null), rest)
      else
        .error (.after (.comparisonValueExpected operator) rest)

def Setting.operand (setting : Setting) (path : String) (type : SemanticType) :
    List Token → Except Stop ((Operator × Value) × List Token)
  | [] => setting.ended (.after .valueExpected [])
  | token :: rest =>
      match token.kind with
      | .value => do
          let value ← valueOf path type token.text
          .ok ((.compare .eq, .scalar value), rest)
      | .undefined => .ok ((.compare .eq, .null), rest)
      | .comparison =>
          match Operator.ofWord? token.text with
          | none => .error (.after .unknownComparison rest)
          | some operator => setting.compared path type operator rest
      | .keyword =>
          if token.text = "BETWEEN" then do
            let rest ← setting.expect "[" rest
            setting.bounds path type rest
          else if token.text = "ANY" then do
            let rest ← setting.expect "(" rest
            setting.alternatives path type rest
          else
            .error (.after .operandExpected rest)
      | .punctuation =>
          if token.text = "[" then
            setting.bounds path type rest
          else
            .error (.after .operandExpected rest)
      | .identifier => .error (.after .operandExpected rest)

/-- The search of a path that has been taken. -/
def Setting.search (setting : Setting) (path : String) (rest : List Token) :
    Except Stop (Node × List Token) := do
  match setting.catalog.resolvePath? setting.key path with
  | none => .error (.other (.unknownAttribute path setting.key))
  | some resolved => do
      let (_, rest) ← setting.optional Token.arrow rest
      let (negated, rest) ← setting.optional (Token.keyword "NOT") rest
      let ((operator, value), rest) ← setting.operand path resolved.attr.searchType rest
      .ok (.leaf ⟨path, operator, negated, value⟩, rest)

/-- A search, or a group read by the given function once its word has been taken. -/
def Setting.statement (setting : Setting)
    (group : Combinator → List Token → Except Stop (Node × List Token)) :
    List Token → Except Stop (Node × List Token)
  | [] => setting.ended (.after .searchExpected [])
  | token :: rest =>
      match token.kind with
      | .identifier => setting.search token.text rest
      | .keyword =>
          match Combinator.ofWord? token.text with
          | some combinator => group combinator rest
          | none => .error (.after .statementExpected rest)
      | _ => .error (.after .statementExpected rest)

/-- Statements separated by commas, up to where they end; each takes at least one token. -/
def Setting.statements (setting : Setting)
    (statement : List Token → Except Stop (Node × List Token))
    (isEnd : List Token → Except Stop Bool) :
    Nat → List Token → Except Stop (List Node × List Token)
  | 0, rest => .ok ([], rest)
  | limit + 1, rest => do
      let ends ← isEnd rest
      if ends then
        .ok ([], rest)
      else
        let (node, rest) ← statement rest
        let (continues, rest) ← setting.optional Token.comma rest
        if continues then do
          let (nodes, rest) ← setting.statements statement isEnd limit rest
          .ok (node :: nodes, rest)
        else
          .ok ([node], rest)

/-- The closing bracket of a group follows. -/
def Setting.closes (setting : Setting) (rest : List Token) : Except Stop Bool :=
  (setting.optional (Token.mark ")") rest).map Prod.fst

def Setting.isOver (setting : Setting) : List Token → Except Stop Bool
  | [] =>
      match setting.failure with
      | some failure => .error (.other (.lexical failure))
      | none => .ok true
  | _ :: _ => .ok false

/-- A group whose word has been taken, with the given number of levels to spare. -/
def Setting.group (setting : Setting) :
    Nat → Combinator → List Token → Except Stop (Node × List Token)
  | 0, _, rest => do
      let rest ← setting.expect "(" rest
      .error (.after .nestedTooDeep rest)
  | levels + 1, combinator, rest => do
      let rest ← setting.expect "(" rest
      let (members, rest) ←
        setting.statements (setting.statement (setting.group levels)) setting.closes
          (rest.length + 1) rest
      let rest ← setting.expect ")" rest
      if members.isEmpty then
        .error (.after (.emptyGroup combinator) rest)
      else
        .ok (.group combinator members, rest)

def Setting.whole (setting : Setting) (tokens : List Token) : Except Stop (List Node) := do
  let (nodes, rest) ←
    setting.statements (setting.statement (setting.group maxDepth)) setting.isOver
      (tokens.length + 1) tokens
  match rest with
  | [] => .ok nodes
  | _ :: _ => .error (.before .separatorExpected rest)

/-- How many of the tokens taken last an error quotes. -/
def quotedTokens : Nat :=
  4

/-- The tokens taken last, then what follows them. -/
def nearText (tokens rest : List Token) (following : String) : String :=
  let taken := tokens.take (tokens.length - rest.length)
  let recent := taken.drop (taken.length - quotedTokens)
  String.intercalate " " (recent.map Token.shown ++ [following])

/-- What an error quotes where no token is at hand. -/
def endMark : String :=
  "<end>"

/-- The error that reading the given tokens stopped with. -/
def Stop.error (tokens : List Token) : Stop → ParseError
  | .before fault rest =>
      .malformed fault (nearText tokens rest ((rest.head?.map Token.shown).getD endMark))
  | .after fault rest => .malformed fault (nearText tokens rest endMark)
  | .other error => error

end Parser

/-- Reads a stream of tokens as a search on a class: an AND of its statements. -/
def parse (catalog : Catalog) (key : String) (stream : TokenStream) : Except ParseError Node :=
  match catalog.find? key with
  | none => .error (.unknownClass key)
  | some _ =>
      match Parser.Setting.whole ⟨catalog, key, stream.failure⟩ stream.tokens with
      | .ok nodes => .ok (.group .all nodes)
      | .error stop => .error (stop.error stream.tokens)

/-- Reads a text as a search on a class. -/
def parseText (catalog : Catalog) (key text : String) : Except ParseError Node :=
  parse catalog key (TokenStream.ofText text)

/-- Reads terms as a search on a class. -/
def parseTerms (catalog : Catalog) (key : String) (terms : List Term) : Except ParseError Node :=
  parse catalog key (TokenStream.ofTerms terms)

end ClassStore.Search
