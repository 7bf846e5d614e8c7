import ClassStore.Search.Parser

/-!
# Derivations of a search

The grammar of a search without the parser that reads it: a type of derivations
for each nonterminal.

```text
statements := empty | members
members    := statement (',' statement)* ','?
statement  := search | ('AND' | 'OR') '(' members ')'
search     := identifier '=>'? 'NOT'? operand
operand    := value | NULL | comparison value | ('EQ' | 'NE') NULL
            | 'BETWEEN'? '[' value separator value separator? ']'
            | 'ANY' '(' items ')'
items      := value (separator value)* separator?
separator  := ',' | '=>'
```

A derivation has its tokens, the depth to which it nests groups, and a meaning if
its paths can be searched and its values fit.  The grammar is unambiguous: tokens
have at most one derivation.  This is proved in the form that no derivation can be
continued into another one by what may follow it.
-/

namespace ClassStore.Search.Grammar

open ClassStore.Catalog

/-! ## Tokens of a derivation -/

def valueToken (text : String) : Token :=
  ⟨.value, text⟩

@[simp]
theorem kind_valueToken (text : String) : (valueToken text).kind = .value :=
  rfl

@[simp]
theorem text_valueToken (text : String) : (valueToken text).text = text :=
  rfl

def comparisonToken (comparison : Comparison) : Token :=
  ⟨.comparison, comparison.word⟩

/-- A token that may be left out. -/
def optionally (token : Token) (written : Bool) : List Token :=
  if written then [token] else []

/-- What stands between the items of a list. -/
inductive Separator where
  | comma
  | arrow
deriving DecidableEq, Repr

def Separator.token : Separator → Token
  | .comma => Token.comma
  | .arrow => Token.arrow

/-- A separator that may be left out. -/
def trailingTokens (trailing : Option Separator) : List Token :=
  (trailing.map Separator.token).toList

/-- The values of a list; a separator may follow the last one too. -/
inductive Items where
  | last (text : String) (trailing : Option Separator)
  | cons (text : String) (separator : Separator) (items : Items)
deriving DecidableEq, Repr

def Items.tokens : Items → List Token
  | .last text trailing => valueToken text :: trailingTokens trailing
  | .cons text separator items => valueToken text :: separator.token :: items.tokens

/-- Exactly two values. -/
structure Bounds where
  low : String
  separator : Separator
  high : String
  trailing : Option Separator
deriving DecidableEq, Repr

/-- Two values are a list of values. -/
def Bounds.items (bounds : Bounds) : Items :=
  .cons bounds.low bounds.separator (.last bounds.high bounds.trailing)

/-- What a path is compared with. -/
inductive Operand where
  | value (text : String)
  | undefined
  | compare (comparison : Comparison) (text : String)
  | compareUndefined (comparison : Comparison)
      (isEquality : comparison = .eq ∨ comparison = .ne)
  | between (named : Bool) (bounds : Bounds)
  | any (items : Items)
deriving DecidableEq

def Operand.tokens : Operand → List Token
  | .value text => [valueToken text]
  | .undefined => [Token.undefinedValue]
  | .compare comparison text => [comparisonToken comparison, valueToken text]
  | .compareUndefined comparison _ => [comparisonToken comparison, Token.undefinedValue]
  | .between named bounds =>
      optionally (Token.keyword "BETWEEN") named ++
        Token.mark "[" :: (bounds.items.tokens ++ [Token.mark "]"])
  | .any items =>
      Token.keyword "ANY" :: Token.mark "(" :: (items.tokens ++ [Token.mark ")"])

mutual

/-- A search of one path, or a group. -/
inductive Statement where
  | search (path : String) (arrow negated : Bool) (operand : Operand)
  | group (combinator : Combinator) (members : Members)

/-- Statements separated by commas; a comma may follow the last one too. -/
inductive Members where
  | last (statement : Statement) (comma : Bool)
  | cons (statement : Statement) (members : Members)

end

mutual

def Statement.tokens : Statement → List Token
  | .search path arrow negated operand =>
      ⟨.identifier, path⟩ :: (optionally Token.arrow arrow ++
        (optionally (Token.keyword "NOT") negated ++ operand.tokens))
  | .group combinator members =>
      Token.keyword combinator.word :: Token.mark "(" :: (members.tokens ++ [Token.mark ")"])

def Members.tokens : Members → List Token
  | .last statement comma => statement.tokens ++ optionally Token.comma comma
  | .cons statement members => statement.tokens ++ Token.comma :: members.tokens

end

/-- The tokens of a whole search, which may be empty. -/
def tokensOf : Option Members → List Token
  | none => []
  | some members => members.tokens

/-! ## Depth and meaning -/

mutual

/-- How deep groups stand in groups. -/
def Statement.depth : Statement → Nat
  | .search _ _ _ _ => 0
  | .group _ members => members.depth + 1

def Members.depth : Members → Nat
  | .last statement _ => statement.depth
  | .cons statement members => max statement.depth members.depth

end

/-- The depth of a whole search. -/
def depthOf : Option Members → Nat
  | none => 0
  | some members => members.depth

/-- The values that the texts of a list stand for, if each stands for one of the type. -/
def Items.values? (type : SemanticType) : Items → Option (List Scalar)
  | .last text _ => do
      let value ← readValue? type text
      some [value]
  | .cons text _ items => do
      let value ← readValue? type text
      let values ← items.values? type
      some (value :: values)

theorem Items.values?_last_eq_some_iff
    {type : SemanticType}
    {text : String}
    {trailing : Option Separator}
    {values : List Scalar} :
    (Items.last text trailing).values? type = some values ↔
      ∃ value, readValue? type text = some value ∧ [value] = values := by
  simp [Items.values?, Option.bind_eq_some_iff]

theorem Items.values?_cons_eq_some_iff
    {type : SemanticType}
    {text : String}
    {separator : Separator}
    {items : Items}
    {values : List Scalar} :
    (Items.cons text separator items).values? type = some values ↔
      ∃ value others,
        readValue? type text = some value ∧
        items.values? type = some others ∧
        value :: others = values := by
  simp [Items.values?, Option.bind_eq_some_iff]

/-- The bounds that two texts stand for, if these are of one kind. -/
def Bounds.value? (type : SemanticType) (bounds : Bounds) : Option Value := do
  let low ← readValue? type bounds.low
  let high ← readValue? type bounds.high
  if low.kind = high.kind then some (.pair low high) else none

/-- The operator and the value of an operand, if its texts stand for values of the type. -/
def Operand.meaning? (type : SemanticType) : Operand → Option (Operator × Value)
  | .value text => do
      let value ← readValue? type text
      some (.compare .eq, .scalar value)
  | .undefined => some (.compare .eq, .null)
  | .compare comparison text => do
      let value ← readValue? type text
      some (.compare comparison, .scalar value)
  | .compareUndefined comparison _ => some (.compare comparison, .null)
  | .between _ bounds => do
      let value ← bounds.value? type
      some (.between, value)
  | .any items => do
      let values ← items.values? type
      some (.any, .list values)

mutual

/-- The tree of a statement, if its paths can be searched and its values fit them. -/
def Statement.node? (catalog : Catalog) (key : String) : Statement → Option Node
  | .search path _ negated operand => do
      let resolved ← catalog.resolvePath? key path
      let (operator, value) ← operand.meaning? resolved.attr.searchType
      some (.leaf ⟨path, operator, negated, value⟩)
  | .group combinator members => do
      let nodes ← members.nodes? catalog key
      some (.group combinator nodes)

def Members.nodes? (catalog : Catalog) (key : String) : Members → Option (List Node)
  | .last statement _ => do
      let node ← statement.node? catalog key
      some [node]
  | .cons statement members => do
      let node ← statement.node? catalog key
      let nodes ← members.nodes? catalog key
      some (node :: nodes)

end

theorem Members.nodes?_last_eq_some_iff
    {catalog : Catalog}
    {key : String}
    {statement : Statement}
    {comma : Bool}
    {nodes : List Node} :
    (Members.last statement comma).nodes? catalog key = some nodes ↔
      ∃ node, statement.node? catalog key = some node ∧ [node] = nodes := by
  simp [Members.nodes?, Option.bind_eq_some_iff]

theorem Members.nodes?_cons_eq_some_iff
    {catalog : Catalog}
    {key : String}
    {statement : Statement}
    {members : Members}
    {nodes : List Node} :
    (Members.cons statement members).nodes? catalog key = some nodes ↔
      ∃ node others,
        statement.node? catalog key = some node ∧
        members.nodes? catalog key = some others ∧
        node :: others = nodes := by
  simp [Members.nodes?, Option.bind_eq_some_iff]

/-- The trees of a whole search, none if it is empty. -/
def nodesOf? (catalog : Catalog) (key : String) : Option Members → Option (List Node)
  | none => some []
  | some members => members.nodes? catalog key

/-! ## One derivation at most -/

/-- The token closes a list: it is neither a value nor a separator. -/
structure Closing (token : Token) : Prop where
  noValue : token.kind ≠ .value
  noSeparator : ∀ separator : Separator, separator.token ≠ token

theorem closing_bracket : Closing (Token.mark "]") := by
  constructor
  · decide
  · rintro (_ | _) <;> decide

theorem closing_parenthesis : Closing (Token.mark ")") := by
  constructor
  · decide
  · rintro (_ | _) <;> decide

theorem Separator.eq_of_token_eq
    {first second : Separator}
    (same : first.token = second.token) :
    first = second := by
  cases first <;> cases second <;> revert same <;> decide

namespace Closing

variable
    {closing : Token}
    (isClosing : Closing closing)

include isClosing

/-- A list begins with a value, so its closing mark does not follow a separator. -/
theorem trailing_ne_items
    (trailing : Option Separator)
    (rest : List Token)
    (separator : Separator)
    (items : Items)
    (after : List Token) :
    trailingTokens trailing ++ closing :: rest ≠ separator.token :: (items.tokens ++ after) := by
  intro same
  cases trailing with
  | none => exact isClosing.noSeparator separator (List.cons.inj same).1.symm
  | some own =>
      have following : closing :: rest = items.tokens ++ after := (List.cons.inj same).2
      apply isClosing.noValue
      cases items with
      | last text trailing => rw [(List.cons.inj following).1, valueToken]
      | cons text separator items => rw [(List.cons.inj following).1, valueToken]

theorem trailing_inj
    {trailing other : Option Separator}
    {rest otherRest : List Token}
    (same : trailingTokens trailing ++ closing :: rest =
      trailingTokens other ++ closing :: otherRest) :
    trailing = other ∧ rest = otherRest := by
  cases trailing with
  | none =>
      cases other with
      | none => exact ⟨rfl, (List.cons.inj same).2⟩
      | some separator => exact absurd (List.cons.inj same).1.symm (isClosing.noSeparator separator)
  | some separator =>
      cases other with
      | none => exact absurd (List.cons.inj same).1 (isClosing.noSeparator separator)
      | some otherSeparator =>
          rcases List.cons.inj same with ⟨sameToken, following⟩
          rw [Separator.eq_of_token_eq sameToken]
          exact ⟨rfl, (List.cons.inj following).2⟩

/-- A list of values ends at the first closing mark behind a value or a separator. -/
theorem items_inj
    {items others : Items}
    {rest otherRest : List Token}
    (same : items.tokens ++ closing :: rest = others.tokens ++ closing :: otherRest) :
    items = others ∧ rest = otherRest := by
  induction items generalizing others with
  | last text trailing =>
      cases others with
      | last otherText otherTrailing =>
          rcases List.cons.inj same with ⟨sameValue, following⟩
          rcases isClosing.trailing_inj following with ⟨rfl, rfl⟩
          cases sameValue
          exact ⟨rfl, rfl⟩
      | cons otherText separator others =>
          exact absurd (List.cons.inj same).2 (isClosing.trailing_ne_items _ _ _ _ _)
  | cons text separator items inductionHypothesis =>
      cases others with
      | last otherText otherTrailing =>
          exact absurd (List.cons.inj same).2.symm (isClosing.trailing_ne_items _ _ _ _ _)
      | cons otherText otherSeparator others =>
          rcases List.cons.inj same with ⟨sameValue, following⟩
          rcases List.cons.inj following with ⟨sameToken, sameItems⟩
          rcases inductionHypothesis sameItems with ⟨rfl, rfl⟩
          cases sameValue
          rw [Separator.eq_of_token_eq sameToken]
          exact ⟨rfl, rfl⟩

end Closing

theorem Bounds.eq_of_items_eq
    {first second : Bounds}
    (same : first.items = second.items) :
    first = second := by
  cases first
  cases second
  cases same
  rfl

theorem comparison_eq_of_word_eq
    {first second : Comparison}
    (same : first.word = second.word) :
    first = second := by
  cases first <;> cases second <;> revert same <;> decide

theorem optionally_append_inj
    {token : Token}
    {written other : Bool}
    {rest otherRest : List Token}
    (absent : rest.head? ≠ some token)
    (otherAbsent : otherRest.head? ≠ some token)
    (same : optionally token written ++ rest = optionally token other ++ otherRest) :
    written = other ∧ rest = otherRest := by
  cases written with
  | false =>
      cases other with
      | false => exact ⟨rfl, same⟩
      | true =>
          rw [show rest = token :: otherRest from same] at absent
          exact absurd rfl absent
  | true =>
      cases other with
      | false =>
          rw [show otherRest = token :: rest from same.symm] at otherAbsent
          exact absurd rfl otherAbsent
      | true => exact ⟨rfl, (List.cons.inj same).2⟩

/-- An operand is told from any other by its tokens, whatever follows them. -/
theorem Operand.eq_of_tokens_append
    {operand other : Operand}
    {rest otherRest : List Token}
    (same : operand.tokens ++ rest = other.tokens ++ otherRest) :
    operand = other ∧ rest = otherRest := by
  -- Alternatives that differ do so in one of their first two tokens.
  rcases operand with
    text | _ | ⟨comparison, text⟩ | ⟨comparison, isEquality⟩ | ⟨_ | _, bounds⟩ | items <;>
  rcases other with
    otherText | _ | ⟨otherComparison, otherText⟩ | ⟨otherComparison, otherEquality⟩ |
      ⟨_ | _, otherBounds⟩ | others <;>
  simp [Operand.tokens, optionally, valueToken, comparisonToken, Token.undefinedValue,
    Token.mark, Token.keyword] at same
  case value.value =>
    rcases same with ⟨rfl, rfl⟩
    exact ⟨rfl, rfl⟩
  case undefined.undefined => exact ⟨rfl, same⟩
  case compare.compare =>
    rcases same with ⟨sameWord, rfl, rfl⟩
    rw [comparison_eq_of_word_eq sameWord]
    exact ⟨rfl, rfl⟩
  case compareUndefined.compareUndefined =>
    rcases same with ⟨sameWord, rfl⟩
    cases comparison_eq_of_word_eq sameWord
    exact ⟨rfl, rfl⟩
  case between.false.between.false =>
    rcases closing_bracket.items_inj same with ⟨sameItems, rfl⟩
    rw [Bounds.eq_of_items_eq sameItems]
    exact ⟨rfl, rfl⟩
  case between.true.between.true =>
    rcases closing_bracket.items_inj same with ⟨sameItems, rfl⟩
    rw [Bounds.eq_of_items_eq sameItems]
    exact ⟨rfl, rfl⟩
  case any.any =>
    rcases closing_parenthesis.items_inj same with ⟨rfl, rfl⟩
    exact ⟨rfl, rfl⟩

/-- An operand begins neither with an arrow nor with NOT. -/
theorem Operand.head?_tokens_append
    (operand : Operand)
    (rest : List Token) :
    (operand.tokens ++ rest).head? ≠ some Token.arrow ∧
    (operand.tokens ++ rest).head? ≠ some (Token.keyword "NOT") := by
  rcases operand with
    text | _ | ⟨comparison, text⟩ | ⟨comparison, isEquality⟩ | ⟨_ | _, bounds⟩ | items <;>
  simp [Operand.tokens, optionally, valueToken, comparisonToken, Token.undefinedValue,
    Token.mark, Token.keyword, Token.arrow]

/-- What may stand in front of an operand does not begin with an arrow. -/
theorem head?_negation_append
    (negated : Bool)
    (operand : Operand)
    (rest : List Token) :
    (optionally (Token.keyword "NOT") negated ++ (operand.tokens ++ rest)).head? ≠
      some Token.arrow := by
  cases negated with
  | false => exact (operand.head?_tokens_append rest).1
  | true => simp [optionally, Token.keyword, Token.arrow, Token.mark]

/-- What ends a list of statements: the end of the tokens or a closing parenthesis. -/
def Ended (rest : List Token) : Prop :=
  ∀ token ∈ rest.head?, token = Token.mark ")"

/-- A statement may begin with the token: it is a path or a word. -/
def BeginsStatement (token : Token) : Prop :=
  token.kind = .identifier ∨ token.kind = .keyword

theorem BeginsStatement.ne_mark
    {token : Token}
    (begins : BeginsStatement token)
    (text : String) :
    token ≠ Token.mark text := by
  rintro rfl
  rcases begins with isIdentifier | isKeyword
  · cases isIdentifier
  · cases isKeyword

theorem Statement.exists_tokens_eq_cons (statement : Statement) :
    ∃ token tokens, statement.tokens = token :: tokens ∧ BeginsStatement token := by
  cases statement with
  | search path arrow negated operand => exact ⟨_, _, rfl, .inl rfl⟩
  | group combinator members => exact ⟨_, _, rfl, .inr rfl⟩

theorem Members.exists_tokens_eq_cons (members : Members) :
    ∃ token tokens, members.tokens = token :: tokens ∧ BeginsStatement token := by
  cases members with
  | last statement comma =>
      rcases statement.exists_tokens_eq_cons with ⟨token, tokens, shape, begins⟩
      exact ⟨token, _, by rw [Members.tokens, shape, List.cons_append], begins⟩
  | cons statement members =>
      rcases statement.exists_tokens_eq_cons with ⟨token, tokens, shape, begins⟩
      exact ⟨token, _, by rw [Members.tokens, shape, List.cons_append], begins⟩

/-- Where statements end, no further ones begin. -/
theorem Ended.ne_members
    {rest : List Token}
    (ended : Ended rest)
    (members : Members)
    (after : List Token) :
    rest ≠ members.tokens ++ after := by
  rintro rfl
  rcases members.exists_tokens_eq_cons with ⟨token, tokens, shape, begins⟩
  exact begins.ne_mark ")" (ended token (by rw [shape]; rfl))

theorem Ended.head?_ne_comma
    {rest : List Token}
    (ended : Ended rest) :
    rest.head? ≠ some Token.comma := by
  intro continues
  have closes := ended Token.comma continues
  revert closes
  decide

theorem combinator_eq_of_word_eq
    {first second : Combinator}
    (same : first.word = second.word) :
    first = second := by
  cases first <;> cases second <;> revert same <;> decide

mutual

/-- A statement is told from any other by its tokens, whatever follows them. -/
theorem Statement.eq_of_tokens_append
    (statement other : Statement)
    {rest otherRest : List Token}
    (same : statement.tokens ++ rest = other.tokens ++ otherRest) :
    statement = other ∧ rest = otherRest := by
  cases statement with
  | search path arrow negated operand =>
      cases other with
      | search otherPath otherArrow otherNegated otherOperand =>
          simp only [Statement.tokens, List.cons_append, List.append_assoc] at same
          rcases List.cons.inj same with ⟨samePath, behindPath⟩
          rcases optionally_append_inj (head?_negation_append negated operand rest)
            (head?_negation_append otherNegated otherOperand otherRest) behindPath with
            ⟨rfl, behindArrow⟩
          rcases optionally_append_inj (operand.head?_tokens_append rest).2
            (otherOperand.head?_tokens_append otherRest).2 behindArrow with
            ⟨rfl, sameOperand⟩
          rcases Operand.eq_of_tokens_append sameOperand with ⟨rfl, rfl⟩
          cases samePath
          exact ⟨rfl, rfl⟩
      | group combinator members =>
          cases (List.cons.inj same).1
  | group combinator members =>
      cases other with
      | search path arrow negated operand =>
          cases (List.cons.inj same).1
      | group otherCombinator others =>
          simp only [Statement.tokens, List.cons_append, List.append_assoc] at same
          rcases List.cons.inj same with ⟨sameWord, following⟩
          rcases List.cons.inj following with ⟨_, sameMembers⟩
          cases combinator_eq_of_word_eq (Token.mk.inj sameWord).2
          have closed : ∀ after, Ended (Token.mark ")" :: after) := by
            rintro after token ⟨⟩
            rfl
          rcases Members.eq_of_tokens_append members others (closed rest) (closed otherRest)
            sameMembers with ⟨rfl, sameRest⟩
          exact ⟨rfl, (List.cons.inj sameRest).2⟩

/-- Statements are told from any others by their tokens where they have ended. -/
theorem Members.eq_of_tokens_append
    (members others : Members)
    {rest otherRest : List Token}
    (ended : Ended rest)
    (otherEnded : Ended otherRest)
    (same : members.tokens ++ rest = others.tokens ++ otherRest) :
    members = others ∧ rest = otherRest := by
  cases members with
  | last statement comma =>
      cases others with
      | last other otherComma =>
          simp only [Members.tokens, List.append_assoc] at same
          rcases Statement.eq_of_tokens_append statement other same with ⟨rfl, following⟩
          rcases optionally_append_inj ended.head?_ne_comma otherEnded.head?_ne_comma following
            with ⟨rfl, rfl⟩
          exact ⟨rfl, rfl⟩
      | cons other others =>
          simp only [Members.tokens, List.append_assoc] at same
          have following := (Statement.eq_of_tokens_append statement other same).2
          cases comma with
          | false => exact absurd (congrArg List.head? following) ended.head?_ne_comma
          | true => exact absurd (List.cons.inj following).2 (ended.ne_members others otherRest)
  | cons statement members =>
      cases others with
      | last other otherComma =>
          simp only [Members.tokens, List.append_assoc] at same
          have following := (Statement.eq_of_tokens_append statement other same).2.symm
          cases otherComma with
          | false => exact absurd (congrArg List.head? following) otherEnded.head?_ne_comma
          | true =>
              exact absurd (List.cons.inj following).2 (otherEnded.ne_members members rest)
      | cons other others =>
          simp only [Members.tokens, List.append_assoc] at same
          rcases Statement.eq_of_tokens_append statement other same with ⟨rfl, following⟩
          rcases Members.eq_of_tokens_append members others ended otherEnded
            (List.cons.inj following).2 with ⟨rfl, rfl⟩
          exact ⟨rfl, rfl⟩

end

/-- The grammar is unambiguous: tokens have at most one derivation. -/
theorem eq_of_tokensOf_eq
    {derivation other : Option Members}
    (same : tokensOf derivation = tokensOf other) :
    derivation = other := by
  have ended : Ended [] := by simp [Ended]
  cases derivation with
  | none =>
      cases other with
      | none => rfl
      | some others =>
          exact absurd (same.trans (List.append_nil _).symm) (ended.ne_members others [])
  | some members =>
      cases other with
      | none =>
          exact absurd (same.symm.trans (List.append_nil _).symm) (ended.ne_members members [])
      | some others =>
          rw [(Members.eq_of_tokens_append members others ended ended
            (congrArg (· ++ []) same)).1]

end ClassStore.Search.Grammar
