import ClassStore.Proofs.Grammar.Acceptance
import ClassStore.Proofs.Grammar.Readback

/-!
# The tree that terms stand for

Terms are read by way of their tokens, which carry neither the structure of the
terms nor the types of their values.  `translation?` gives the tree of some terms
by recursion on the terms alone: it never looks at a token.

Between the two stand derivations.  `Term.statement?` is the derivation of a term,
if it has the form of a statement.  The tokens of a term have this derivation and no
other one, so that a term without a derivation cannot be read at all.
-/

namespace ClassStore.Search

open ClassStore.Catalog
open ClassStore.Date
open ClassStore.Search.Parser
open Grammar (Statement Members Closing Ended tokensOf depthOf nodesOf? optionally)

/-! ## Translation -/

/-- The values that the texts of some values stand for, if each stands for one of the type. -/
def readValues? (type : SemanticType) : List Scalar → Option (List Scalar)
  | [] => some []
  | value :: values => do
      let read ← readValue? type value.text
      let others ← readValues? type values
      some (read :: others)

/-- The bounds that two values stand for, if these are of one kind. -/
def readBounds? (type : SemanticType) (low high : Scalar) : Option (Operator × Value) := do
  let low ← readValue? type low.text
  let high ← readValue? type high.text
  if low.kind = high.kind then some (.between, .pair low high) else none

/-- The operator and the value of an operand without NOT. -/
def Operand.plain? (type : SemanticType) : Operand → Option (Operator × Value)
  | .scalar value => do
      let read ← readValue? type value.text
      some (.compare .eq, .scalar read)
  | .undefined => some (.compare .eq, .null)
  | .compare comparison value => do
      let read ← readValue? type value.text
      some (.compare comparison, .scalar read)
  | .between low high => readBounds? type low high
  | .list [low, high] => readBounds? type low high
  | .list _ => none
  | .any [] => none
  | .any (value :: values) => do
      let read ← readValues? type (value :: values)
      some (.any, .list read)
  | .negation _ => none

/-- A NOT stands in front of the operand. -/
def Operand.isNegated : Operand → Bool
  | .negation _ => true
  | _ => false

/-- The operand behind the NOT, if one stands in front of it. -/
def Operand.unnegated : Operand → Operand
  | .negation operand => operand
  | operand => operand

/-- The leaf of a path that is compared with an operand, which has at most one NOT. -/
def Operand.leaf? (path : String) (type : SemanticType) (operand : Operand) : Option Leaf := do
  let (operator, value) ← operand.unnegated.plain? type
  some ⟨path, operator, operand.isNegated, value⟩

mutual

/-- The tree that a term stands for. -/
def Term.node? (catalog : Catalog) (key : String) : Term → Option Node
  | .search path operand =>
      if isSearchablePath path then do
        let resolved ← catalog.resolvePath? key path
        let leaf ← operand.leaf? path resolved.attr.searchType
        some (.leaf leaf)
      else
        none
  | .group combinator members =>
      if members.isEmpty then
        none
      else do
        let nodes ← Term.nodes? catalog key members
        some (.group combinator nodes)

/-- The trees that terms stand for. -/
def Term.nodes? (catalog : Catalog) (key : String) : List Term → Option (List Node)
  | [] => some []
  | term :: terms => do
      let node ← term.node? catalog key
      let nodes ← Term.nodes? catalog key terms
      some (node :: nodes)

end

mutual

/-- How deep groups stand in groups. -/
def Term.depth : Term → Nat
  | .search _ _ => 0
  | .group _ members => Term.listDepth members + 1

def Term.listDepth : List Term → Nat
  | [] => 0
  | term :: terms => max term.depth (Term.listDepth terms)

end

/-- The tree that terms stand for on a class, if the class is known and they stand for one. -/
def translation? (catalog : Catalog) (key : String) (terms : List Term) : Option Node :=
  if (catalog.find? key).isSome ∧ Term.listDepth terms ≤ maxDepth then do
    let nodes ← Term.nodes? catalog key terms
    some (.group .all nodes)
  else
    none

/-! ## Operands -/

/-- The derivation of a list of values. -/
def itemsOf : Scalar → List Scalar → Grammar.Items
  | value, [] => .last value.text none
  | value, following :: values => .cons value.text .comma (itemsOf following values)

/-- The derivation of two values. -/
def boundsOf (low high : Scalar) : Grammar.Bounds :=
  ⟨low.text, .comma, high.text, none⟩

/-- The derivation of an operand, if it has the form of one without NOT. -/
def Operand.derivation? : Operand → Option Grammar.Operand
  | .scalar value => some (.value value.text)
  | .undefined => some .undefined
  | .compare comparison value => some (.compare comparison value.text)
  | .between low high => some (.between true (boundsOf low high))
  | .list [low, high] => some (.between false (boundsOf low high))
  | .list _ => none
  | .any [] => none
  | .any (value :: values) => some (.any (itemsOf value values))
  | .negation _ => none

theorem tokens_itemsOf (value : Scalar) (values : List Scalar) :
    (itemsOf value values).tokens = itemTokens (value :: values) := by
  induction values generalizing value with
  | nil => rfl
  | cons following values inductionHypothesis =>
      rw [itemsOf, Grammar.Items.tokens, inductionHypothesis]
      rfl

theorem values?_itemsOf (type : SemanticType) (value : Scalar) (values : List Scalar) :
    (itemsOf value values).values? type = readValues? type (value :: values) := by
  induction values generalizing value with
  | nil => rfl
  | cons following values inductionHypothesis =>
      rw [itemsOf, Grammar.Items.values?, inductionHypothesis]
      rfl

theorem meaning?_between (type : SemanticType) (named : Bool) (low high : Scalar) :
    (Grammar.Operand.between named (boundsOf low high)).meaning? type =
      readBounds? type low high := by
  simp only [Grammar.Operand.meaning?, Grammar.Bounds.value?, boundsOf, readBounds?,
    Option.bind_eq_bind, Option.bind_assoc]
  congr 1
  funext low
  congr 1
  funext high
  split <;> rfl

/-- An operand stands for what its derivation means. -/
theorem Operand.plain?_eq (type : SemanticType) (operand : Operand) :
    operand.plain? type = operand.derivation?.bind (Grammar.Operand.meaning? type) := by
  cases operand with
  | scalar value => rfl
  | undefined => rfl
  | compare comparison value => rfl
  | between low high => exact (meaning?_between type true low high).symm
  | list values =>
      rcases values with _ | ⟨low, _ | ⟨high, _ | ⟨extra, values⟩⟩⟩
      · rfl
      · rfl
      · exact (meaning?_between type false low high).symm
      · rfl
  | any values =>
      cases values with
      | nil => rfl
      | cons value values =>
          rw [Operand.plain?, Operand.derivation?, Option.bind_some, Grammar.Operand.meaning?,
            values?_itemsOf]
  | negation operand => rfl

/-- The derivation of an operand has its tokens. -/
theorem Operand.tokens_of_derivation?
    {operand : Operand}
    {derivation : Grammar.Operand}
    (derived : operand.derivation? = some derivation) :
    derivation.tokens = operand.tokens := by
  cases operand with
  | scalar value =>
      cases derived
      rfl
  | undefined =>
      cases derived
      rfl
  | compare comparison value =>
      cases derived
      rfl
  | between low high =>
      cases derived
      rfl
  | list values =>
      rcases values with _ | ⟨low, _ | ⟨high, _ | ⟨extra, values⟩⟩⟩ <;> cases derived
      rfl
  | any values =>
      cases values with
      | nil => cases derived
      | cons value values =>
          cases derived
          rw [Grammar.Operand.tokens, tokens_itemsOf]
          rfl
  | negation operand => cases derived

/-- Some values between brackets are derived as what they are. -/
theorem eq_itemsOf_of_tokens
    {closing : String}
    (isClosing : Closing (Token.mark closing))
    {values : List Scalar}
    {items : Grammar.Items}
    {rest otherRest : List Token}
    (same :
      itemTokens values ++ Token.mark closing :: rest =
        items.tokens ++ Token.mark closing :: otherRest) :
    (∃ value others, values = value :: others ∧ items = itemsOf value others) ∧
      rest = otherRest := by
  cases values with
  | nil =>
      -- A list begins with a value, which the closing mark is not.
      have begins : ∃ text tokens, items.tokens = Grammar.valueToken text :: tokens := by
        cases items with
        | last text trailing => exact ⟨text, _, rfl⟩
        | cons text separator items => exact ⟨text, _, rfl⟩
      rcases begins with ⟨text, tokens, shape⟩
      rw [shape] at same
      cases (List.cons.inj same).1
  | cons value others =>
      rw [← tokens_itemsOf] at same
      rcases isClosing.items_inj same with ⟨rfl, rfl⟩
      exact ⟨⟨value, others, rfl, rfl⟩, rfl⟩

/-- Values between square brackets are derived only if there are two of them. -/
theorem exists_pair_of_tokens
    {values : List Scalar}
    {derivation : Grammar.Operand}
    {rest otherRest : List Token}
    (same : (Operand.list values).tokens ++ rest = derivation.tokens ++ otherRest) :
    ∃ low high, values = [low, high] := by
  rcases derivation with
    text | _ | ⟨comparison, text⟩ | ⟨comparison, isEquality⟩ | ⟨_ | _, bounds⟩ | items
  case between.false =>
    have inside :
        itemTokens values ++ Token.mark "]" :: rest =
          bounds.items.tokens ++ Token.mark "]" :: otherRest := by
      simpa [Operand.tokens, listTokens, Grammar.Operand.tokens, optionally] using same
    rcases eq_itemsOf_of_tokens Grammar.closing_bracket inside with
      ⟨⟨low, others, rfl, items⟩, _⟩
    rcases others with _ | ⟨high, _ | ⟨extra, others⟩⟩
    · simp [Grammar.Bounds.items, itemsOf] at items
    · exact ⟨low, high, rfl⟩
    · simp [Grammar.Bounds.items, itemsOf] at items
  all_goals
    simp [Operand.tokens, listTokens, Grammar.Operand.tokens, optionally, Grammar.valueToken,
      Grammar.comparisonToken, Token.undefinedValue, Token.mark, Token.keyword] at same

/-- Values between parentheses are derived only if there are some. -/
theorem ne_nil_of_tokens
    {values : List Scalar}
    {derivation : Grammar.Operand}
    {rest otherRest : List Token}
    (same : (Operand.any values).tokens ++ rest = derivation.tokens ++ otherRest) :
    values ≠ [] := by
  rcases derivation with
    text | _ | ⟨comparison, text⟩ | ⟨comparison, isEquality⟩ | ⟨_ | _, bounds⟩ | items
  case any =>
    have inside :
        itemTokens values ++ Token.mark ")" :: rest =
          items.tokens ++ Token.mark ")" :: otherRest := by
      simpa [Operand.tokens, listTokens, Grammar.Operand.tokens] using same
    rcases eq_itemsOf_of_tokens Grammar.closing_parenthesis inside with
      ⟨⟨value, others, rfl, _⟩, _⟩
    exact List.cons_ne_nil value others
  all_goals
    simp [Operand.tokens, listTokens, Grammar.Operand.tokens, optionally, Grammar.valueToken,
      Grammar.comparisonToken, Token.undefinedValue, Token.mark, Token.keyword] at same

/-- The tokens of an operand have no derivation but its own. -/
theorem Operand.derivation?_of_tokens
    {operand : Operand}
    {derivation : Grammar.Operand}
    {rest otherRest : List Token}
    (same : operand.tokens ++ rest = derivation.tokens ++ otherRest) :
    operand.derivation? = some derivation ∧ rest = otherRest := by
  cases derived : operand.derivation? with
  | some own =>
      rw [← Operand.tokens_of_derivation? derived] at same
      rcases Grammar.Operand.eq_of_tokens_append same with ⟨rfl, rfl⟩
      exact ⟨rfl, rfl⟩
  | none =>
      -- What has no derivation is a list of the wrong length, or has a NOT in front of it.
      exfalso
      cases operand with
      | scalar value => cases derived
      | undefined => cases derived
      | compare comparison value => cases derived
      | between low high => cases derived
      | list values =>
          rcases exists_pair_of_tokens same with ⟨low, high, rfl⟩
          cases derived
      | any values =>
          cases values with
          | nil => exact ne_nil_of_tokens same rfl
          | cons value values => cases derived
      | negation operand =>
          apply (derivation.head?_tokens_append otherRest).2
          rw [← same]
          rfl

/-! ## Searches -/

/-- The derivation of a search, which has at most one NOT. -/
def Operand.statement? (path : String) (operand : Operand) : Option Statement := do
  let derivation ← operand.unnegated.derivation?
  some (.search path true operand.isNegated derivation)

theorem Operand.tokens_eq (operand : Operand) :
    operand.tokens =
      optionally (Token.keyword "NOT") operand.isNegated ++ operand.unnegated.tokens := by
  cases operand <;> rfl

/-- An operand without NOT does not begin with one. -/
theorem Operand.head?_unnegated
    {operand : Operand}
    (plain : operand.isNegated = false)
    (rest : List Token) :
    (operand.unnegated.tokens ++ rest).head? ≠ some (Token.keyword "NOT") := by
  cases operand with
  | negation operand => cases plain
  | scalar | undefined | compare | between | list | any =>
      simp [Operand.unnegated, Operand.tokens, listTokens, Token.ofScalar, Token.undefinedValue,
        Token.mark, Token.keyword]

/-- The leaf of a search is the tree of its derivation. -/
theorem Operand.leaf?_eq
    {catalog : Catalog}
    {key path : String}
    {resolved : Catalog.ResolvedPath}
    (found : catalog.resolvePath? key path = some resolved)
    (operand : Operand) :
    (operand.leaf? path resolved.attr.searchType).map Node.leaf =
      (operand.statement? path).bind (Statement.node? catalog key) := by
  rw [Operand.leaf?, Operand.statement?, Operand.plain?_eq]
  cases operand.unnegated.derivation? with
  | none => rfl
  | some derivation =>
      simp only [Option.bind_some, Option.bind_eq_bind, Statement.node?, found]
      cases derivation.meaning? resolved.attr.searchType <;> rfl

/-- The tokens of a search have no derivation but its own. -/
theorem Operand.statement?_of_tokens
    {path : String}
    {operand : Operand}
    {statement : Statement}
    {rest otherRest : List Token}
    (same : (Term.search path operand).tokens ++ rest = statement.tokens ++ otherRest) :
    operand.statement? path = some statement ∧ rest = otherRest := by
  have shape :
      (Term.search path operand).tokens ++ rest =
        ⟨.identifier, path⟩ :: Token.arrow ::
          (optionally (Token.keyword "NOT") operand.isNegated ++
            (operand.unnegated.tokens ++ rest)) := by
    rw [Term.tokens, Operand.tokens_eq]
    simp [pathTokens]
  rw [shape] at same
  cases statement with
  | group combinator members => cases (List.cons.inj same).1
  | search otherPath arrow negated derivation =>
      simp only [Statement.tokens, List.cons_append, List.append_assoc] at same
      rcases List.cons.inj same with ⟨samePath, behindPath⟩
      cases samePath
      cases arrow with
      | false =>
          exact absurd (congrArg List.head? behindPath).symm
            (Grammar.head?_negation_append negated derivation otherRest)
      | true =>
          have behindArrow := (List.cons.inj behindPath).2
          have sameNegation : operand.isNegated = negated ∧
              operand.unnegated.tokens ++ rest = derivation.tokens ++ otherRest := by
            cases isNegated : operand.isNegated with
            | false =>
                rw [isNegated] at behindArrow
                exact Grammar.optionally_append_inj (Operand.head?_unnegated isNegated rest)
                  (derivation.head?_tokens_append otherRest).2 behindArrow
            | true =>
                rw [isNegated] at behindArrow
                cases negated with
                | false =>
                    exact absurd (congrArg List.head? behindArrow).symm
                      (derivation.head?_tokens_append otherRest).2
                | true => exact ⟨rfl, (List.cons.inj behindArrow).2⟩
          rcases sameNegation with ⟨rfl, sameOperand⟩
          rcases Operand.derivation?_of_tokens sameOperand with ⟨derived, rfl⟩
          refine ⟨?_, rfl⟩
          rw [Operand.statement?, derived]
          rfl

/-- The derivation of a search has its tokens. -/
theorem Operand.tokens_of_statement?
    {path : String}
    {operand : Operand}
    {statement : Statement}
    (derived : operand.statement? path = some statement) :
    statement.tokens = (Term.search path operand).tokens := by
  rcases Option.bind_eq_some_iff.mp derived with ⟨derivation, operandDerived, ends⟩
  cases ends
  rw [Statement.tokens, Operand.tokens_of_derivation? operandDerived, Term.tokens,
    Operand.tokens_eq operand]
  rfl

/-! ## Terms -/

mutual

/-- The derivation of a term, if it has the form of a statement. -/
def Term.statement? : Term → Option Statement
  | .search path operand => operand.statement? path
  | .group combinator members => do
      let derivation ← Term.members? members
      some (.group combinator derivation)

/-- The derivation of terms, of which there has to be one at least. -/
def Term.members? : List Term → Option Members
  | [] => none
  | [term] => do
      let statement ← term.statement?
      some (.last statement false)
  | term :: following :: terms => do
      let statement ← term.statement?
      let members ← Term.members? (following :: terms)
      some (.cons statement members)

end

mutual

/-- A term with paths that can be searched stands for the tree of its derivation. -/
theorem Term.node?_eq
    (catalog : Catalog)
    (key : String)
    (term : Term)
    (searchable : ∀ path ∈ term.paths, isSearchablePath path = true) :
    term.node? catalog key = term.statement?.bind (Statement.node? catalog key) := by
  cases term with
  | search path operand =>
      rw [Term.node?, if_pos (searchable path List.mem_cons_self), Term.statement?]
      cases found : catalog.resolvePath? key path with
      | some resolved =>
          rw [← Operand.leaf?_eq found, Option.bind_eq_bind, Option.bind_some]
          cases operand.leaf? path resolved.attr.searchType <;> rfl
      | none =>
          rw [Operand.statement?]
          cases operand.unnegated.derivation? with
          | none => rfl
          | some derivation => simp [Statement.node?, found]
  | group combinator members =>
      rw [Term.node?, Term.statement?]
      cases members with
      | nil => rfl
      | cons term terms =>
          rw [Term.nodes?_eq catalog key (term :: terms) (List.cons_ne_nil _ _) searchable]
          simp only [List.isEmpty_cons, Bool.false_eq_true, if_false, Option.bind_eq_bind,
            Option.bind_assoc, Option.bind_some, Statement.node?]

theorem Term.nodes?_eq
    (catalog : Catalog)
    (key : String)
    (terms : List Term)
    (nonempty : terms ≠ [])
    (searchable : ∀ path ∈ Term.listPaths terms, isSearchablePath path = true) :
    Term.nodes? catalog key terms = (Term.members? terms).bind (Members.nodes? catalog key) := by
  match terms with
  | [] => exact absurd rfl nonempty
  | [term] =>
      rw [Term.listPaths, List.forall_mem_append] at searchable
      rw [Term.nodes?, Term.nodes?, Term.members?, Term.node?_eq catalog key term searchable.1]
      cases term.statement? with
      | none => rfl
      | some statement => simp [Members.nodes?]
  | term :: following :: terms =>
      rw [Term.listPaths, List.forall_mem_append] at searchable
      rw [Term.nodes?, Term.members?, Term.node?_eq catalog key term searchable.1,
        Term.nodes?_eq catalog key (following :: terms) (List.cons_ne_nil _ _) searchable.2]
      cases term.statement? with
      | none => rfl
      | some statement =>
          cases Term.members? (following :: terms) with
          | none => simp
          | some members => simp [Members.nodes?]

end

mutual

/-- The derivation of a term nests groups as deep as the term does. -/
theorem Term.depth_of_statement?
    (term : Term)
    {statement : Statement}
    (derived : term.statement? = some statement) :
    statement.depth = term.depth := by
  cases term with
  | search path operand =>
      rcases Option.bind_eq_some_iff.mp derived with ⟨derivation, _, ends⟩
      cases ends
      rfl
  | group combinator members =>
      rcases Option.bind_eq_some_iff.mp derived with ⟨derivation, membersDerived, ends⟩
      cases ends
      rw [Statement.depth, Term.depth, Term.depth_of_members? members membersDerived]

theorem Term.depth_of_members?
    (terms : List Term)
    {members : Members}
    (derived : Term.members? terms = some members) :
    members.depth = Term.listDepth terms := by
  match terms with
  | [] => cases derived
  | [term] =>
      rcases Option.bind_eq_some_iff.mp derived with ⟨statement, termDerived, ends⟩
      cases ends
      rw [Members.depth, Term.listDepth, Term.listDepth, Term.depth_of_statement? term termDerived,
        Nat.max_zero]
  | term :: following :: terms =>
      rcases Option.bind_eq_some_iff.mp derived with ⟨statement, termDerived, others⟩
      rcases Option.bind_eq_some_iff.mp others with ⟨members, membersDerived, ends⟩
      cases ends
      rw [Members.depth, Term.listDepth, Term.depth_of_statement? term termDerived,
        Term.depth_of_members? (following :: terms) membersDerived]

end

mutual

/-- The derivation of a term has its tokens. -/
theorem Term.tokens_of_statement?
    (term : Term)
    {statement : Statement}
    (derived : term.statement? = some statement) :
    statement.tokens = term.tokens := by
  cases term with
  | search path operand => exact Operand.tokens_of_statement? derived
  | group combinator members =>
      rcases Option.bind_eq_some_iff.mp derived with ⟨derivation, membersDerived, ends⟩
      cases ends
      rw [Statement.tokens, Term.tokens, Term.tokens_of_members? members membersDerived]
      simp [groupTokens]

theorem Term.tokens_of_members?
    (terms : List Term)
    {members : Members}
    (derived : Term.members? terms = some members) :
    members.tokens = Term.listTokens terms := by
  match terms with
  | [] => cases derived
  | [term] =>
      rcases Option.bind_eq_some_iff.mp derived with ⟨statement, termDerived, ends⟩
      cases ends
      rw [Members.tokens, Term.listTokens, Term.tokens_of_statement? term termDerived]
      exact List.append_nil _
  | term :: following :: terms =>
      rcases Option.bind_eq_some_iff.mp derived with ⟨statement, termDerived, others⟩
      rcases Option.bind_eq_some_iff.mp others with ⟨members, membersDerived, ends⟩
      cases ends
      rw [Members.tokens, Term.listTokens, Term.tokens_of_statement? term termDerived,
        Term.tokens_of_members? (following :: terms) membersDerived]

end

/-- Terms begin with a token that begins a statement. -/
theorem Term.exists_listTokens_eq_cons (term : Term) (terms : List Term) :
    ∃ token tokens,
      Term.listTokens (term :: terms) = token :: tokens ∧ Grammar.BeginsStatement token := by
  have begins : ∃ token tokens, term.tokens = token :: tokens ∧ Grammar.BeginsStatement token := by
    cases term with
    | search path operand => exact ⟨_, _, rfl, .inl rfl⟩
    | group combinator members => exact ⟨_, _, rfl, .inr rfl⟩
  rcases begins with ⟨token, tokens, shape, begins⟩
  cases terms with
  | nil => exact ⟨token, tokens, shape, begins⟩
  | cons following terms => exact ⟨token, _, by rw [Term.listTokens, shape, List.cons_append], begins⟩

mutual

/-- The tokens of a term have no derivation but its own. -/
theorem Term.statement?_of_tokens
    (term : Term)
    {statement : Statement}
    {rest otherRest : List Token}
    (same : term.tokens ++ rest = statement.tokens ++ otherRest) :
    term.statement? = some statement ∧ rest = otherRest := by
  cases term with
  | search path operand => exact Operand.statement?_of_tokens same
  | group combinator terms =>
      cases statement with
      | search path arrow negated derivation => cases (List.cons.inj same).1
      | group otherCombinator members =>
          have closed : ∀ after, Ended (Token.mark ")" :: after) := by
            rintro after token ⟨⟩
            rfl
          simp only [Term.tokens, groupTokens, Statement.tokens, List.cons_append,
            List.append_assoc, List.nil_append] at same
          rcases List.cons.inj same with ⟨sameWord, following⟩
          cases Grammar.combinator_eq_of_word_eq (Token.mk.inj sameWord).2
          rcases Term.members?_of_tokens terms (closed rest) (closed otherRest)
            (List.cons.inj following).2 with ⟨derived, sameRest⟩
          refine ⟨?_, (List.cons.inj sameRest).2⟩
          rw [Term.statement?, derived]
          rfl

theorem Term.members?_of_tokens
    (terms : List Term)
    {members : Members}
    {rest otherRest : List Token}
    (ended : Ended rest)
    (otherEnded : Ended otherRest)
    (same : Term.listTokens terms ++ rest = members.tokens ++ otherRest) :
    Term.members? terms = some members ∧ rest = otherRest := by
  match terms with
  | [] => exact absurd same (ended.ne_members members otherRest)
  | [term] =>
      rw [Term.listTokens] at same
      cases members with
      | last statement comma =>
          rw [Members.tokens, List.append_assoc] at same
          rcases Term.statement?_of_tokens term same with ⟨derived, sameRest⟩
          cases comma with
          | false =>
              refine ⟨?_, sameRest⟩
              rw [Term.members?, derived]
              rfl
          | true => exact absurd (congrArg List.head? sameRest) ended.head?_ne_comma
      | cons statement members =>
          rw [Members.tokens, List.append_assoc] at same
          rcases Term.statement?_of_tokens term same with ⟨_, sameRest⟩
          exact absurd (congrArg List.head? sameRest) ended.head?_ne_comma
  | term :: following :: terms =>
      rw [Term.listTokens, List.append_assoc] at same
      cases members with
      | last statement comma =>
          -- The comma behind the first term would be a trailing one, but terms stand behind it.
          rw [Members.tokens, List.append_assoc] at same
          rcases Term.statement?_of_tokens term same with ⟨_, sameRest⟩
          cases comma with
          | false =>
              exact absurd (congrArg List.head? sameRest).symm otherEnded.head?_ne_comma
          | true =>
              rcases Term.exists_listTokens_eq_cons following terms with
                ⟨token, tokens, shape, begins⟩
              have behind := (List.cons.inj sameRest).2
              rw [shape] at behind
              have isMark := otherEnded token (congrArg List.head? behind).symm
              exact absurd isMark (begins.ne_mark ")")
      | cons statement members =>
          rw [Members.tokens, List.append_assoc] at same
          rcases Term.statement?_of_tokens term same with ⟨derived, sameRest⟩
          rcases Term.members?_of_tokens (following :: terms) ended otherEnded
            (List.cons.inj sameRest).2 with ⟨othersDerived, sameEnd⟩
          refine ⟨?_, sameEnd⟩
          rw [Term.members?, derived, othersDerived]
          rfl

end

mutual

/-- A term that stands for a tree has paths that can be searched. -/
theorem Term.searchable_of_node?
    {catalog : Catalog}
    {key : String}
    (term : Term)
    {node : Node}
    (translated : term.node? catalog key = some node) :
    ∀ path ∈ term.paths, isSearchablePath path = true := by
  cases term with
  | search path operand =>
      rw [Term.node?] at translated
      split at translated
      · next searchable =>
          rw [Term.paths, List.forall_mem_singleton]
          exact searchable
      · cases translated
  | group combinator members =>
      rw [Term.node?] at translated
      split at translated
      · cases translated
      · rcases Option.bind_eq_some_iff.mp translated with ⟨nodes, membersTranslated, _⟩
        exact Term.searchable_of_nodes? members membersTranslated

theorem Term.searchable_of_nodes?
    {catalog : Catalog}
    {key : String}
    (terms : List Term)
    {nodes : List Node}
    (translated : Term.nodes? catalog key terms = some nodes) :
    ∀ path ∈ Term.listPaths terms, isSearchablePath path = true := by
  cases terms with
  | nil => simp [Term.listPaths]
  | cons term terms =>
      rcases Option.bind_eq_some_iff.mp translated with ⟨node, termTranslated, others⟩
      rcases Option.bind_eq_some_iff.mp others with ⟨otherNodes, othersTranslated, _⟩
      rw [Term.listPaths, List.forall_mem_append]
      exact ⟨Term.searchable_of_node? term termTranslated,
        Term.searchable_of_nodes? terms othersTranslated⟩

end

/-! ## Whole searches -/

/-- The derivation of terms, of which there may be none. -/
def Term.whole? : List Term → Option (Option Members)
  | [] => some none
  | term :: terms => (Term.members? (term :: terms)).map some

/-- The tokens of terms have no derivation but their own. -/
theorem Term.whole?_of_tokensOf
    {terms : List Term}
    {derivation : Option Members}
    (yields : tokensOf derivation = Term.listTokens terms) :
    Term.whole? terms = some derivation := by
  cases terms with
  | nil =>
      cases derivation with
      | none => rfl
      | some members =>
          rcases members.exists_tokens_eq_cons with ⟨token, tokens, shape, _⟩
          rw [tokensOf, shape] at yields
          cases yields
  | cons term terms =>
      cases derivation with
      | none =>
          rcases Term.exists_listTokens_eq_cons term terms with ⟨token, tokens, shape, _⟩
          rw [shape] at yields
          cases yields
      | some members =>
          have ended : Ended [] := by simp [Ended]
          have same : Term.listTokens (term :: terms) ++ [] = members.tokens ++ [] := by
            rw [← yields]
            rfl
          rw [Term.whole?, (Term.members?_of_tokens (term :: terms) ended ended same).1]
          rfl

/-- Terms with paths that can be searched have the tokens, the depth and the trees of it. -/
theorem Term.of_whole?
    {terms : List Term}
    {derivation : Option Members}
    (derived : Term.whole? terms = some derivation) :
    tokensOf derivation = Term.listTokens terms ∧
      depthOf derivation = Term.listDepth terms := by
  cases terms with
  | nil =>
      cases derived
      exact ⟨rfl, rfl⟩
  | cons term terms =>
      rcases Option.map_eq_some_iff.mp derived with ⟨members, membersDerived, rfl⟩
      exact ⟨Term.tokens_of_members? _ membersDerived, Term.depth_of_members? _ membersDerived⟩

theorem Term.nodes?_eq_whole?
    (catalog : Catalog)
    (key : String)
    {terms : List Term}
    (searchable : ∀ path ∈ Term.listPaths terms, isSearchablePath path = true) :
    Term.nodes? catalog key terms = (Term.whole? terms).bind (nodesOf? catalog key) := by
  cases terms with
  | nil => rfl
  | cons term terms =>
      rw [Term.nodes?_eq catalog key _ (List.cons_ne_nil _ _) searchable, Term.whole?]
      cases Term.members? (term :: terms) <;> rfl

/-- The tokens of terms with paths that can be searched are read as the trees of the terms. -/
theorem whole_eq_ok_iff
    {catalog : Catalog}
    {key : String}
    {terms : List Term}
    (searchable : ∀ path ∈ Term.listPaths terms, isSearchablePath path = true)
    {nodes : List Node} :
    Setting.whole ⟨catalog, key, none⟩ (Term.listTokens terms) = .ok nodes ↔
      Term.listDepth terms ≤ maxDepth ∧ Term.nodes? catalog key terms = some nodes := by
  rw [Term.nodes?_eq_whole? catalog key searchable, Option.bind_eq_some_iff]
  constructor
  · intro read
    rcases Grammar.whole_sound (terminal_terms terms) read with
      ⟨-, derivation, yields, shallow, meaning⟩
    have derived := Term.whole?_of_tokensOf yields
    rw [← (Term.of_whole? derived).2]
    exact ⟨shallow, derivation, derived, meaning⟩
  · rintro ⟨shallow, derivation, derived, meaning⟩
    rcases Term.of_whole? derived with ⟨yields, depth⟩
    rw [← yields]
    rw [← depth] at shallow
    exact Grammar.whole_complete rfl shallow meaning

theorem translation?_eq_some_iff
    {catalog : Catalog}
    {key : String}
    {terms : List Term}
    {node : Node} :
    translation? catalog key terms = some node ↔
      (catalog.find? key).isSome ∧
        Term.listDepth terms ≤ maxDepth ∧
        ∃ nodes, Term.nodes? catalog key terms = some nodes ∧ node = .group .all nodes := by
  rw [translation?]
  split
  · next admitted =>
      simp only [admitted.1, admitted.2, true_and, Option.bind_eq_bind, Option.bind_eq_some_iff,
        Option.some.injEq, eq_comm (b := node)]
  · next refused =>
      constructor
      · intro translated
        cases translated
      · rintro ⟨known, shallow, _⟩
        exact absurd ⟨known, shallow⟩ refused

/-- Terms with a path that cannot be searched are not read. -/
theorem searchable_of_parseTerms
    {catalog : Catalog}
    {key : String}
    {terms : List Term}
    {node : Node}
    (parsed : parseTerms catalog key terms = .ok node) :
    ∀ path ∈ Term.listPaths terms, isSearchablePath path = true := by
  rcases Grammar.parse_eq_ok_iff_whole.mp parsed with ⟨_, nodes, read, _⟩
  have terminal : ∀ token ∈ (TokenStream.ofTerms terms).tokens, token.Terminal :=
    fun token isToken => Token.IsDelivered.terminal (.inr ⟨terms, isToken⟩)
  have unfailing := (Grammar.whole_sound terminal read).1
  rcases Walker.searchable_or_exists_firstUnsearchable (Term.listPaths terms) with
    searchable | ⟨before, path, first⟩
  · exact searchable
  · rcases Walker.stream_start_of_unsearchable first (Nat.lt_succ_self _) with
      ⟨delivered, _, stream⟩
    rw [TokenStream.ofTerms, stream] at unfailing
    cases unfailing

/-- Terms with paths that can be searched are read as what they stand for. -/
theorem parseTerms_eq_ok_iff_of_searchable
    {catalog : Catalog}
    {key : String}
    {terms : List Term}
    (searchable : ∀ path ∈ Term.listPaths terms, isSearchablePath path = true)
    {node : Node} :
    parseTerms catalog key terms = .ok node ↔ translation? catalog key terms = some node := by
  have stream : TokenStream.ofTerms terms = ⟨Term.listTokens terms, none⟩ :=
    Walker.stream_start searchable (Nat.lt_succ_self _)
  rw [parseTerms, Grammar.parse_eq_ok_iff_whole, translation?_eq_some_iff, stream]
  simp only [whole_eq_ok_iff searchable, and_assoc, exists_and_left]

/--
Searches that are built as terms mean what they say.

Terms are read as a search on a class if and only if they stand for one by themselves:
the class is known, the paths can be searched and lead to attributes, groups have
members and are nested no deeper than allowed, and operands have at most one NOT, lists
of bounds two values of one kind and alternatives at least one.  The search is then the
tree that the terms stand for, in which every value is what its text is for the type of
its attribute.  Numbers, truth values and strings keep their value on the way, and so
does every date that is read back from its own text.
-/
theorem parseTerms_translates (catalog : Catalog) (key : String) (terms : List Term) :
    (∀ node,
      parseTerms catalog key terms = .ok node ↔ translation? catalog key terms = some node) ∧
    ∀ type (value : Scalar),
      value.variant = Grammar.variantOf type →
      (∀ date, value = .date date → PartialDate.read? date.text = some date) →
      readValue? type value.text = some value := by
  refine ⟨fun node => ⟨fun parsed => ?_, fun translated => ?_⟩, fun type value => readValue?_text⟩
  · exact (parseTerms_eq_ok_iff_of_searchable (searchable_of_parseTerms parsed)).mp parsed
  · rcases translation?_eq_some_iff.mp translated with ⟨_, _, nodes, termsTranslated, _⟩
    have searchable := Term.searchable_of_nodes? terms termsTranslated
    exact (parseTerms_eq_ok_iff_of_searchable searchable).mpr translated

/-- Books whose title is not of some form, printed between two years or without an author. -/
def soughtTerms : List Term :=
  [.search "title" (.negation (.compare .like (.string "a'%"))),
    .group .any
      [.search "printed"
          (.list [.date ⟨some 1816, none, none, none, none, none⟩,
            .date ⟨some 1818, none, none, none, none, none⟩]),
        .search "author.name" .undefined]]

/-- Terms are read as they are translated, and the least number is read back from its text. -/
theorem soughtTerms_translated_on_library :
    ∃ catalog node,
      Catalog.build library = .ok catalog ∧
      parseTerms catalog "book" soughtTerms = .ok node ∧
      node.leaves =
        [⟨"title", .compare .like, true, .scalar (.string "a'%")⟩,
          ⟨"printed", .between, false,
            .pair (.date ⟨some 1816, none, none, none, none, none⟩)
              (.date ⟨some 1818, none, none, none, none, none⟩)⟩,
          ⟨"author.name", .compare .eq, false, .null⟩] ∧
      readValue? .whole (Scalar.integer Int64.minValue).text =
        some (.integer Int64.minValue) := by
  have checked : (match Catalog.build library with
      | .ok catalog =>
          (translation? catalog "book" soughtTerms).map Node.leaves ==
            some
              [⟨"title", .compare .like, true, .scalar (.string "a'%")⟩,
                ⟨"printed", .between, false,
                  .pair (.date ⟨some 1816, none, none, none, none, none⟩)
                    (.date ⟨some 1818, none, none, none, none, none⟩)⟩,
                ⟨"author.name", .compare .eq, false, .null⟩]
      | .error _ => false) = true := by
    decide +kernel
  cases built : Catalog.build library with
  | error error =>
      rw [built] at checked
      cases checked
  | ok catalog =>
      rw [built] at checked
      rcases Option.map_eq_some_iff.mp (eq_of_beq checked) with ⟨node, translated, leaves⟩
      rcases parseTerms_translates catalog "book" soughtTerms with ⟨translates, readsBack⟩
      refine ⟨catalog, node, rfl, (translates node).mpr translated, leaves, ?_⟩
      exact readsBack .whole (.integer Int64.minValue) rfl (by rintro date ⟨⟩)

end ClassStore.Search
