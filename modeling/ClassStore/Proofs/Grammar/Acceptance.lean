import ClassStore.Proofs.Catalog.Columns
import ClassStore.Proofs.Grammar.Operand

/-!
# What the parser accepts

Statements, groups and whole searches are read exactly as they are derived.  Groups
are treated by induction on the levels of nesting to spare: at each level a list of
statements is read with the reader of groups one level below, of which only
`ReadsGroups` is known.  `parse_eq_ok_iff` says which tokens are a search on a class,
and which search they are.
-/

namespace ClassStore.Search.Grammar

open ClassStore.Catalog
open ClassStore.Search.Parser

variable {setting : Setting}

/-! ## Statements -/

/-- What is left behind a beginning of the tokens has the forms of tokens too. -/
theorem terminal_of_append
    {front back : List Token}
    (terminal : ∀ token ∈ front ++ back, token.Terminal) :
    ∀ token ∈ back, token.Terminal :=
  fun token isToken => terminal token (List.mem_append_right front isToken)

theorem search_sound
    {path : String}
    {tokens rest : List Token}
    (terminal : ∀ token ∈ tokens, token.Terminal)
    {node : Node}
    (read : setting.search path tokens = .ok (node, rest)) :
    ∃ arrow negated operand,
      ⟨.identifier, path⟩ :: tokens = (Statement.search path arrow negated operand).tokens ++ rest ∧
      (Statement.search path arrow negated operand).node? setting.catalog setting.key =
        some node := by
  rw [Setting.search] at read
  split at read
  · cases read
  · next resolved found =>
      rcases exists_of_bind_eq_ok read with ⟨⟨arrow, behindArrow⟩, arrowTaken, behind⟩
      rcases exists_of_bind_eq_ok behind with ⟨⟨negated, behindNot⟩, notTaken, compared⟩
      rcases exists_of_bind_eq_ok compared with
        ⟨⟨⟨operator, value⟩, after⟩, operandRead, ends⟩
      cases ends
      cases optional_sound arrowTaken
      cases optional_sound notTaken
      rcases operand_sound (terminal_of_append (terminal_of_append terminal)) operandRead with
        ⟨operand, rfl, meaning⟩
      refine ⟨arrow, negated, operand, ?_, ?_⟩
      · simp only [Statement.tokens, List.cons_append, List.append_assoc]
      · simp [Statement.node?, found, meaning]

theorem search_complete
    (unfailing : setting.failure = none)
    {path : String}
    {arrow negated : Bool}
    {operand : Operand}
    {node : Node}
    (meaning :
      (Statement.search path arrow negated operand).node? setting.catalog setting.key = some node)
    (rest : List Token) :
    setting.search path
        (optionally Token.arrow arrow ++
          (optionally (Token.keyword "NOT") negated ++ (operand.tokens ++ rest))) =
      .ok (node, rest) := by
  rcases Option.bind_eq_some_iff.mp meaning with ⟨resolved, found, others⟩
  rcases Option.bind_eq_some_iff.mp others with ⟨⟨operator, value⟩, operandMeaning, ends⟩
  cases ends
  have arrowTaken := optional_complete unfailing arrow
    (head?_negation_append negated operand rest)
  have notTaken := optional_complete unfailing negated (operand.head?_tokens_append rest).2
  have operandRead :
      setting.operand path resolved.attr.searchType (operand.tokens ++ rest) =
        .ok ((operator, value), rest) :=
    operand_complete path operandMeaning rest
  simp only [Setting.search, found, arrowTaken, notTaken, operandRead, bind, Except.bind]

/--
The function reads exactly the statements with groups down to the given depth.

What it reads is a statement in any case, but a source that fails may fail behind
the tokens of a statement, where the function looks for a separator.
-/
structure ReadsStatements (setting : Setting) (levels : Nat)
    (read : List Token → Except Stop (Node × List Token)) : Prop where
  sound : ∀ tokens node rest,
    (∀ token ∈ tokens, token.Terminal) →
    read tokens = .ok (node, rest) →
    ∃ statement : Statement,
      tokens = statement.tokens ++ rest ∧
      statement.depth ≤ levels ∧
      statement.node? setting.catalog setting.key = some node
  complete : setting.failure = none →
    ∀ (statement : Statement) node,
    statement.depth ≤ levels →
    statement.node? setting.catalog setting.key = some node →
    ∀ rest, read (statement.tokens ++ rest) = .ok (node, rest)

/-- The function reads exactly the groups down to the given depth, behind their words. -/
structure ReadsGroups (setting : Setting) (levels : Nat)
    (read : Combinator → List Token → Except Stop (Node × List Token)) : Prop where
  sound : ∀ combinator tokens node rest,
    (∀ token ∈ tokens, token.Terminal) →
    read combinator tokens = .ok (node, rest) →
    ∃ members : Members,
      tokens = Token.mark "(" :: (members.tokens ++ Token.mark ")" :: rest) ∧
      members.depth < levels ∧
      ∃ nodes,
        members.nodes? setting.catalog setting.key = some nodes ∧
        node = .group combinator nodes
  complete : setting.failure = none →
    ∀ combinator (members : Members) nodes,
    members.depth < levels →
    members.nodes? setting.catalog setting.key = some nodes →
    ∀ rest,
      read combinator (Token.mark "(" :: (members.tokens ++ Token.mark ")" :: rest)) =
        .ok (.group combinator nodes, rest)

theorem combinator_ofWord?_word (combinator : Combinator) :
    Combinator.ofWord? combinator.word = some combinator := by
  cases combinator <;> decide

theorem eq_word_of_ofWord?
    {word : String}
    {combinator : Combinator}
    (known : Combinator.ofWord? word = some combinator) :
    word = combinator.word := by
  have same := List.find?_some known
  exact (eq_of_beq same).symm

theorem readsStatements
    {levels : Nat}
    {group : Combinator → List Token → Except Stop (Node × List Token)}
    (groups : ReadsGroups setting levels group) :
    ReadsStatements setting levels (setting.statement group) := by
  constructor
  · intro tokens node rest terminal read
    cases tokens with
    | nil => exact absurd read (ended_ne_ok _ _)
    | cons token tokens =>
        rw [List.forall_mem_cons] at terminal
        rcases terminal with ⟨form, terminal⟩
        cases form with
        | identifier path =>
            rcases search_sound terminal read with ⟨arrow, negated, operand, shape, meaning⟩
            exact ⟨.search path arrow negated operand, shape, Nat.zero_le _, meaning⟩
        | keyword word =>
            simp only [Setting.statement, Token.keyword] at read
            split at read
            · next combinator known =>
                rcases groups.sound combinator tokens node rest terminal read with
                  ⟨members, rfl, shallow, nodes, meaning, rfl⟩
                refine ⟨.group combinator members, ?_, shallow, ?_⟩
                · rw [eq_word_of_ofWord? known]
                  simp [Statement.tokens]
                · simp [Statement.node?, meaning]
            · cases read
        | mark text => cases read
        | comparison comparison => cases read
        | value text => cases read
        | undefined => cases read
  · intro unfailing statement node shallow meaning rest
    cases statement with
    | search path arrow negated operand =>
        have searchRead := search_complete unfailing meaning rest
        simp only [Statement.tokens, List.cons_append, List.append_assoc]
        exact searchRead
    | group combinator members =>
        rcases Option.bind_eq_some_iff.mp meaning with ⟨nodes, membersMeaning, ends⟩
        cases ends
        have groupRead :=
          groups.complete unfailing combinator members nodes shallow membersMeaning rest
        simp only [Statement.tokens, List.cons_append, List.append_assoc, Setting.statement,
          Token.keyword, combinator_ofWord?_word]
        exact groupRead

/-! ## Lists of statements -/

theorem statements_sound
    {levels : Nat}
    {statement : List Token → Except Stop (Node × List Token)}
    (reads : ReadsStatements setting levels statement)
    {isEnd : List Token → Except Stop Bool}
    {limit : Nat}
    {tokens rest : List Token}
    (terminal : ∀ token ∈ tokens, token.Terminal)
    {nodes : List Node}
    (read : setting.statements statement isEnd limit tokens = .ok (nodes, rest)) :
    tokens = rest ∧ nodes = [] ∨
      ∃ members : Members,
        tokens = members.tokens ++ rest ∧
        members.depth ≤ levels ∧
        members.nodes? setting.catalog setting.key = some nodes := by
  induction limit generalizing tokens nodes with
  | zero =>
      cases read
      exact .inl ⟨rfl, rfl⟩
  | succ limit inductionHypothesis =>
      rcases exists_of_bind_eq_ok read with ⟨ends, _, unended⟩
      split at unended
      · cases unended
        exact .inl ⟨rfl, rfl⟩
      · rcases exists_of_bind_eq_ok unended with ⟨⟨node, behind⟩, statementRead, continued⟩
        rcases exists_of_bind_eq_ok continued with ⟨⟨continues, others⟩, commaTaken, listed⟩
        rcases reads.sound tokens node behind terminal statementRead with
          ⟨first, rfl, shallow, meaning⟩
        cases optional_sound commaTaken
        cases continues with
        | false =>
            cases listed
            refine .inr ⟨.last first false, ?_, shallow, ?_⟩
            · simp [Members.tokens, optionally]
            · exact Members.nodes?_last_eq_some_iff.mpr ⟨node, meaning, rfl⟩
        | true =>
            -- Behind the comma stand further statements, or none: then the comma trails.
            rcases exists_of_bind_eq_ok listed with ⟨⟨otherNodes, after⟩, othersRead, ends⟩
            cases ends
            rcases inductionHypothesis (terminal_of_append (terminal_of_append terminal))
              othersRead with ⟨rfl, rfl⟩ | ⟨members, rfl, othersShallow, othersMeaning⟩
            · refine .inr ⟨.last first true, ?_, shallow, ?_⟩
              · simp [Members.tokens, optionally]
              · exact Members.nodes?_last_eq_some_iff.mpr ⟨node, meaning, rfl⟩
            · refine .inr ⟨.cons first members, ?_, Nat.max_le.mpr ⟨shallow, othersShallow⟩, ?_⟩
              · simp [Members.tokens, optionally]
              · exact Members.nodes?_cons_eq_some_iff.mpr
                  ⟨node, otherNodes, meaning, othersMeaning, rfl⟩

/-- The list of statements is over at the given tokens, and not where a statement begins. -/
structure EndsAt (isEnd : List Token → Except Stop Bool) (rest : List Token) : Prop where
  stops : isEnd rest = .ok true
  goesOn : ∀ token tokens, BeginsStatement token → isEnd (token :: tokens) = .ok false
  noComma : rest.head? ≠ some Token.comma

/-- One statement is read, and then the following ones if a comma leads to them. -/
theorem statements_step
    (unfailing : setting.failure = none)
    {levels : Nat}
    {read : List Token → Except Stop (Node × List Token)}
    (reads : ReadsStatements setting levels read)
    {isEnd : List Token → Except Stop Bool}
    {rest : List Token}
    (endsAt : EndsAt isEnd rest)
    {statement : Statement}
    (shallow : statement.depth ≤ levels)
    {node : Node}
    (meaning : statement.node? setting.catalog setting.key = some node)
    (comma : Bool)
    {behind : List Token}
    (absent : behind.head? ≠ some Token.comma)
    (limit : Nat) :
    setting.statements read isEnd (limit + 1)
        (statement.tokens ++ (optionally Token.comma comma ++ behind)) =
      if comma then
        (setting.statements read isEnd limit behind).map fun (nodes, rest) => (node :: nodes, rest)
      else
        .ok ([node], behind) := by
  have unended :
      isEnd (statement.tokens ++ (optionally Token.comma comma ++ behind)) = .ok false := by
    rcases statement.exists_tokens_eq_cons with ⟨token, tokens, shape, begins⟩
    rw [shape]
    exact endsAt.goesOn token _ begins
  have statementRead := reads.complete unfailing statement node shallow meaning
    (optionally Token.comma comma ++ behind)
  have commaTaken := optional_complete unfailing comma absent
  simp only [Setting.statements, unended, statementRead, commaTaken, bind, Except.bind]
  cases comma with
  | false => rfl
  | true =>
      cases setting.statements read isEnd limit behind with
      | error stop => rfl
      | ok others => rfl

theorem statements_complete
    (unfailing : setting.failure = none)
    {levels : Nat}
    {read : List Token → Except Stop (Node × List Token)}
    (reads : ReadsStatements setting levels read)
    {isEnd : List Token → Except Stop Bool}
    {rest : List Token}
    (endsAt : EndsAt isEnd rest)
    (members : Members)
    (shallow : members.depth ≤ levels)
    {nodes : List Node}
    (meaning : members.nodes? setting.catalog setting.key = some nodes)
    {limit : Nat}
    (enough : members.tokens.length < limit) :
    setting.statements read isEnd limit (members.tokens ++ rest) = .ok (nodes, rest) := by
  rcases Nat.exists_eq_succ_of_ne_zero (Nat.ne_zero_of_lt enough) with ⟨limit, rfl⟩
  cases members with
  | last statement comma =>
      rcases Members.nodes?_last_eq_some_iff.mp meaning with ⟨node, nodeMeaning, rfl⟩
      rw [Members.tokens, List.append_assoc,
        statements_step unfailing reads endsAt shallow nodeMeaning comma endsAt.noComma]
      cases comma with
      | false => rfl
      | true =>
          -- A spent limit gives no statements either, so the trailing comma needs none of it.
          have ended : setting.statements read isEnd limit rest = .ok ([], rest) := by
            cases limit with
            | zero => rfl
            | succ limit => simp [Setting.statements, endsAt.stops, bind, Except.bind]
          rw [ended]
          rfl
  | cons statement members =>
      rcases Members.nodes?_cons_eq_some_iff.mp meaning with
        ⟨node, otherNodes, nodeMeaning, othersMeaning, rfl⟩
      rw [Members.depth, Nat.max_le] at shallow
      have absent : (members.tokens ++ rest).head? ≠ some Token.comma := by
        rcases members.exists_tokens_eq_cons with ⟨token, tokens, shape, begins⟩
        rw [shape]
        exact fun isComma => begins.ne_mark "," (Option.some.inj isComma)
      have shorter : members.tokens.length < limit := by
        rw [Members.tokens, List.length_append, List.length_cons] at enough
        omega
      have othersRead :=
        statements_complete unfailing reads endsAt members shallow.2 othersMeaning shorter
      have step :=
        statements_step unfailing reads endsAt shallow.1 nodeMeaning true absent limit
      rw [othersRead] at step
      rw [Members.tokens, List.append_assoc]
      exact step

/-! ## Groups -/

theorem endsAt_closes (setting : Setting) (rest : List Token) :
    EndsAt setting.closes (Token.mark ")" :: rest) := by
  constructor
  · rw [Setting.closes, Setting.optional, if_pos rfl]
    rfl
  · intro token tokens begins
    rw [Setting.closes, Setting.optional, if_neg (begins.ne_mark ")")]
    rfl
  · simp [Token.mark, Token.comma]

theorem Members.nodes_ne_nil
    {catalog : Catalog}
    {key : String}
    {members : Members}
    {nodes : List Node}
    (meaning : members.nodes? catalog key = some nodes) :
    nodes ≠ [] := by
  cases members with
  | last statement comma =>
      rcases Members.nodes?_last_eq_some_iff.mp meaning with ⟨node, _, rfl⟩
      simp
  | cons statement members =>
      rcases Members.nodes?_cons_eq_some_iff.mp meaning with ⟨node, others, _, _, rfl⟩
      simp

/-- Groups are read down to the number of levels to spare. -/
theorem readsGroups
    (levels : Nat) :
    ReadsGroups setting levels (setting.group levels) := by
  induction levels with
  | zero =>
      constructor
      · intro combinator tokens node rest _ read
        rcases exists_of_bind_eq_ok read with ⟨after, _, fails⟩
        cases fails
      · intro _ combinator members nodes shallow
        cases shallow
  | succ levels inductionHypothesis =>
      have statements := readsStatements inductionHypothesis
      constructor
      · intro combinator tokens node rest terminal read
        rcases exists_of_bind_eq_ok read with ⟨inside, opened, listed⟩
        rcases exists_of_bind_eq_ok listed with ⟨⟨nodes, behind⟩, membersRead, closed⟩
        rcases exists_of_bind_eq_ok closed with ⟨after, closing, grouped⟩
        cases expect_sound opened
        cases expect_sound closing
        rw [List.forall_mem_cons] at terminal
        split at grouped
        · cases grouped
        · next nonempty =>
            cases grouped
            rcases statements_sound statements terminal.2 membersRead with
              ⟨_, rfl⟩ | ⟨members, rfl, shallow, meaning⟩
            · exact absurd rfl nonempty
            · exact ⟨members, rfl, Nat.lt_succ_of_le shallow, nodes, meaning, rfl⟩
      · intro unfailing combinator members nodes shallow meaning rest
        have enough :
            members.tokens.length < (members.tokens ++ Token.mark ")" :: rest).length + 1 := by
          rw [List.length_append]
          omega
        have membersRead := statements_complete unfailing statements
          (endsAt_closes setting rest) members (Nat.le_of_lt_succ shallow) meaning enough
        have nonempty : nodes.isEmpty = false := by
          simpa using Members.nodes_ne_nil meaning
        simp only [Setting.group, expect_complete, membersRead, nonempty, bind, Except.bind]
        rfl

/-! ## Whole searches -/

theorem endsAt_isOver (unfailing : setting.failure = none) :
    EndsAt setting.isOver [] := by
  constructor
  · rw [Setting.isOver, unfailing]
  · intro token tokens _
    rfl
  · simp

/-- A source that is read up to its end without a comma there has not failed. -/
theorem failure_eq_none_of_optional
    {wanted : Token}
    {tokens : List Token}
    (absent : setting.optional wanted tokens = .ok (false, [])) :
    setting.failure = none := by
  cases optional_sound absent
  rw [show optionally wanted false ++ [] = [] from rfl, Setting.optional] at absent
  split at absent
  · cases absent
  · next unfailing => exact unfailing

theorem failure_eq_none_of_isOver
    {tokens : List Token}
    (ended : setting.isOver tokens = .ok true) :
    setting.failure = none := by
  cases tokens with
  | nil =>
      rw [Setting.isOver] at ended
      split at ended
      · cases ended
      · next unfailing => exact unfailing
  | cons token tokens => cases ended

/-- A source whose tokens are all read as statements has not failed. -/
theorem failure_eq_none_of_statements
    {levels : Nat}
    {statement : List Token → Except Stop (Node × List Token)}
    (reads : ReadsStatements setting levels statement)
    {limit : Nat}
    {tokens : List Token}
    (terminal : ∀ token ∈ tokens, token.Terminal)
    (enough : tokens.length < limit)
    {nodes : List Node}
    (read : setting.statements statement setting.isOver limit tokens = .ok (nodes, [])) :
    setting.failure = none := by
  induction limit generalizing tokens nodes with
  | zero => cases enough
  | succ limit inductionHypothesis =>
      rcases exists_of_bind_eq_ok read with ⟨ends, isEnded, unended⟩
      split at unended
      · next isEnd =>
          subst isEnd
          exact failure_eq_none_of_isOver isEnded
      · rcases exists_of_bind_eq_ok unended with ⟨⟨node, behind⟩, statementRead, continued⟩
        rcases exists_of_bind_eq_ok continued with ⟨⟨continues, others⟩, commaTaken, listed⟩
        cases continues with
        | false =>
            cases listed
            exact failure_eq_none_of_optional commaTaken
        | true =>
            rcases reads.sound tokens node behind terminal statementRead with ⟨first, rfl, _, _⟩
            cases optional_sound commaTaken
            rcases exists_of_bind_eq_ok listed with ⟨⟨otherNodes, after⟩, othersRead, ends⟩
            cases ends
            have shorter : others.length < limit := by
              rw [List.length_append, List.length_append] at enough
              have one : (optionally Token.comma true).length = 1 := rfl
              omega
            exact inductionHypothesis (terminal_of_append (terminal_of_append terminal)) shorter
              othersRead

/-- What is read as a whole search comes from a source that has not failed, and is derived. -/
theorem whole_sound
    {tokens : List Token}
    (terminal : ∀ token ∈ tokens, token.Terminal)
    {nodes : List Node}
    (read : setting.whole tokens = .ok nodes) :
    setting.failure = none ∧
    ∃ derivation : Option Members,
      tokensOf derivation = tokens ∧
      depthOf derivation ≤ maxDepth ∧
      nodesOf? setting.catalog setting.key derivation = some nodes := by
  have groups : ReadsGroups setting maxDepth (setting.group maxDepth) := readsGroups maxDepth
  have statements := readsStatements groups
  rcases exists_of_bind_eq_ok read with ⟨⟨members, rest⟩, membersRead, exhausted⟩
  simp only at exhausted
  split at exhausted
  · cases exhausted
    refine ⟨failure_eq_none_of_statements statements terminal (Nat.lt_succ_self _) membersRead, ?_⟩
    rcases statements_sound statements terminal membersRead with
      ⟨rfl, rfl⟩ | ⟨members, rfl, shallow, meaning⟩
    · exact ⟨none, rfl, Nat.zero_le _, rfl⟩
    · exact ⟨some members, (List.append_nil _).symm, shallow, meaning⟩
  · cases exhausted

theorem whole_complete
    (unfailing : setting.failure = none)
    {derivation : Option Members}
    (shallow : depthOf derivation ≤ maxDepth)
    {nodes : List Node}
    (meaning : nodesOf? setting.catalog setting.key derivation = some nodes) :
    setting.whole (tokensOf derivation) = .ok nodes := by
  have groups : ReadsGroups setting maxDepth (setting.group maxDepth) := readsGroups maxDepth
  have statements := readsStatements groups
  cases derivation with
  | none =>
      cases meaning
      simp [Setting.whole, tokensOf, Setting.statements, (endsAt_isOver unfailing).stops, bind,
        Except.bind]
  | some members =>
      have read := statements_complete unfailing statements (endsAt_isOver unfailing) members
        shallow meaning (Nat.lt_succ_self members.tokens.length)
      rw [List.append_nil] at read
      simp [Setting.whole, tokensOf, read, bind, Except.bind]

/-- A stream is read as a search if the class is known and its tokens are read to their end. -/
theorem parse_eq_ok_iff_whole
    {catalog : Catalog}
    {key : String}
    {stream : TokenStream}
    {node : Node} :
    parse catalog key stream = .ok node ↔
      (catalog.find? key).isSome ∧
        ∃ nodes,
          Setting.whole ⟨catalog, key, stream.failure⟩ stream.tokens = .ok nodes ∧
          node = .group .all nodes := by
  rw [parse]
  cases catalog.find? key with
  | none => simp
  | some objectClass =>
      cases Setting.whole ⟨catalog, key, stream.failure⟩ stream.tokens with
      | error stop => simp
      | ok nodes => simp [eq_comm]

/--
The parser accepts exactly the grammar.

On a known class, tokens that a source may deliver are read as a search if and only
if they have a derivation that nests groups no deeper than allowed and has a meaning:
its paths can be searched, its values are values of the types of their paths, and
bounds are of one kind.  The search is then the AND of the statements of the
derivation.  No tokens have two derivations.
-/
theorem parse_eq_ok_iff
    {catalog : Catalog}
    {key : String}
    {objectClass : ObjectClass}
    (known : catalog.find? key = some objectClass)
    {tokens : List Token}
    (delivered : ∀ token ∈ tokens, token.IsDelivered) :
    (∀ node,
      parse catalog key ⟨tokens, none⟩ = .ok node ↔
        ∃ derivation : Option Members,
          tokensOf derivation = tokens ∧
          depthOf derivation ≤ maxDepth ∧
          ∃ nodes,
            nodesOf? catalog key derivation = some nodes ∧
            node = .group .all nodes) ∧
    ∀ derivation other : Option Members,
      tokensOf derivation = tokens → tokensOf other = tokens → derivation = other := by
  constructor
  · intro node
    simp only [parse, known]
    constructor
    · intro parsed
      split at parsed
      · next nodes read =>
          cases parsed
          have terminal : ∀ token ∈ tokens, token.Terminal :=
            fun token isToken => (delivered token isToken).terminal
          rcases whole_sound terminal read with ⟨-, derivation, yields, shallow, meaning⟩
          exact ⟨derivation, yields, shallow, nodes, meaning, rfl⟩
      · cases parsed
    · rintro ⟨derivation, rfl, shallow, nodes, meaning, rfl⟩
      have read : Setting.whole ⟨catalog, key, none⟩ (tokensOf derivation) = .ok nodes :=
        whole_complete rfl shallow meaning
      rw [read]
  · intro derivation other yields otherYields
    exact eq_of_tokensOf_eq (yields.trans otherYields.symm)

/-- Books whose title does not begin with an a, printed in two years or with a known author. -/
def soughtBooks : Option Members :=
  some
    (.cons (.search "title" true true (.compare .like "a%"))
      (.last
        (.group .any
          (.cons
            (.search "printed" false false
              (.between false ⟨"1816-xx-xx", .arrow, "1818-xx-xx", some .comma⟩))
            (.last (.search "author.name" false false (.compareUndefined .ne (.inr rfl))) false)))
        true))

/-- A text with trailing commas, and with marks that may be left out left out here and there. -/
def soughtText : String :=
  "title => NOT LIKE 'a%', " ++
    "OR(printed ['1816-xx-xx' => '1818-xx-xx',], author.name NE NULL),"

/-- The text is read by its derivation as a search of three leaves. -/
theorem soughtText_parsed_on_library :
    ∃ catalog nodes,
      Catalog.build library = .ok catalog ∧
      parse catalog "book" ⟨(TokenStream.ofText soughtText).tokens, none⟩ =
        .ok (.group .all nodes) ∧
      Node.listLeaves nodes =
        [⟨"title", .compare .like, true, .scalar (.string "a%")⟩,
          ⟨"printed", .between, false,
            .pair (.date ⟨some 1816, none, none, none, none, none⟩)
              (.date ⟨some 1818, none, none, none, none, none⟩)⟩,
          ⟨"author.name", .compare .ne, false, .null⟩] := by
  have checked : (match Catalog.build library with
      | .ok catalog =>
          (catalog.find? "book").isSome &&
            (nodesOf? catalog "book" soughtBooks).map Node.listLeaves ==
              some
                [⟨"title", .compare .like, true, .scalar (.string "a%")⟩,
                  ⟨"printed", .between, false,
                    .pair (.date ⟨some 1816, none, none, none, none, none⟩)
                      (.date ⟨some 1818, none, none, none, none, none⟩)⟩,
                  ⟨"author.name", .compare .ne, false, .null⟩]
      | .error _ => false) = true := by
    decide +kernel
  have yields : tokensOf soughtBooks = (TokenStream.ofText soughtText).tokens := by
    decide +kernel
  cases built : Catalog.build library with
  | error error =>
      rw [built] at checked
      cases checked
  | ok catalog =>
      rw [built] at checked
      simp only [Bool.and_eq_true, beq_iff_eq] at checked
      rcases Option.isSome_iff_exists.mp checked.1 with ⟨objectClass, known⟩
      rcases Option.map_eq_some_iff.mp checked.2 with ⟨nodes, meaning, leaves⟩
      refine ⟨catalog, nodes, rfl, ?_, leaves⟩
      exact ((parse_eq_ok_iff known fun token isToken => .inl ⟨soughtText, isToken⟩).1 _).mpr
        ⟨soughtBooks, yields, by decide, nodes, meaning, rfl⟩

end ClassStore.Search.Grammar
