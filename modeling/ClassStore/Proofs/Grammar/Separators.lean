import ClassStore.Proofs.Grammar.Acceptance
import ClassStore.Proofs.Grammar.Arrows

/-!
# Separators of lists

The values of BETWEEN and of ANY are separated by commas or by arrows, and a comma may
follow the last one.  An arrow may follow it too: the parser looks for the closing mark
again wherever it would read another value.  `arrows_of_parse` says where the arrows of
a search stand, whatever its tokens are, and that those in front of a closing mark are
read as if they were commas.

Each function of the parser takes a beginning of its tokens.  `ReadsAlike` says that
this beginning is settled and that the function gives the same result with commas for
its trailing arrows.
-/

namespace ClassStore.Search.Grammar

open ClassStore.Catalog
open ClassStore.Search.Parser

variable {setting : Setting}

/-! ## Lists of values -/

/-- Bounds are read alike with a comma for an arrow behind the second one. -/
theorem bounds_alike
    {path : String}
    {type : SemanticType}
    {tokens rest : List Token}
    {result : Operator × Value}
    (read : setting.bounds path type tokens = .ok (result, rest)) :
    ∃ items : Items,
      tokens = items.tokens ++ [Token.mark "]"] ++ rest ∧
      ∀ other,
        setting.bounds path type (items.commaTrailed.tokens ++ [Token.mark "]"] ++ other) =
          .ok (result, other) := by
  rcases result with ⟨operator, value⟩
  rcases bounds_sound read with ⟨bounds, rfl, meaning, rfl⟩
  let trailed : Bounds := { bounds with trailing := bounds.trailing.map fun _ => .comma }
  have sameMeaning : trailed.value? type = some value := meaning
  refine ⟨bounds.items, by simp, fun other => ?_⟩
  rw [List.append_assoc, List.singleton_append]
  exact bounds_complete path sameMeaning other

/-- Alternatives are read alike with a comma for an arrow behind the last one. -/
theorem alternatives_alike
    {path : String}
    {type : SemanticType}
    {tokens rest : List Token}
    {result : Operator × Value}
    (read : setting.alternatives path type tokens = .ok (result, rest)) :
    ∃ items : Items,
      tokens = items.tokens ++ [Token.mark ")"] ++ rest ∧
      ∀ other,
        setting.alternatives path type (items.commaTrailed.tokens ++ [Token.mark ")"] ++ other) =
          .ok (result, other) := by
  rcases result with ⟨operator, value⟩
  rcases alternatives_sound read with ⟨items, rfl, meaning⟩
  rcases Option.bind_eq_some_iff.mp meaning with ⟨values, itemsMeaning, ends⟩
  cases ends
  rw [← Items.values?_commaTrailed] at itemsMeaning
  refine ⟨items, by simp, fun other => ?_⟩
  rw [List.append_assoc, List.singleton_append]
  exact alternatives_complete path itemsMeaning other

/-! ## Operands -/

/-- No operand begins with an arrow, with NOT or with a closing mark. -/
theorem begins_of_operand
    {path : String}
    {type : SemanticType}
    {token : Token}
    {tokens rest : List Token}
    {result : Operator × Value}
    (read : setting.operand path type (token :: tokens) = .ok (result, rest)) :
    token ≠ Token.arrow ∧ token ≠ Token.keyword "NOT" ∧ closesList token = false := by
  refine ⟨?_, ?_, ?_⟩
  · rintro rfl
    simp [Setting.operand, Token.arrow, Token.mark] at read
  · rintro rfl
    simp [Setting.operand, Token.keyword] at read
  · rw [Bool.eq_false_iff]
    intro closes
    simp only [closesList, Bool.or_eq_true, decide_eq_true_eq] at closes
    rcases closes with rfl | rfl <;> simp [Setting.operand, Token.mark] at read

theorem compared_alike
    {path : String}
    {type : SemanticType}
    {operator : Operator}
    {tokens rest : List Token}
    {result : Operator × Value}
    (read : setting.compared path type operator tokens = .ok (result, rest)) :
    ∃ token,
      tokens = token :: rest ∧
      token ≠ Token.arrow ∧
      ∀ other, setting.compared path type operator (token :: other) = .ok (result, other) := by
  cases tokens with
  | nil => exact absurd read (ended_ne_ok _ _)
  | cons token tokens =>
      rw [Setting.compared] at read
      split at read
      · next isValue =>
          rcases exists_of_bind_eq_ok read with ⟨value, valueRead, ends⟩
          cases ends
          refine ⟨token, rfl, ne_arrow_of_kind (by simp [isValue]), fun other => ?_⟩
          rw [Setting.compared, if_pos isValue, valueRead]
          rfl
      · next noValue =>
          split at read
          · next isUndefined =>
              cases read
              refine ⟨token, rfl, ne_arrow_of_kind (by simp [isUndefined.1]), fun other => ?_⟩
              rw [Setting.compared, if_neg noValue, if_pos isUndefined]
          · cases read

/-- The values of a list and its closing mark, behind a token that is no arrow. -/
theorem Settled.cons_items
    {token : Token}
    (noArrow : token ≠ Token.arrow)
    {closing : Token}
    (closes : closesList closing = true)
    (items : Items) :
    Settled (token :: (items.tokens ++ [closing])) ∧
      commaTrailed (token :: (items.tokens ++ [closing])) =
        token :: (items.commaTrailed.tokens ++ [closing]) := by
  refine ⟨(items.settled closes).cons noArrow, ?_⟩
  rw [commaTrailed_cons_of_ne noArrow, items.commaTrailed_tokens closes]

/--
An operand is read alike with commas for its trailing arrows.

Its first token is no arrow, so that it is left as it is.
-/
theorem operand_alike
    {path : String}
    {type : SemanticType}
    {token : Token}
    {tokens rest : List Token}
    {result : Operator × Value}
    (read : setting.operand path type (token :: tokens) = .ok (result, rest)) :
    ∃ taken,
      tokens = taken ++ rest ∧
      Settled (token :: taken) ∧
      ∀ other,
        setting.operand path type (token :: (commaTrailed taken ++ other)) =
          .ok (result, other) := by
  have noArrow := (begins_of_operand read).1
  have closesBounds : closesList (Token.mark "]") = true := rfl
  have closesAlternatives : closesList (Token.mark ")") = true := rfl
  simp only [Setting.operand] at read ⊢
  split at read
  · next isValue =>
      rcases exists_of_bind_eq_ok read with ⟨value, valueRead, ends⟩
      cases ends
      refine ⟨[], rfl, settled_singleton noArrow, fun other => ?_⟩
      rw [valueRead]
      rfl
  · cases read
    exact ⟨[], rfl, settled_singleton noArrow, fun other => rfl⟩
  · split at read
    · cases read
    · rcases compared_alike read with ⟨second, rfl, secondNoArrow, again⟩
      refine ⟨[second], rfl, (settled_singleton secondNoArrow).cons noArrow, fun other => ?_⟩
      rw [commaTrailed_cons_of_ne secondNoArrow]
      exact again other
  · split at read
    · next isBetween =>
        rcases exists_of_bind_eq_ok read with ⟨after, opened, bounded⟩
        cases expect_sound opened
        rcases bounds_alike bounded with ⟨items, rfl, again⟩
        have opens : Token.mark "[" ≠ Token.arrow := by decide
        rcases Settled.cons_items opens closesBounds items with ⟨settled, trailed⟩
        refine ⟨Token.mark "[" :: (items.tokens ++ [Token.mark "]"]), rfl,
          settled.cons noArrow, fun other => ?_⟩
        rw [if_pos isBetween, trailed]
        exact again other
    · next noBetween =>
        split at read
        · next isAny =>
            rcases exists_of_bind_eq_ok read with ⟨after, opened, offered⟩
            cases expect_sound opened
            rcases alternatives_alike offered with ⟨items, rfl, again⟩
            have opens : Token.mark "(" ≠ Token.arrow := by decide
            rcases Settled.cons_items opens closesAlternatives items with ⟨settled, trailed⟩
            refine ⟨Token.mark "(" :: (items.tokens ++ [Token.mark ")"]), rfl,
              settled.cons noArrow, fun other => ?_⟩
            rw [if_neg noBetween, if_pos isAny, trailed]
            exact again other
        · cases read
  · split at read
    · next opens =>
        rcases bounds_alike read with ⟨items, rfl, again⟩
        refine ⟨items.tokens ++ [Token.mark "]"], rfl,
          (items.settled closesBounds).cons noArrow, fun other => ?_⟩
        rw [if_pos opens, items.commaTrailed_tokens closesBounds]
        exact again other
    · cases read
  · cases read

/-! ## Statements and groups -/

/-- A token that may be left out is taken if it is written in front of another one. -/
theorem optional_optionally
    (setting : Setting)
    {wanted token : Token}
    (other : token ≠ wanted)
    (written : Bool)
    (rest : List Token) :
    setting.optional wanted (optionally wanted written ++ token :: rest) =
      .ok (written, token :: rest) := by
  cases written with
  | false => exact if_neg other
  | true => exact if_pos rfl

/-- Tokens that begin alike are both exhausted, or have their first token in common. -/
theorem begins_alike
    {tokens other : List Token}
    (same : other.head? = tokens.head?) :
    tokens = [] ∧ other = [] ∨
      ∃ first following others, tokens = first :: following ∧ other = first :: others := by
  cases tokens with
  | nil => exact .inl ⟨rfl, List.head?_eq_none_iff.mp same⟩
  | cons first following =>
      rcases List.head?_eq_some_iff.mp same with ⟨others, rfl⟩
      exact .inr ⟨first, following, others, rfl, rfl⟩

/-- Whether a token is taken that may be left out depends on the first token alone. -/
theorem optional_absent_congr
    {wanted : Token}
    {rest other : List Token}
    (absent : setting.optional wanted rest = .ok (false, rest))
    (same : other.head? = rest.head?) :
    setting.optional wanted other = .ok (false, other) := by
  rcases begins_alike same with ⟨rfl, rfl⟩ | ⟨first, following, others, rfl, rfl⟩
  · exact absent
  · rw [Setting.optional] at absent ⊢
    split at absent
    · cases absent
    · next unwanted => rw [if_neg unwanted]

/-- What is compared with may be negated: no arrow comes in, and no list is closed. -/
theorem settled_negated
    {token : Token}
    {taken : List Token}
    (settled : Settled (token :: taken))
    (goesOn : closesList token = false)
    (negated : Bool) :
    Settled (optionally (Token.keyword "NOT") negated ++ token :: taken) ∧
      BeforeOther (optionally (Token.keyword "NOT") negated ++ token :: taken) ∧
      commaTrailed (optionally (Token.keyword "NOT") negated ++ token :: taken) =
        optionally (Token.keyword "NOT") negated ++ token :: commaTrailed taken := by
  have noArrow : token ≠ Token.arrow := by simpa using settled.begins
  have notNoArrow : Token.keyword "NOT" ≠ Token.arrow := by decide
  cases negated with
  | false => exact ⟨settled, ⟨token, rfl, goesOn⟩, commaTrailed_cons_of_ne noArrow taken⟩
  | true =>
      refine ⟨settled.cons notNoArrow, ⟨Token.keyword "NOT", rfl, rfl⟩, ?_⟩
      exact (commaTrailed_cons_of_ne notNoArrow _).trans
        (congrArg _ (commaTrailed_cons_of_ne noArrow taken))

/-- An arrow behind a path has its place, and no comma replaces it. -/
theorem settled_behind_path
    {behind : List Token}
    (settled : Settled behind)
    (goesOn : BeforeOther behind)
    (path : String)
    (arrow : Bool) :
    Settled (⟨.identifier, path⟩ :: (optionally Token.arrow arrow ++ behind)) ∧
      commaTrailed (optionally Token.arrow arrow ++ behind) =
        optionally Token.arrow arrow ++ commaTrailed behind := by
  have noArrow : (⟨.identifier, path⟩ : Token) ≠ Token.arrow :=
    ne_arrow_of_kind (by simp)
  cases arrow with
  | false => exact ⟨settled.cons noArrow, rfl⟩
  | true =>
      rcases goesOn with ⟨first, isHead, opens⟩
      have unclosed : behind.head?.any closesList = false := by
        rw [isHead]
        exact opens
      have placed := settled.placed.cons_arrow noArrow
        (.inl ⟨⟨path, rfl⟩, first, isHead, opens⟩)
      rcases List.head?_eq_some_iff.mp isHead with ⟨following, rfl⟩
      have ends := settled.ends
      exact ⟨⟨placed, by simpa using noArrow, by simpa [optionally] using ends⟩,
        commaTrailed_arrow_of_open unclosed⟩

/-- A search is read alike, and so are the tokens in front of its operand. -/
theorem search_alike
    {path : String}
    {tokens rest : List Token}
    {node : Node}
    (read : setting.search path tokens = .ok (node, rest)) :
    ∃ taken,
      tokens = taken ++ rest ∧
      Settled (⟨.identifier, path⟩ :: taken) ∧
      ∀ other, setting.search path (commaTrailed taken ++ other) = .ok (node, other) := by
  rw [Setting.search] at read
  split at read
  · cases read
  · next resolved found =>
      rcases exists_of_bind_eq_ok read with ⟨⟨arrow, behindArrow⟩, arrowTaken, behind⟩
      rcases exists_of_bind_eq_ok behind with ⟨⟨negated, behindNot⟩, notTaken, compared⟩
      rcases exists_of_bind_eq_ok compared with
        ⟨⟨⟨operator, value⟩, after⟩, operandRead, ends⟩
      cases ends
      cases optional_sound arrowTaken
      cases optional_sound notTaken
      cases behindNot with
      | nil => exact absurd operandRead (ended_ne_ok _ _)
      | cons token operandTokens =>
          rcases begins_of_operand operandRead with ⟨noArrow, noNot, goesOn⟩
          rcases operand_alike operandRead with ⟨taken, rfl, settled, again⟩
          rcases settled_negated settled goesOn negated with
            ⟨negatedSettled, opens, negatedTrailed⟩
          rcases settled_behind_path negatedSettled opens path arrow with
            ⟨searchSettled, trailed⟩
          refine ⟨_, by simp, searchSettled, fun other => ?_⟩
          have arrowAgain : setting.optional Token.arrow
              (optionally Token.arrow arrow ++ (optionally (Token.keyword "NOT") negated ++
                token :: (commaTrailed taken ++ other))) =
              .ok (arrow, optionally (Token.keyword "NOT") negated ++
                token :: (commaTrailed taken ++ other)) := by
            cases negated with
            | false => exact optional_optionally setting noArrow arrow _
            | true => exact optional_optionally setting (by decide) arrow _
          have notAgain := optional_optionally setting noNot negated (commaTrailed taken ++ other)
          rw [trailed, negatedTrailed, Setting.search, found]
          simp only [List.append_assoc, List.cons_append, arrowAgain, notAgain, again, bind,
            Except.bind]

/--
What the function reads is a settled beginning of the tokens.

With commas for the trailing arrows of this beginning it gives the same result, whatever
follows, as long as no more or fewer tokens do.
-/
def ReadsAlike {Output : Type} (read : List Token → Except Stop (Output × List Token)) : Prop :=
  ∀ tokens output rest, read tokens = .ok (output, rest) →
    ∃ taken,
      tokens = taken ++ rest ∧
      Settled taken ∧
      ∀ other : List Token, other.length = rest.length →
        read (commaTrailed taken ++ other) = .ok (output, other)

theorem statement_alike
    {group : Combinator → List Token → Except Stop (Node × List Token)}
    (groups : ∀ combinator, ReadsAlike (group combinator)) :
    ReadsAlike (setting.statement group) := by
  intro tokens node rest read
  cases tokens with
  | nil => exact absurd read (ended_ne_ok _ _)
  | cons token tokens =>
      rcases token with ⟨kind, text⟩
      cases kind with
      | identifier =>
          rcases search_alike read with ⟨taken, rfl, settled, again⟩
          have noArrow : (⟨.identifier, text⟩ : Token) ≠ Token.arrow :=
            ne_arrow_of_kind (by simp)
          refine ⟨⟨.identifier, text⟩ :: taken, rfl, settled, fun other _ => ?_⟩
          rw [commaTrailed_cons_of_ne noArrow]
          exact again other
      | keyword =>
          simp only [Setting.statement] at read
          split at read
          · next combinator known =>
              rcases groups combinator tokens node rest read with ⟨taken, rfl, settled, again⟩
              have noArrow : (⟨.keyword, text⟩ : Token) ≠ Token.arrow :=
                ne_arrow_of_kind (by simp)
              refine ⟨⟨.keyword, text⟩ :: taken, rfl, settled.cons noArrow, fun other same => ?_⟩
              rw [commaTrailed_cons_of_ne noArrow, List.cons_append]
              simp only [Setting.statement, known, again other same]
          · cases read
      | punctuation => cases read
      | comparison => cases read
      | value => cases read
      | undefined => cases read

/-- The end of a list of statements is seen by the first token alone. -/
def SeesFirst (isEnd : List Token → Except Stop Bool) : Prop :=
  ∀ tokens other : List Token, other.head? = tokens.head? → isEnd other = isEnd tokens

theorem seesFirst_closes (setting : Setting) : SeesFirst setting.closes := by
  intro tokens other same
  rcases begins_alike same with ⟨rfl, rfl⟩ | ⟨first, following, others, rfl, rfl⟩
  · rfl
  · simp only [Setting.closes, Setting.optional]
    split <;> rfl

theorem seesFirst_isOver (setting : Setting) : SeesFirst setting.isOver := by
  intro tokens other same
  rcases begins_alike same with ⟨rfl, rfl⟩ | ⟨first, following, others, rfl, rfl⟩ <;> rfl

/-- Statements are read alike up to the token behind them. -/
theorem statements_alike
    {statement : List Token → Except Stop (Node × List Token)}
    (alike : ReadsAlike statement)
    {isEnd : List Token → Except Stop Bool}
    (seesFirst : SeesFirst isEnd)
    {limit : Nat}
    {tokens rest : List Token}
    {nodes : List Node}
    (read : setting.statements statement isEnd limit tokens = .ok (nodes, rest)) :
    ∃ taken,
      tokens = taken ++ rest ∧
      Settled taken ∧
      ∀ other : List Token, other.length = rest.length → other.head? = rest.head? →
        setting.statements statement isEnd limit (commaTrailed taken ++ other) =
          .ok (nodes, other) := by
  induction limit generalizing tokens nodes with
  | zero =>
      cases read
      exact ⟨[], rfl, settled_nil, fun other _ _ => rfl⟩
  | succ limit inductionHypothesis =>
      rcases exists_of_bind_eq_ok read with ⟨ends, seen, unended⟩
      cases ends with
      | true =>
          cases unended
          refine ⟨[], rfl, settled_nil, fun other _ same => ?_⟩
          have seenAgain := (seesFirst _ _ same).trans seen
          simp [Setting.statements, seenAgain, bind, Except.bind]
      | false =>
          rcases exists_of_bind_eq_ok unended with ⟨⟨node, behind⟩, statementRead, continued⟩
          rcases exists_of_bind_eq_ok continued with ⟨⟨continues, others⟩, commaTaken, listed⟩
          rcases alike tokens node behind statementRead with ⟨first, rfl, settled, again⟩
          cases optional_sound commaTaken
          cases continues with
          | false =>
              cases listed
              refine ⟨first, rfl, settled, fun other sameLength same => ?_⟩
              have seenAgain :=
                (seesFirst _ _ (settled.head?_commaTrailed_append same)).trans seen
              have readAgain := again other sameLength
              have absentAgain := optional_absent_congr commaTaken same
              simp [Setting.statements, seenAgain, readAgain, absentAgain, bind, Except.bind]
          | true =>
              rcases exists_of_bind_eq_ok listed with ⟨⟨otherNodes, after⟩, othersRead, ends⟩
              cases ends
              rcases inductionHypothesis othersRead with ⟨taken, rfl, othersSettled, othersAgain⟩
              have commaNoArrow : Token.comma ≠ Token.arrow := by decide
              have trailed : commaTrailed (first ++ Token.comma :: taken) =
                  commaTrailed first ++ Token.comma :: commaTrailed taken := by
                rw [commaTrailed_append settled.ends, commaTrailed_cons_of_ne commaNoArrow]
              refine ⟨first ++ Token.comma :: taken, by simp [optionally],
                settled.append (othersSettled.cons commaNoArrow), fun other sameLength same => ?_⟩
              have sameHead : (Token.comma :: (commaTrailed taken ++ other)).head? =
                  (optionally Token.comma true ++ (taken ++ rest)).head? := rfl
              have seenAgain :=
                (seesFirst _ _ (settled.head?_commaTrailed_append sameHead)).trans seen
              have readAgain := again (Token.comma :: (commaTrailed taken ++ other))
                (by simp [optionally, sameLength])
              have takenAgain : setting.optional Token.comma
                  (Token.comma :: (commaTrailed taken ++ other)) =
                  .ok (true, commaTrailed taken ++ other) := by
                rw [Setting.optional, if_pos rfl]
              rw [trailed, List.append_assoc, List.cons_append]
              simp [Setting.statements, seenAgain, readAgain, takenAgain,
                othersAgain other sameLength same, bind, Except.bind]

/-- Groups of any depth are read alike. -/
theorem group_alike
    (levels : Nat)
    (combinator : Combinator) :
    ReadsAlike (setting.group levels combinator) := by
  induction levels generalizing combinator with
  | zero =>
      intro tokens node rest read
      rcases exists_of_bind_eq_ok read with ⟨after, _, fails⟩
      cases fails
  | succ levels inductionHypothesis =>
      intro tokens node rest read
      rcases exists_of_bind_eq_ok read with ⟨inside, opened, listed⟩
      rcases exists_of_bind_eq_ok listed with ⟨⟨nodes, behind⟩, membersRead, closed⟩
      rcases exists_of_bind_eq_ok closed with ⟨after, closing, grouped⟩
      cases expect_sound opened
      cases expect_sound closing
      split at grouped
      · cases grouped
      · next nonempty =>
          cases grouped
          rcases statements_alike (statement_alike inductionHypothesis)
            (seesFirst_closes setting) membersRead with ⟨taken, rfl, settled, again⟩
          have opens : Token.mark "(" ≠ Token.arrow := by decide
          have closes : Token.mark ")" ≠ Token.arrow := by decide
          have trailed : commaTrailed (Token.mark "(" :: (taken ++ [Token.mark ")"])) =
              Token.mark "(" :: (commaTrailed taken ++ [Token.mark ")"]) := by
            rw [commaTrailed_cons_of_ne opens, commaTrailed_append settled.ends,
              commaTrailed_cons_of_ne closes, commaTrailed_nil]
          refine ⟨Token.mark "(" :: (taken ++ [Token.mark ")"]), by simp,
            (settled.append (settled_singleton closes)).cons opens, fun other sameLength => ?_⟩
          have sameLimit : (commaTrailed taken ++ Token.mark ")" :: other).length =
              (taken ++ Token.mark ")" :: rest).length := by
            simp [sameLength]
          have membersAgain := again (Token.mark ")" :: other) (by simp [sameLength]) rfl
          rw [← sameLimit] at membersAgain
          rw [trailed, List.cons_append, List.append_assoc, List.singleton_append]
          simp only [Setting.group, expect_complete, membersAgain, bind, Except.bind]
          exact if_neg nonempty

/-- A whole search is read alike with commas for the trailing arrows. -/
theorem whole_alike
    {tokens : List Token}
    {nodes : List Node}
    (read : setting.whole tokens = .ok nodes) :
    ArrowsPlaced tokens ∧ setting.whole (commaTrailed tokens) = .ok nodes := by
  rcases exists_of_bind_eq_ok read with ⟨⟨members, rest⟩, membersRead, exhausted⟩
  simp only at exhausted
  split at exhausted
  · cases exhausted
    rcases statements_alike (statement_alike (group_alike maxDepth))
      (seesFirst_isOver setting) membersRead with ⟨taken, whole, settled, again⟩
    rw [List.append_nil] at whole
    subst whole
    have membersAgain := again [] rfl rfl
    rw [List.append_nil] at membersAgain
    refine ⟨settled.placed, ?_⟩
    simp [Setting.whole, membersAgain, bind, Except.bind]
  · cases exhausted

/-! ## Whole searches -/

/--
Where the arrows of a search stand.

In tokens that are read as a search every arrow stands between a path and its operand,
between two values of a list, or behind the last value of a list, in front of the mark
that closes it.  With commas for those that trail so, the tokens are read as the same
search, and no arrow is left that a closing mark follows.
-/
theorem arrows_of_parse
    {catalog : Catalog}
    {key : String}
    {stream : TokenStream}
    {node : Node}
    (parsed : parse catalog key stream = .ok node) :
    (∀ before after, stream.tokens = before ++ Token.arrow :: after →
      BehindPath before ∧ BeforeOther after ∨
        BehindValue before ∧ (BeforeValue after ∨ BeforeClosing after)) ∧
    parse catalog key ⟨commaTrailed stream.tokens, stream.failure⟩ = .ok node ∧
    ∀ before after, commaTrailed stream.tokens = before ++ Token.arrow :: after →
      BehindPath before ∧ BeforeOther after ∨ BehindValue before ∧ BeforeValue after := by
  rcases parse_eq_ok_iff_whole.mp parsed with ⟨known, nodes, read, rfl⟩
  rcases whole_alike read with ⟨placed, readAgain⟩
  refine ⟨placed, parse_eq_ok_iff_whole.mpr ⟨known, nodes, readAgain, rfl⟩, ?_⟩
  intro before after whole
  rcases (whole_alike readAgain).1 before after whole with
    outside | ⟨behind, between | trails⟩
  · exact .inl outside
  · exact .inr ⟨behind, between⟩
  · exact absurd trails (not_beforeClosing_of_commaTrailed whole)

/-- A text with an arrow behind both bounds and another one behind an only alternative. -/
def trailedText : String :=
  "printed => ['1816-xx-xx' => '1818-xx-xx' =>], title ANY('Emma' =>)"

theorem trailedText_parsed :
    ∃ catalog node,
      Catalog.build library = .ok catalog ∧
      parse catalog "book" (TokenStream.ofText trailedText) = .ok node := by
  have checked : ((Catalog.build library).toOption.any fun catalog =>
      (parse catalog "book" (TokenStream.ofText trailedText)).toOption.isSome) = true := by
    decide +kernel
  simp only [Option.any_eq_true, toOption_eq_some_iff, Option.isSome_iff_exists] at checked
  rcases checked with ⟨catalog, built, node, parsed⟩
  exact ⟨catalog, node, built, parsed⟩

/-- The text is read as the same search with commas in both places. -/
theorem trailedText_read_with_commas :
    ∃ catalog node,
      Catalog.build library = .ok catalog ∧
      parse catalog "book" (TokenStream.ofText trailedText) = .ok node ∧
      parse catalog "book" (TokenStream.ofText
        "printed => ['1816-xx-xx' => '1818-xx-xx',], title ANY('Emma',)") = .ok node := by
  rcases trailedText_parsed with ⟨catalog, node, built, parsed⟩
  have trailed : TokenStream.ofText
      "printed => ['1816-xx-xx' => '1818-xx-xx',], title ANY('Emma',)" =
      ⟨commaTrailed (TokenStream.ofText trailedText).tokens,
        (TokenStream.ofText trailedText).failure⟩ := by
    decide +kernel
  refine ⟨catalog, node, built, parsed, ?_⟩
  rw [trailed]
  exact (arrows_of_parse parsed).2.1

/-- An arrow in front of each closing mark is accepted too, not only a comma. -/
theorem exists_trailing_arrows :
    ∃ catalog node,
      Catalog.build library = .ok catalog ∧
      parse catalog "book" (TokenStream.ofText trailedText) = .ok node ∧
      [Token.arrow, Token.mark "]"] <:+: (TokenStream.ofText trailedText).tokens ∧
      [Token.arrow, Token.mark ")"] <:+: (TokenStream.ofText trailedText).tokens := by
  rcases trailedText_parsed with ⟨catalog, node, built, parsed⟩
  exact ⟨catalog, node, built, parsed, by decide +kernel, by decide +kernel⟩

end ClassStore.Search.Grammar
