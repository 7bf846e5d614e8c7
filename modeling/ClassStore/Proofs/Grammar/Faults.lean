import Mathlib.Data.List.Infix
import Mathlib.Data.List.TakeWhile
import ClassStore.Proofs.Catalog.Columns
import ClassStore.Proofs.Token.Terminal
import ClassStore.Search.Parser

/-!
# Where faults are found

A fault of grammar is reported with the tokens taken last and with what follows them.
Some faults are found by looking at the next token, which is quoted then.  Others are
found in a token that has been taken, and no further one is looked at, so that they are
reported as if the text ended there.  `Leaves` carries through the nonterminals that
what remains is the end of the tokens, and where a fault has been found in it;
`near_of_parseText` says what is quoted for which fault.
-/

namespace ClassStore.Search

open ClassStore.Catalog

/-- The fault is found in a token that has been taken, with no look at the next one. -/
def SyntaxFault.isOfTaken : SyntaxFault → Bool
  | .separatorExpected => false
  | .searchExpected => false
  | .statementExpected => true
  | .markExpected _ => false
  | .nestedTooDeep => true
  | .emptyGroup _ => true
  | .valueExpected => false
  | .unknownComparison => true
  | .comparisonValueExpected _ => true
  | .operandExpected => true
  | .itemExpected _ => true
  | .itemSeparatorExpected _ => false
  | .pairExpected _ => true
  | .itemsExpected => true

namespace Parser

/-! ## What remains of the tokens -/

/-- Reading has stopped within the tokens, and it is known whether one follows. -/
def Stop.Within (setting : Setting) (tokens : List Token) : Stop → Prop
  | .before fault rest =>
      rest <:+ tokens ∧ fault.isOfTaken = false ∧ (rest = [] → setting.failure = none)
  | .after fault rest =>
      rest <:+ tokens ∧ (fault.isOfTaken = false → rest = [] ∧ setting.failure = none)
  | .other error => ∀ fault near, error ≠ .malformed fault near

/-- Reading leaves the end of the tokens, or it stops within them. -/
structure Leaves (setting : Setting) {Output : Type} (restOf : Output → List Token)
    (tokens : List Token) (outcome : Except Stop Output) : Prop where
  rest : ∀ output, outcome = .ok output → restOf output <:+ tokens
  stop : ∀ stop, outcome = .error stop → stop.Within setting tokens

variable
    {setting : Setting}

theorem Stop.Within.mono
    {stop : Stop}
    {rest tokens : List Token}
    (within : stop.Within setting rest)
    (isEnd : rest <:+ tokens) :
    stop.Within setting tokens := by
  cases stop with
  | before fault left => exact ⟨within.1.trans isEnd, within.2⟩
  | after fault left => exact ⟨within.1.trans isEnd, within.2⟩
  | other error => exact within

section Leaves

variable
    {Output Following : Type}
    {restOf : Output → List Token}
    {restAfter : Following → List Token}
    {rest tokens : List Token}

theorem leaves_ok
    {output : Output}
    (isEnd : restOf output <:+ tokens) :
    Leaves setting restOf tokens (.ok output) := by
  constructor
  · rintro _ ⟨⟩
    exact isEnd
  · rintro _ ⟨⟩

theorem leaves_error
    {stop : Stop}
    (within : stop.Within setting tokens) :
    Leaves setting restOf tokens (.error stop) := by
  constructor
  · rintro _ ⟨⟩
  · rintro _ ⟨⟩
    exact within

theorem leaves_ended
    {stop : Stop}
    (within : setting.failure = none → stop.Within setting tokens) :
    Leaves setting restOf tokens (setting.ended stop) := by
  rw [Setting.ended]
  split
  · exact leaves_error nofun
  · next unfailing => exact leaves_error (within unfailing)

theorem Leaves.mono
    {outcome : Except Stop Output}
    (leaves : Leaves setting restOf rest outcome)
    (isEnd : rest <:+ tokens) :
    Leaves setting restOf tokens outcome :=
  ⟨fun output isOutput => (leaves.rest output isOutput).trans isEnd,
    fun stop isStop => (leaves.stop stop isStop).mono isEnd⟩

/-- What follows reads the tokens that are left. -/
theorem Leaves.bind
    {first : Except Stop Output}
    {next : Output → Except Stop Following}
    (leaves : Leaves setting restOf tokens first)
    (following : ∀ output, Leaves setting restAfter (restOf output) (next output)) :
    Leaves setting restAfter tokens (first >>= next) := by
  cases outcome : first with
  | error stop => exact leaves_error (leaves.stop stop outcome)
  | ok output => exact (following output).mono (leaves.rest output outcome)

end Leaves

/-! ## Single tokens and values -/

theorem leaves_optional (setting : Setting) (wanted : Token) (tokens : List Token) :
    Leaves setting Prod.snd tokens (setting.optional wanted tokens) := by
  cases tokens with
  | nil =>
      rw [Setting.optional]
      split
      · exact leaves_error nofun
      · exact leaves_ok (List.suffix_refl _)
  | cons token rest =>
      rw [Setting.optional]
      split
      · exact leaves_ok (List.suffix_cons token rest)
      · exact leaves_ok (List.suffix_refl _)

theorem leaves_expect (setting : Setting) (mark : String) (tokens : List Token) :
    Leaves setting id tokens (setting.expect mark tokens) := by
  cases tokens with
  | nil => exact leaves_ended fun unfailing => ⟨List.suffix_refl _, rfl, fun _ => unfailing⟩
  | cons token rest =>
      rw [Setting.expect]
      split
      · exact leaves_ok (List.suffix_cons token rest)
      · exact leaves_error ⟨List.suffix_refl _, rfl, nofun⟩

/-- Reading a value takes no token. -/
theorem leaves_valueOf (setting : Setting) (path : String) (type : SemanticType) (text : String)
    (tokens : List Token) :
    Leaves setting (fun _ => tokens) tokens (valueOf path type text) := by
  rw [valueOf]
  split
  · exact leaves_ok (List.suffix_refl _)
  · exact leaves_error nofun

/-! ## Operands -/

theorem leaves_items (setting : Setting) (path : String) (type : SemanticType)
    (closing : String) (tokens : List Token) :
    Leaves setting Prod.snd tokens (setting.items path type closing tokens) := by
  cases tokens with
  | nil => exact leaves_ended fun unfailing => ⟨List.suffix_refl _, fun _ => ⟨rfl, unfailing⟩⟩
  | cons token rest =>
      rw [Setting.items]
      split
      · exact leaves_ok (List.suffix_cons token rest)
      · split
        · apply ((leaves_valueOf setting path type token.text rest).mono
            (List.suffix_cons token rest)).bind
          intro value
          cases rest with
          | nil =>
              exact leaves_ended fun unfailing => ⟨List.suffix_refl _, rfl, fun _ => unfailing⟩
          | cons separator rest =>
              simp only
              split
              · exact leaves_ok (List.suffix_cons separator rest)
              · split
                · apply ((leaves_items setting path type closing rest).mono
                    (List.suffix_cons separator rest)).bind
                  exact fun _ => leaves_ok (List.suffix_refl _)
                · exact leaves_error ⟨List.suffix_refl _, rfl, nofun⟩
        · exact leaves_error ⟨List.suffix_cons token rest, nofun⟩

theorem leaves_bounds (setting : Setting) (path : String) (type : SemanticType)
    (tokens : List Token) :
    Leaves setting Prod.snd tokens (setting.bounds path type tokens) := by
  apply (leaves_items setting path type "]" tokens).bind
  rintro ⟨values, rest⟩
  simp only
  split
  · split
    · exact leaves_ok (List.suffix_refl _)
    · exact leaves_error nofun
  · exact leaves_error ⟨List.suffix_refl _, nofun⟩

theorem leaves_alternatives (setting : Setting) (path : String) (type : SemanticType)
    (tokens : List Token) :
    Leaves setting Prod.snd tokens (setting.alternatives path type tokens) := by
  apply (leaves_items setting path type ")" tokens).bind
  rintro ⟨values, rest⟩
  simp only
  split
  · exact leaves_error ⟨List.suffix_refl _, nofun⟩
  · split
    · exact leaves_error nofun
    · exact leaves_ok (List.suffix_refl _)

theorem leaves_compared (setting : Setting) (path : String) (type : SemanticType)
    (operator : Operator) (tokens : List Token) :
    Leaves setting Prod.snd tokens (setting.compared path type operator tokens) := by
  cases tokens with
  | nil => exact leaves_ended fun unfailing => ⟨List.suffix_refl _, nofun⟩
  | cons token rest =>
      have behind := List.suffix_cons token rest
      rw [Setting.compared]
      split
      · apply ((leaves_valueOf setting path type token.text rest).mono behind).bind
        exact fun _ => leaves_ok (List.suffix_refl _)
      · split
        · exact leaves_ok behind
        · exact leaves_error ⟨behind, nofun⟩

theorem leaves_operand (setting : Setting) (path : String) (type : SemanticType)
    (tokens : List Token) :
    Leaves setting Prod.snd tokens (setting.operand path type tokens) := by
  cases tokens with
  | nil => exact leaves_ended fun unfailing => ⟨List.suffix_refl _, fun _ => ⟨rfl, unfailing⟩⟩
  | cons token rest =>
      have behind := List.suffix_cons token rest
      have unexpected : Leaves setting Prod.snd (token :: rest)
          (.error (.after .operandExpected rest) :
            Except Stop ((Operator × Value) × List Token)) :=
        leaves_error ⟨behind, nofun⟩
      rw [Setting.operand]
      split
      · apply ((leaves_valueOf setting path type token.text rest).mono behind).bind
        exact fun _ => leaves_ok (List.suffix_refl _)
      · exact leaves_ok behind
      · split
        · exact leaves_error ⟨behind, nofun⟩
        · exact (leaves_compared setting path type _ rest).mono behind
      · split
        · exact ((leaves_expect setting "[" rest).mono behind).bind
            fun rest => leaves_bounds setting path type rest
        · split
          · exact ((leaves_expect setting "(" rest).mono behind).bind
              fun rest => leaves_alternatives setting path type rest
          · exact unexpected
      · split
        · exact (leaves_bounds setting path type rest).mono behind
        · exact unexpected
      · exact unexpected

/-! ## Statements and groups -/

theorem leaves_search (setting : Setting) (path : String) (tokens : List Token) :
    Leaves setting Prod.snd tokens (setting.search path tokens) := by
  rw [Setting.search]
  split
  · exact leaves_error nofun
  · next resolved _ =>
      apply (leaves_optional setting Token.arrow tokens).bind
      rintro ⟨_, rest⟩
      apply (leaves_optional setting (Token.keyword "NOT") rest).bind
      rintro ⟨negated, rest⟩
      apply (leaves_operand setting path resolved.attr.searchType rest).bind
      exact fun _ => leaves_ok (List.suffix_refl _)

theorem leaves_statement
    {group : Combinator → List Token → Except Stop (Node × List Token)}
    (leavesGroup : ∀ combinator rest, Leaves setting Prod.snd rest (group combinator rest))
    (tokens : List Token) :
    Leaves setting Prod.snd tokens (setting.statement group tokens) := by
  cases tokens with
  | nil => exact leaves_ended fun unfailing => ⟨List.suffix_refl _, fun _ => ⟨rfl, unfailing⟩⟩
  | cons token rest =>
      have behind := List.suffix_cons token rest
      rw [Setting.statement]
      split
      · exact (leaves_search setting token.text rest).mono behind
      · split
        · exact (leavesGroup _ rest).mono behind
        · exact leaves_error ⟨behind, nofun⟩
      · exact leaves_error ⟨behind, nofun⟩

/-- Looking for an end takes no token. -/
theorem leaves_closes (setting : Setting) (tokens : List Token) :
    Leaves setting (fun _ => tokens) tokens (setting.closes tokens) := by
  have leaves := leaves_optional setting (Token.mark ")") tokens
  rw [Setting.closes]
  cases outcome : setting.optional (Token.mark ")") tokens with
  | error stop => exact leaves_error (leaves.stop stop outcome)
  | ok output => exact leaves_ok (List.suffix_refl _)

theorem leaves_isOver (setting : Setting) (tokens : List Token) :
    Leaves setting (fun _ => tokens) tokens (setting.isOver tokens) := by
  cases tokens with
  | nil =>
      rw [Setting.isOver]
      split
      · exact leaves_error nofun
      · exact leaves_ok (List.suffix_refl _)
  | cons token rest => exact leaves_ok (List.suffix_refl _)

theorem leaves_statements
    {statement : List Token → Except Stop (Node × List Token)}
    {isEnd : List Token → Except Stop Bool}
    (leavesStatement : ∀ tokens, Leaves setting Prod.snd tokens (statement tokens))
    (leavesEnd : ∀ tokens, Leaves setting (fun _ => tokens) tokens (isEnd tokens))
    (limit : Nat)
    (tokens : List Token) :
    Leaves setting Prod.snd tokens (setting.statements statement isEnd limit tokens) := by
  induction limit generalizing tokens with
  | zero => exact leaves_ok (List.suffix_refl _)
  | succ limit inductionHypothesis =>
      rw [Setting.statements]
      apply (leavesEnd tokens).bind
      intro ends
      split
      · exact leaves_ok (List.suffix_refl _)
      · apply (leavesStatement tokens).bind
        rintro ⟨node, rest⟩
        apply (leaves_optional setting Token.comma rest).bind
        rintro ⟨continues, rest⟩
        simp only
        split
        · exact (inductionHypothesis rest).bind fun _ => leaves_ok (List.suffix_refl _)
        · exact leaves_ok (List.suffix_refl _)

theorem leaves_group (setting : Setting) (levels : Nat) (combinator : Combinator)
    (tokens : List Token) :
    Leaves setting Prod.snd tokens (setting.group levels combinator tokens) := by
  induction levels generalizing combinator tokens with
  | zero =>
      rw [Setting.group]
      exact (leaves_expect setting "(" tokens).bind
        fun _ => leaves_error ⟨List.suffix_refl _, nofun⟩
  | succ levels inductionHypothesis =>
      rw [Setting.group]
      apply (leaves_expect setting "(" tokens).bind
      intro rest
      apply (leaves_statements (leaves_statement inductionHypothesis) (leaves_closes setting)
        (rest.length + 1) rest).bind
      rintro ⟨members, rest⟩
      apply (leaves_expect setting ")" rest).bind
      intro rest
      split
      · exact leaves_error ⟨List.suffix_refl _, nofun⟩
      · exact leaves_ok (List.suffix_refl _)

/-- Reading a whole search stops within its tokens, if it does not read all of them. -/
theorem leaves_whole (setting : Setting) (tokens : List Token) :
    Leaves setting (fun _ => []) tokens (setting.whole tokens) := by
  rw [Setting.whole]
  apply (leaves_statements (leaves_statement (leaves_group setting maxDepth))
    (leaves_isOver setting) (tokens.length + 1) tokens).bind
  rintro ⟨nodes, rest⟩
  cases rest with
  | nil => exact leaves_ok (List.nil_suffix)
  | cons next rest => exact leaves_error ⟨List.suffix_refl _, rfl, nofun⟩

/-! ## What is quoted -/

/-- The tokens taken last, and the text behind them. -/
def quotation (taken : List Token) (following : String) : String :=
  String.intercalate " "
    ((taken.drop (taken.length - quotedTokens)).map Token.shown ++ [following])

theorem nearText_append (taken rest : List Token) (following : String) :
    nearText (taken ++ rest) rest following = quotation taken following := by
  simp [nearText, quotation]

/-- The text says that the tokens have come to their end. -/
def ClaimsEnd (near : String) : Prop :=
  endMark.toList <:+ near.toList

/-- What stands in front of the last text is set off from it by a blank. -/
theorem claimsEnd_quotation_iff
    {taken : List Token}
    {following : String} :
    ClaimsEnd (quotation taken following) ↔ ClaimsEnd following := by
  rw [quotation]
  generalize (taken.drop (taken.length - quotedTokens)).map Token.shown = quoted
  cases isQuoted : quoted with
  | nil => rfl
  | cons first others =>
      rw [String.intercalate_append_of_ne_nil (List.cons_ne_nil _ _) (List.cons_ne_nil _ _)]
      generalize String.intercalate " " (first :: others) = front
      have split : (front ++ " " ++ String.intercalate " " [following]).toList =
          front.toList ++ ' ' :: following.toList := by
        simp
      rw [ClaimsEnd, ClaimsEnd, split]
      constructor
      · intro isEnd
        have blank : ' ' :: following.toList <:+ front.toList ++ ' ' :: following.toList :=
          List.suffix_append _ _
        rcases List.suffix_or_suffix_of_suffix isEnd blank with within | covers
        · rcases List.suffix_cons_iff.mp within with same | isEnd
          · simp [endMark] at same
          · exact isEnd
        · have inMark := covers.subset List.mem_cons_self
          simp [endMark] at inMark
      · intro isEnd
        exact (isEnd.trans (List.suffix_cons _ _)).trans (List.suffix_append _ _)

end Parser

open ClassStore.Search.Parser

/-! ## Tokens of a text -/

theorem not_mem_text_ofWord
    {character : Char}
    {word : String}
    (absent : character ∉ word.toList)
    (unknown : character ∉ undefinedWord.toList) :
    character ∉ (Token.ofWord word).text.toList := by
  rw [Token.ofWord]
  split
  · exact unknown
  · exact absent

/-- A token of a text is a value, or it is spelt without angle bracket. -/
theorem Scanner.value_or_unbracketed_of_lexeme?
    {characters : List Char}
    {token : Token}
    {length : Nat}
    (read : lexeme? characters = some (token, length)) :
    token.kind = .value ∨ '<' ∉ token.text.toList := by
  cases characters with
  | nil => cases read
  | cons first following =>
      simp only [lexeme?] at read
      split at read
      · cases read
        exact .inl rfl
      · split at read
        · next letter =>
            cases read
            right
            apply not_mem_text_ofWord
            · rw [String.toList_ofList]
              rintro (_ | ⟨_, inWord⟩)
              · exact absurd letter (by decide)
              · exact absurd (List.mem_takeWhile_imp inWord) (by decide)
            · decide
        · split at read
          · cases read
            exact .inr (by decide)
          · split at read
            · next isMark =>
                cases read
                right
                intro inMark
                rw [Token.mark, String.toList_singleton, List.mem_singleton] at inMark
                rw [← inMark] at isMark
                exact absurd isMark (by decide)
            · cases read

theorem Scanner.value_or_unbracketed_of_next
    {scanner following : Scanner}
    {token : Token}
    (delivered : next scanner = (.ok (some token), following)) :
    token.kind = .value ∨ '<' ∉ token.text.toList := by
  cases next_eq_iff_step.mp delivered with
  | literal shape isQuote read => exact .inl rfl
  | lexeme shape unquoted read => exact value_or_unbracketed_of_lexeme? read

/-- No token of a text is shown like an end: a value is shown with a quote behind it. -/
theorem not_claimsEnd_shown
    {text : String}
    {token : Token}
    (isToken : token ∈ (TokenStream.ofText text).tokens) :
    ¬ ClaimsEnd token.shown := by
  have spelt := TokenStream.forall_mem_unfold
    (fun _ _ _ => Scanner.value_or_unbracketed_of_next) _ _ token isToken
  intro isEnd
  rw [ClaimsEnd, Token.shown] at isEnd
  split at isEnd
  · rcases isEnd with ⟨front, same⟩
    have lastCharacter := congrArg List.getLast? same
    simp [endMark, List.getLast?_cons] at lastCharacter
  · next noValue =>
      apply spelt.resolve_left noValue
      exact isEnd.subset (by decide)

/--
What the error quotes for a fault of grammar in a text.

The tokens taken last, up to four of them, stand in front.  A fault that is found by
looking at the next token has this token behind them, or the mark of the end where there
is none and the text could be read up to there.  A fault that is found in a token that has
been taken has the mark of the end behind them, whether tokens follow or not.
-/
theorem near_of_parseText
    {catalog : Catalog}
    {key text near : String}
    {fault : SyntaxFault}
    (fails : parseText catalog key text = .error (.malformed fault near)) :
    ∃ taken rest,
      (TokenStream.ofText text).tokens = taken ++ rest ∧
      (fault.isOfTaken = true → near = quotation taken endMark) ∧
      (fault.isOfTaken = false → rest = [] →
        near = quotation taken endMark ∧ (TokenStream.ofText text).failure = none) ∧
      (fault.isOfTaken = false → ∀ next others, rest = next :: others →
        near = quotation taken next.shown ∧ ¬ ClaimsEnd near) := by
  rw [parseText, parse] at fails
  split at fails
  · cases fails
  · split at fails
    · cases fails
    · next stop stopped =>
        have within := (leaves_whole _ _).stop stop stopped
        cases stop with
        | other error =>
            injection fails with isFault
            exact absurd isFault (within fault near)
        | before found rest =>
            injection fails with isFault
            injection isFault with sameFault isNear
            rw [sameFault] at within
            rcases within with ⟨⟨taken, split⟩, looking, unfailing⟩
            rw [← split, nearText_append] at isNear
            refine ⟨taken, rest, split.symm, ?_, ?_, ?_⟩
            · intro ofTaken
              rw [looking] at ofTaken
              cases ofTaken
            · rintro _ rfl
              exact ⟨isNear.symm, unfailing rfl⟩
            · rintro _ next others rfl
              have isToken : next ∈ (TokenStream.ofText text).tokens := by
                rw [← split]
                exact List.mem_append_right _ List.mem_cons_self
              have quoted : near = quotation taken next.shown := isNear.symm
              refine ⟨quoted, ?_⟩
              rw [quoted, claimsEnd_quotation_iff]
              exact not_claimsEnd_shown isToken
        | after found rest =>
            injection fails with isFault
            injection isFault with sameFault isNear
            rw [sameFault] at within
            rcases within with ⟨⟨taken, split⟩, ended⟩
            rw [← split, nearText_append] at isNear
            refine ⟨taken, rest, split.symm, fun _ => isNear.symm, ?_, ?_⟩
            · intro looking _
              exact ⟨isNear.symm, (ended looking).2⟩
            · rintro looking next others rfl
              cases (ended looking).1

/-- The fault of grammar for which a text is refused, and what the error quotes. -/
def refusal? (catalog : Catalog) (key text : String) : Option (SyntaxFault × String) :=
  match parseText catalog key text with
  | .error (.malformed fault near) => some (fault, near)
  | _ => none

theorem parseText_of_refusal?
    {catalog : Catalog}
    {key text near : String}
    {fault : SyntaxFault}
    (refused : refusal? catalog key text = some (fault, near)) :
    parseText catalog key text = .error (.malformed fault near) := by
  rw [refusal?] at refused
  split at refused
  · next fails =>
      cases refused
      exact fails
  · cases refused

/-- Two searches of persons that are not set off from each other. -/
def unseparatedSearches : String :=
  "name => 'x' name => 'y'"

/-- What stands where a comma is wanted has been looked at, and it is quoted. -/
theorem unseparated_searches_quoted :
    ∃ catalog taken next others,
      Catalog.build library = .ok catalog ∧
      parseText catalog "person" unseparatedSearches =
        .error (.malformed .separatorExpected "name => 'x' name") ∧
      (TokenStream.ofText unseparatedSearches).tokens = taken ++ next :: others ∧
      "name => 'x' name" = quotation taken next.shown := by
  have checked : ((Catalog.build library).toOption.any fun catalog =>
      refusal? catalog "person" unseparatedSearches ==
        some (.separatorExpected, "name => 'x' name")) = true := by
    decide +kernel
  simp only [Option.any_eq_true, toOption_eq_some_iff, beq_iff_eq] at checked
  rcases checked with ⟨catalog, built, refused⟩
  have fails := parseText_of_refusal? refused
  rcases near_of_parseText fails with ⟨taken, rest, split, _, ended, looking⟩
  cases rest with
  | nil =>
      have claims : ClaimsEnd "name => 'x' name" := by
        rw [(ended rfl rfl).1, claimsEnd_quotation_iff]
        exact List.suffix_refl _
      exact absurd claims (by unfold ClaimsEnd; decide)
  | cons next others =>
      exact ⟨catalog, taken, next, others, built, fails, split, (looking rfl next others rfl).1⟩

/-- A word stands where an operand is wanted, and another search follows. -/
def misplacedWord : String :=
  "name => AND, name 'x'"

/-- The error for the misplaced word says that the text ends there, though tokens follow. -/
theorem exists_end_quoted_within_text :
    ∃ catalog,
      Catalog.build library = .ok catalog ∧
      parseText catalog "person" misplacedWord =
        .error (.malformed .operandExpected "name => AND <end>") ∧
      ClaimsEnd "name => AND <end>" ∧
      (TokenStream.ofText misplacedWord).tokens.map Token.shown =
        ["name", "=>", "AND", ",", "name", "'x'"] := by
  have checked : ((Catalog.build library).toOption.any fun catalog =>
      refusal? catalog "person" misplacedWord ==
        some (.operandExpected, "name => AND <end>")) = true := by
    decide +kernel
  simp only [Option.any_eq_true, toOption_eq_some_iff, beq_iff_eq] at checked
  rcases checked with ⟨catalog, built, refused⟩
  exact ⟨catalog, built, parseText_of_refusal? refused, by unfold ClaimsEnd; decide,
    by decide +kernel⟩

end ClassStore.Search
