import ClassStore.Proofs.Token.Step
import ClassStore.Proofs.Token.Walk

/-!
# Tokens that a source delivers

A token is a kind and a text, and not every pair of them is a token of some text
or of some terms.  `Token.Terminal` lists the forms that are: the text of a
comparison is the word of a comparison, and there is one undefined value only.
-/

namespace ClassStore.Search

/-- Some text or some terms have the token among their tokens. -/
def Token.IsDelivered (token : Token) : Prop :=
  (∃ text, token ∈ (TokenStream.ofText text).tokens) ∨
    ∃ terms, token ∈ (TokenStream.ofTerms terms).tokens

/-- The forms of the tokens that a grammar is written with. -/
inductive Token.Terminal : Token → Prop where
  | identifier (path : String) : Terminal ⟨.identifier, path⟩
  | mark (text : String) : Terminal (Token.mark text)
  | comparison (comparison : Comparison) : Terminal ⟨.comparison, comparison.word⟩
  | keyword (word : String) : Terminal (Token.keyword word)
  | value (text : String) : Terminal ⟨.value, text⟩
  | undefined : Terminal Token.undefinedValue

open Token

/-! ## Tokens of a text -/

/-- What holds of every token that a source delivers holds of all tokens of its stream. -/
theorem TokenStream.forall_mem_unfold
    {Source : Type}
    {next : Source → Except LexError (Option Token) × Source}
    {Property : Token → Prop}
    (delivers : ∀ source token following,
      next source = (.ok (some token), following) → Property token)
    (requests : Nat)
    (source : Source) :
    ∀ token ∈ (unfold next requests source).tokens, Property token := by
  induction requests generalizing source with
  | zero => simp [unfold]
  | succ requests inductionHypothesis =>
      rw [unfold]
      split
      · simp
      · simp
      · next first following delivered =>
          intro token isToken
          rcases List.mem_cons.mp isToken with rfl | later
          · exact delivers source token following delivered
          · exact inductionHypothesis following token later

theorem terminal_ofWord (word : String) : Terminal (Token.ofWord word) := by
  rw [Token.ofWord, wordKind]
  by_cases isUndefined : undefinedWords.contains word = true
  · rw [if_pos isUndefined]
    exact .undefined
  · rw [if_neg isUndefined]
    by_cases isComparison : comparisonWords.contains word = true
    · rw [if_pos isComparison]
      have isWord : word ∈ comparisonWords := by simpa using isComparison
      rcases List.mem_map.mp isWord with ⟨comparison, _, rfl⟩
      exact .comparison comparison
    · rw [if_neg isComparison]
      by_cases isKeyword : keywords.contains word = true
      · rw [if_pos isKeyword]
        exact .keyword word
      · rw [if_neg isKeyword]
        exact .identifier word

theorem Scanner.terminal_of_lexeme?
    {characters : List Char}
    {token : Token}
    {length : Nat}
    (read : lexeme? characters = some (token, length)) :
    Terminal token := by
  cases characters with
  | nil => cases read
  | cons first following =>
      simp only [lexeme?] at read
      split at read
      · cases read
        exact .value _
      · split at read
        · cases read
          exact terminal_ofWord _
        · split at read
          · cases read
            exact .mark _
          · split at read
            · cases read
              exact .mark _
            · cases read

theorem Scanner.terminal_of_next
    {scanner following : Scanner}
    {token : Token}
    (delivered : next scanner = (.ok (some token), following)) :
    Terminal token := by
  cases next_eq_iff_step.mp delivered with
  | literal shape isQuote read => exact .value _
  | lexeme shape unquoted read => exact terminal_of_lexeme? read

/-! ## Tokens of terms -/

theorem terminal_itemTokens (values : List Scalar) :
    ∀ token ∈ itemTokens values, Terminal token := by
  induction values with
  | nil => simp [itemTokens]
  | cons value values inductionHypothesis =>
      cases values with
      | nil =>
          rw [itemTokens, List.forall_mem_singleton]
          exact .value value.text
      | cons next values =>
          rw [itemTokens, List.forall_mem_cons, List.forall_mem_cons]
          · exact ⟨.value value.text, .mark ",", inductionHypothesis⟩
          · simp

theorem terminal_listTokens (opening : String) (values : List Scalar) (closing : String) :
    ∀ token ∈ listTokens opening values closing, Terminal token := by
  rw [listTokens, List.cons_append, List.forall_mem_cons, List.forall_mem_append,
    List.forall_mem_singleton]
  exact ⟨.mark opening, terminal_itemTokens values, .mark closing⟩

theorem terminal_operand (operand : Operand) :
    ∀ token ∈ operand.tokens, Terminal token := by
  induction operand with
  | scalar value =>
      rw [Operand.tokens, List.forall_mem_singleton]
      exact .value value.text
  | undefined =>
      rw [Operand.tokens, List.forall_mem_singleton]
      exact .undefined
  | compare comparison value =>
      rw [Operand.tokens, List.forall_mem_cons, List.forall_mem_singleton]
      exact ⟨.comparison comparison, .value value.text⟩
  | between low high =>
      rw [Operand.tokens, List.forall_mem_cons]
      exact ⟨.keyword "BETWEEN", terminal_listTokens "[" [low, high] "]"⟩
  | list values => exact terminal_listTokens "[" values "]"
  | any values =>
      rw [Operand.tokens, List.forall_mem_cons]
      exact ⟨.keyword "ANY", terminal_listTokens "(" values ")"⟩
  | negation operand inductionHypothesis =>
      rw [Operand.tokens, List.forall_mem_cons]
      exact ⟨.keyword "NOT", inductionHypothesis⟩

mutual

theorem terminal_term (term : Term) :
    ∀ token ∈ term.tokens, Terminal token := by
  cases term with
  | search path operand =>
      rw [Term.tokens, pathTokens, List.forall_mem_append, List.forall_mem_cons,
        List.forall_mem_singleton]
      exact ⟨⟨.identifier path, .mark "=>"⟩, terminal_operand operand⟩
  | group combinator members =>
      rw [Term.tokens, groupTokens, List.forall_mem_append, List.forall_mem_append,
        List.forall_mem_cons, List.forall_mem_singleton, List.forall_mem_singleton]
      exact ⟨⟨⟨.keyword combinator.word, .mark "("⟩, terminal_terms members⟩, .mark ")"⟩

theorem terminal_terms (terms : List Term) :
    ∀ token ∈ Term.listTokens terms, Terminal token := by
  cases terms with
  | nil => simp [Term.listTokens]
  | cons term terms =>
      cases terms with
      | nil => exact terminal_term term
      | cons next terms =>
          rw [Term.listTokens, List.forall_mem_append, List.forall_mem_cons]
          exact ⟨terminal_term term, .mark ",", terminal_terms (next :: terms)⟩

end

/-- Of some paths all can be searched, or there is a first one that cannot. -/
theorem Walker.searchable_or_exists_firstUnsearchable (paths : List String) :
    (∀ path ∈ paths, isSearchablePath path = true) ∨
      ∃ before path, FirstUnsearchable paths before path := by
  induction paths with
  | nil => exact .inl (by simp)
  | cons first paths inductionHypothesis =>
      cases searchable : isSearchablePath first with
      | false => exact .inr ⟨[], first, ⟨paths, rfl⟩, by simp, searchable⟩
      | true =>
          rcases inductionHypothesis with all | ⟨before, path, ⟨after, rfl⟩, earlier, fails⟩
          · exact .inl (List.forall_mem_cons.mpr ⟨searchable, all⟩)
          · exact .inr ⟨first :: before, path, ⟨after, rfl⟩,
              List.forall_mem_cons.mpr ⟨searchable, earlier⟩, fails⟩

/-- What a source delivers has one of the forms of a token. -/
theorem Token.IsDelivered.terminal
    {token : Token}
    (isDelivered : token.IsDelivered) :
    Terminal token := by
  rcases isDelivered with ⟨text, isToken⟩ | ⟨terms, isToken⟩
  · exact TokenStream.forall_mem_unfold (fun _ _ _ => Scanner.terminal_of_next) _ _ token isToken
  · apply terminal_terms terms
    rcases Walker.searchable_or_exists_firstUnsearchable (Term.listPaths terms) with
      searchable | ⟨before, path, first⟩
    · have stream : TokenStream.ofTerms terms = ⟨Term.listTokens terms, none⟩ :=
        Walker.stream_start searchable (Nat.lt_succ_self _)
      rwa [stream] at isToken
    · rcases Walker.stream_start_of_unsearchable first (Nat.lt_succ_self _) with
        ⟨delivered, beginning, stream⟩
      rw [TokenStream.ofTerms, stream] at isToken
      exact beginning.subset isToken

end ClassStore.Search
