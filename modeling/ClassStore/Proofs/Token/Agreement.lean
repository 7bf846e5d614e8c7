import ClassStore.Proofs.Token.WrittenForm
import ClassStore.Query.Compile

/-!
# Agreement of text and terms

A search may arrive as terms or as the text that the terms are written as.
`lexers_agree` says that both sources deliver the tokens that
`Term.listTokens` writes down, so that both searches have the same result, and
that terms with an unsearchable path are refused at the first such path.
-/

namespace ClassStore.Search

open TokenStream

namespace Scanner

/-- A text holds the tokens of a run of the scanner, and how it ends behind them. -/
theorem ofText_of_run
    {text : String}
    {tokens : List Token}
    {failure : Option LexError}
    {final : Scanner}
    (run : Run next (start text) tokens final)
    (ends : (next final).1 = ending failure) :
    TokenStream.ofText text = ⟨tokens, failure⟩ := by
  have bound := run.length_le (fun scanner => scanner.rest.length)
    fun _ _ _ delivered => length_rest_next delivered
  exact unfold_of_run run ends (by omega)

/-- A text that spells tokens is read as exactly these tokens. -/
theorem ofText_of_spells
    {text : String}
    {tokens : List Token}
    (spells : Spells text.toList tokens) :
    TokenStream.ofText text = ⟨tokens, none⟩ := by
  obtain ⟨after, run⟩ := spells [] 0 Bounded.nil
  rw [List.append_nil] at run
  exact ofText_of_run run rfl

end Scanner

theorem searchText_eq_searchTerms
    {text : String}
    {terms : List Term}
    (same : TokenStream.ofText text = TokenStream.ofTerms terms)
    (backend : Backend)
    (catalog : Catalog)
    (key : String)
    (constraints : Query.Constraints) :
    Query.searchText backend catalog key text constraints =
      Query.searchTerms backend catalog key terms constraints := by
  simp only [Query.searchText, Query.searchTerms, parseText, parseTerms, same]

/--
Terms and their written form are the same search.

Where every path can be searched, both sources deliver the tokens of the terms
without failing, whatever number of requests beyond that is allowed for, and
both searches give the same result.  Otherwise the walk delivers a beginning of
these tokens and fails at the first path that cannot be searched, counting the
searches in front of it.
-/
theorem lexers_agree (terms : List Term) :
    ((∀ path ∈ Term.listPaths terms, isSearchablePath path = true) →
      (TokenStream.ofText (Term.listText terms)).complete = .ok (Term.listTokens terms) ∧
      (TokenStream.ofTerms terms).complete = .ok (Term.listTokens terms) ∧
      (∀ bound, (Term.listTokens terms).length < bound →
        (Walker.start terms).stream bound = ⟨Term.listTokens terms, none⟩) ∧
      ∀ backend catalog key constraints,
        Query.searchText backend catalog key (Term.listText terms) constraints =
          Query.searchTerms backend catalog key terms constraints) ∧
    (∀ before path after,
      Term.listPaths terms = before ++ path :: after →
      (∀ earlier ∈ before, isSearchablePath earlier = true) →
      isSearchablePath path = false →
      (TokenStream.ofTerms terms).complete =
        .error (.unexpectedInput path before.length) ∧
      (TokenStream.ofTerms terms).tokens <+: Term.listTokens terms) := by
  constructor
  · intro searchable
    have fromText : TokenStream.ofText (Term.listText terms) = ⟨Term.listTokens terms, none⟩ :=
      Scanner.ofText_of_spells (Scanner.spells_listText searchable)
    have fromTerms : TokenStream.ofTerms terms = ⟨Term.listTokens terms, none⟩ :=
      Walker.stream_start searchable (Nat.lt_succ_self _)
    refine ⟨?_, ?_, ?_, ?_⟩
    · rw [fromText, complete]
    · rw [fromTerms, complete]
    · intro bound enough
      exact Walker.stream_start searchable enough
    · exact searchText_eq_searchTerms (fromText.trans fromTerms.symm)
  · intro before path after split searchable unsearchable
    obtain ⟨delivered, beginning, failed⟩ :=
      Walker.stream_start_of_unsearchable ⟨⟨after, split⟩, searchable, unsearchable⟩
        (Nat.lt_succ_self _)
    have stream : TokenStream.ofTerms terms =
        ⟨delivered, some (.unexpectedInput path before.length)⟩ := failed
    rw [stream]
    exact ⟨rfl, beginning⟩

/-- A quoted value within nested groups is read back, and a path with a blank is refused. -/
theorem lexers_agree_on_quoted_and_refused :
    (TokenStream.ofText "name => LIKE 'it\\'s', OR(age => -21, AND())").complete =
        .ok (Term.listTokens
          [.search "name" (.compare .like (.string "it's")),
            .group .any [.search "age" (.scalar (.integer (-21))), .group .all []]]) ∧
      (TokenStream.ofTerms
          [.search "ok" .undefined, .group .any [.search "not ok" .undefined]]).complete =
        .error (.unexpectedInput "not ok" 1) := by
  have written : Term.listText
      [.search "name" (.compare .like (.string "it's")),
        .group .any [.search "age" (.scalar (.integer (-21))), .group .all []]] =
      "name => LIKE 'it\\'s', OR(age => -21, AND())" := by
    decide +kernel
  constructor
  · rw [← written]
    exact ((lexers_agree _).1 (by decide)).1
  · exact ((lexers_agree _).2 ["ok"] "not ok" [] rfl (by decide) rfl).1

end ClassStore.Search
