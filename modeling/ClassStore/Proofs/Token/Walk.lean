import ClassStore.Proofs.Token.Run
import ClassStore.Search.Token.Walker

/-!
# The walk over terms

The walker keeps a stack of levels and some pending tokens; `Term.listTokens`
writes the tokens down by recursion.  `Walker.run_terms` says that from any
stack the walker delivers exactly the recursive tokens of the innermost level,
if every path can be searched.  Otherwise `Walker.run_until_unsearchable` says
that it stops in front of the first path that cannot, with a beginning of these
tokens delivered.
-/

namespace ClassStore.Search

mutual

/-- The paths that a term names, in the order in which they are written. -/
def Term.paths : Term → List String
  | .search path _ => [path]
  | .group _ members => Term.listPaths members

/-- The paths that terms name, in the order in which they are written. -/
def Term.listPaths : List Term → List String
  | [] => []
  | term :: terms => term.paths ++ Term.listPaths terms

end

namespace Walker

open TokenStream

/-- The comma in front of a term that is not the first of its level. -/
def separator (started : Bool) : List Token :=
  if started then [Token.comma] else []

/-- The tokens of the terms still to be visited at a level. -/
def remaining (started : Bool) (terms : List Term) : List Token :=
  if terms.isEmpty then [] else separator started ++ Term.listTokens terms

@[simp]
theorem remaining_nil (started : Bool) : remaining started [] = [] :=
  rfl

theorem remaining_cons (started : Bool) (term : Term) (terms : List Term) :
    remaining started (term :: terms) =
      separator started ++ term.tokens ++ remaining true terms := by
  cases terms with
  | nil => simp [remaining, Term.listTokens]
  | cons following terms => simp [remaining, separator, Term.listTokens]

theorem remaining_false (terms : List Term) :
    remaining false terms = Term.listTokens terms := by
  cases terms <;> simp [remaining, separator, Term.listTokens]

theorem run_pending (levels : List Level) (searches : Nat) (pending : List Token) :
    Run next ⟨levels, pending, searches⟩ pending ⟨levels, [], searches⟩ := by
  induction pending with
  | nil => exact .stop _
  | cons token pending inductionHypothesis => exact .step rfl inductionHypothesis

theorem run_deliver
    {walker : Walker}
    {levels : List Level}
    {searches : Nat}
    {tokens : List Token}
    (nonempty : tokens ≠ [])
    (delivers : next walker = deliver ⟨levels, [], searches⟩ tokens) :
    Run next walker tokens ⟨levels, [], searches⟩ := by
  cases tokens with
  | nil => exact absurd rfl nonempty
  | cons token pending => exact .step delivers (run_pending levels searches pending)

/-- A search with a path that can be searched is delivered as a whole. -/
theorem run_search
    (path : String)
    (operand : Operand)
    (searchable : isSearchablePath path = true)
    (terms : List Term)
    (started isGroup : Bool)
    (outer : List Level)
    (searches : Nat) :
    Run next ⟨⟨.search path operand :: terms, started, isGroup⟩ :: outer, [], searches⟩
      (separator started ++ (Term.search path operand).tokens)
      ⟨⟨terms, true, isGroup⟩ :: outer, [], searches + 1⟩ := by
  apply run_deliver
  · simp [Term.tokens, pathTokens]
  · simp [next, visit, searchable, separator, Term.tokens]

/-- A group is opened by its word and bracket, and its members become the innermost level. -/
theorem run_group_opening
    (combinator : Combinator)
    (members terms : List Term)
    (started isGroup : Bool)
    (outer : List Level)
    (searches : Nat) :
    Run next ⟨⟨.group combinator members :: terms, started, isGroup⟩ :: outer, [], searches⟩
      (separator started ++ groupTokens combinator)
      ⟨⟨members, false, true⟩ :: ⟨terms, true, isGroup⟩ :: outer, [], searches⟩ := by
  apply run_deliver
  · simp [groupTokens]
  · rfl

theorem run_group_closing (started : Bool) (outer : List Level) (searches : Nat) :
    Run next ⟨⟨[], started, true⟩ :: outer, [], searches⟩ [Token.mark ")"]
      ⟨outer, [], searches⟩ :=
  .step rfl (.stop _)

mutual

/-- A term with searchable paths is delivered with the comma in front of it. -/
theorem run_term
    (term : Term)
    (searchable : ∀ path ∈ term.paths, isSearchablePath path = true)
    (terms : List Term)
    (started isGroup : Bool)
    (outer : List Level)
    (searches : Nat) :
    Run next ⟨⟨term :: terms, started, isGroup⟩ :: outer, [], searches⟩
      (separator started ++ term.tokens)
      ⟨⟨terms, true, isGroup⟩ :: outer, [], searches + term.paths.length⟩ := by
  cases term with
  | search path operand =>
      have pathSearchable : isSearchablePath path = true :=
        searchable path (by simp [Term.paths])
      exact run_search path operand pathSearchable terms started isGroup outer searches
  | group combinator members =>
      have opened := run_group_opening combinator members terms started isGroup outer searches
      obtain ⟨finished, visited⟩ :=
        run_terms members searchable false true (⟨terms, true, isGroup⟩ :: outer) searches
      have closed := run_group_closing finished (⟨terms, true, isGroup⟩ :: outer)
        (searches + (Term.listPaths members).length)
      have whole := (opened.append visited).append closed
      simpa [Term.tokens, Term.paths, remaining_false] using whole

/-- Terms with searchable paths are delivered, and their level is used up. -/
theorem run_terms
    (terms : List Term)
    (searchable : ∀ path ∈ Term.listPaths terms, isSearchablePath path = true)
    (started isGroup : Bool)
    (outer : List Level)
    (searches : Nat) :
    ∃ finished, Run next ⟨⟨terms, started, isGroup⟩ :: outer, [], searches⟩
      (remaining started terms)
      ⟨⟨[], finished, isGroup⟩ :: outer, [], searches + (Term.listPaths terms).length⟩ := by
  cases terms with
  | nil => exact ⟨started, .stop _⟩
  | cons term terms =>
      have ofTerm : ∀ path ∈ term.paths, isSearchablePath path = true := by
        intro path member
        exact searchable path (List.mem_append_left _ member)
      have ofTerms : ∀ path ∈ Term.listPaths terms, isSearchablePath path = true := by
        intro path member
        exact searchable path (List.mem_append_right _ member)
      have first := run_term term ofTerm terms started isGroup outer searches
      obtain ⟨finished, rest⟩ :=
        run_terms terms ofTerms true isGroup outer (searches + term.paths.length)
      refine ⟨finished, ?_⟩
      rw [remaining_cons]
      simpa [Term.listPaths, Nat.add_assoc] using first.append rest

end

/--
The walker has stopped in front of a path that cannot be searched.

It has delivered some of the expected tokens, and its failure names the path
and the number of searches before it.
-/
def Fails (walker : Walker) (expected : List Token) (path : String) (searches : Nat) : Prop :=
  ∃ delivered final, Run next walker delivered final ∧
    (next final).1 = .error (.unexpectedInput path searches) ∧ delivered <+: expected

theorem Fails.after
    {walker middle : Walker}
    {front expected : List Token}
    {path : String}
    {searches : Nat}
    (run : Run next walker front middle)
    (fails : Fails middle expected path searches) :
    Fails walker (front ++ expected) path searches := by
  obtain ⟨delivered, final, backRun, failed, beginning⟩ := fails
  exact ⟨front ++ delivered, final, run.append backRun, failed,
    (List.prefix_append_right_inj front).mpr beginning⟩

theorem Fails.mono
    {walker : Walker}
    {expected more : List Token}
    {path : String}
    {searches : Nat}
    (fails : Fails walker expected path searches)
    (beginning : expected <+: more) :
    Fails walker more path searches := by
  obtain ⟨delivered, final, run, failed, within⟩ := fails
  exact ⟨delivered, final, run, failed, within.trans beginning⟩

/-- A list of paths whose first unsearchable one is given, with the ones before it. -/
structure FirstUnsearchable (paths before : List String) (path : String) : Prop where
  split : ∃ after, paths = before ++ path :: after
  searchable : ∀ earlier ∈ before, isSearchablePath earlier = true
  unsearchable : isSearchablePath path = false

/-- The first unsearchable path is in the front part, or that part is searchable. -/
theorem FirstUnsearchable.cases_append
    {front back before : List String}
    {path : String}
    (first : FirstUnsearchable (front ++ back) before path) :
    FirstUnsearchable front before path ∨
      (∀ earlier ∈ front, isSearchablePath earlier = true) ∧
        ∃ between, before = front ++ between ∧ FirstUnsearchable back between path := by
  obtain ⟨⟨after, split⟩, searchable, unsearchable⟩ := first
  rcases List.append_eq_append_iff.mp split with ⟨between, rfl, rest⟩ | ⟨between, rfl, rest⟩
  · refine Or.inr ⟨fun earlier member => ?_, between, rfl, ⟨after, rest⟩, ?_, unsearchable⟩
    · exact searchable earlier (List.mem_append_left _ member)
    · exact fun earlier member => searchable earlier (List.mem_append_right _ member)
  · cases between with
    | nil =>
        refine Or.inr ⟨by simpa using searchable, [], by simp, ⟨after, by simpa using rest.symm⟩,
          by simp, unsearchable⟩
    | cons head between =>
        simp only [List.cons_append, List.cons.injEq] at rest
        obtain ⟨rfl, -⟩ := rest
        exact Or.inl ⟨⟨between, rfl⟩, searchable, unsearchable⟩

mutual

/-- A term with an unsearchable path stops the walker in front of the first of them. -/
theorem fails_term
    (term : Term)
    {before : List String}
    {path : String}
    (first : FirstUnsearchable term.paths before path)
    (terms : List Term)
    (started isGroup : Bool)
    (outer : List Level)
    (searches : Nat) :
    Fails ⟨⟨term :: terms, started, isGroup⟩ :: outer, [], searches⟩
      (separator started ++ term.tokens) path (searches + before.length) := by
  cases term with
  | search own operand =>
      obtain ⟨⟨after, split⟩, -, unsearchable⟩ := first
      have alone : before = [] ∧ own = path := by
        cases before <;> simp_all [Term.paths]
      obtain ⟨rfl, rfl⟩ := alone
      refine ⟨[], _, .stop _, ?_, List.nil_prefix⟩
      simp [next, visit, unsearchable]
  | group combinator members =>
      have opened := run_group_opening combinator members terms started isGroup outer searches
      have inside := fails_terms members first false true (⟨terms, true, isGroup⟩ :: outer) searches
      apply (inside.after opened).mono
      rw [remaining_false]
      exact ⟨[Token.mark ")"], by simp [Term.tokens]⟩

/-- Terms with an unsearchable path stop the walker in front of the first of them. -/
theorem fails_terms
    (terms : List Term)
    {before : List String}
    {path : String}
    (first : FirstUnsearchable (Term.listPaths terms) before path)
    (started isGroup : Bool)
    (outer : List Level)
    (searches : Nat) :
    Fails ⟨⟨terms, started, isGroup⟩ :: outer, [], searches⟩
      (remaining started terms) path (searches + before.length) := by
  cases terms with
  | nil =>
      obtain ⟨⟨after, split⟩, -, -⟩ := first
      simp [Term.listPaths] at split
  | cons term terms =>
      rw [remaining_cons]
      rcases first.cases_append with inTerm | ⟨searchable, between, rfl, inTerms⟩
      · apply (fails_term term inTerm terms started isGroup outer searches).mono
        exact List.prefix_append _ _
      · have walked := run_term term searchable terms started isGroup outer searches
        have rest := fails_terms terms inTerms true isGroup outer (searches + term.paths.length)
        simpa [Nat.add_assoc] using rest.after walked

end

theorem stream_start
    {terms : List Term}
    (searchable : ∀ path ∈ Term.listPaths terms, isSearchablePath path = true)
    {bound : Nat}
    (enough : (Term.listTokens terms).length < bound) :
    (start terms).stream bound = ⟨Term.listTokens terms, none⟩ := by
  obtain ⟨finished, run⟩ := run_terms terms searchable false false [] 0
  rw [remaining_false] at run
  exact unfold_of_run run rfl enough

/-- The walk over terms with an unsearchable path delivers a beginning of their tokens and fails. -/
theorem stream_start_of_unsearchable
    {terms : List Term}
    {before : List String}
    {path : String}
    (first : FirstUnsearchable (Term.listPaths terms) before path)
    {bound : Nat}
    (enough : (Term.listTokens terms).length < bound) :
    ∃ delivered, delivered <+: Term.listTokens terms ∧
      (start terms).stream bound =
        ⟨delivered, some (.unexpectedInput path before.length)⟩ := by
  obtain ⟨delivered, final, run, failed, beginning⟩ :=
    fails_terms terms first false false [] 0
  rw [Nat.zero_add] at failed
  rw [remaining_false] at beginning
  have ends : (next final).1 = ending (some (.unexpectedInput path before.length)) := failed
  exact ⟨delivered, beginning,
    unfold_of_run run ends (Nat.lt_of_le_of_lt beginning.length_le enough)⟩

end Walker

end ClassStore.Search
