import ClassStore.Search.Token

/-!
# Runs of a token source

A source is asked for tokens one at a time.  `TokenStream.Run` says which tokens
it delivers between two of its states, without a bound on the number of
requests.  `unfold_of_run` and `exists_run_of_unfold` say that a stream with
enough requests holds exactly the tokens of a run up to the end of the source,
or up to its failure.
-/

namespace ClassStore.Search.TokenStream

variable {Source : Type}
variable {next : Source → Except LexError (Option Token) × Source}

/-- The source delivers the tokens one after the other and is then in the last state. -/
inductive Run (next : Source → Except LexError (Option Token) × Source) :
    Source → List Token → Source → Prop where
  | stop (source : Source) : Run next source [] source
  | step {source following final : Source} {token : Token} {tokens : List Token}
      (delivered : next source = (.ok (some token), following))
      (run : Run next following tokens final) :
      Run next source (token :: tokens) final

/-- A run can be continued where another one begins. -/
theorem Run.append
    {first middle final : Source}
    {front back : List Token}
    (frontRun : Run next first front middle)
    (backRun : Run next middle back final) :
    Run next first (front ++ back) final := by
  induction frontRun with
  | stop => exact backRun
  | step delivered _ inductionHypothesis =>
      exact .step delivered (inductionHypothesis backRun)

/-- States that answer the next request alike have the same runs, but for the empty one. -/
theorem Run.of_next_eq
    {left right final : Source}
    {tokens : List Token}
    (same : next left = next right)
    (nonempty : tokens ≠ [])
    (run : Run next right tokens final) :
    Run next left tokens final := by
  cases run with
  | stop => exact absurd rfl nonempty
  | step delivered rest => exact .step (same.trans delivered) rest

/-- A measure that every delivered token lowers bounds the length of a run. -/
theorem Run.length_le
    (measure : Source → Nat)
    (lowers : ∀ source token following,
      next source = (.ok (some token), following) → measure following < measure source)
    {first final : Source}
    {tokens : List Token}
    (run : Run next first tokens final) :
    tokens.length + measure final ≤ measure first := by
  induction run with
  | stop => simp
  | step delivered _ inductionHypothesis =>
      have lower := lowers _ _ _ delivered
      simp only [List.length_cons]
      omega

/-- How a source answers that has no further token: it has come to its end, or it fails. -/
def ending : Option LexError → Except LexError (Option Token)
  | none => .ok none
  | some failure => .error failure

/-- A run can be continued where another state answers alike, at least up to the next answer. -/
theorem Run.exists_append_of_next_eq
    {first middle other final : Source}
    {front back : List Token}
    (frontRun : Run next first front middle)
    (same : next middle = next other)
    (backRun : Run next other back final) :
    ∃ last, Run next first (front ++ back) last ∧ next last = next final := by
  cases back with
  | nil =>
      cases backRun
      refine ⟨middle, ?_, same⟩
      rwa [List.append_nil]
  | cons token tokens =>
      have continued := backRun.of_next_eq same (List.cons_ne_nil token tokens)
      exact ⟨final, frontRun.append continued, rfl⟩

/-- A stream with enough requests holds the tokens of a run, and how the source ends behind it. -/
theorem unfold_of_run
    {first final : Source}
    {tokens : List Token}
    {failure : Option LexError}
    (run : Run next first tokens final)
    (ends : (next final).1 = ending failure)
    {requests : Nat}
    (enough : tokens.length < requests) :
    unfold next requests first = ⟨tokens, failure⟩ := by
  induction run generalizing requests with
  | stop source =>
      obtain ⟨requests, rfl⟩ := Nat.exists_eq_succ_of_ne_zero (Nat.ne_of_gt enough)
      rcases answer : next source with ⟨outcome, following⟩
      rw [answer] at ends
      cases failure <;> simp only [ending] at ends <;> simp [unfold, answer, ends]
  | step delivered _ inductionHypothesis =>
      obtain ⟨requests, rfl⟩ := Nat.exists_eq_succ_of_ne_zero (Nat.ne_zero_of_lt enough)
      have rest := inductionHypothesis ends (Nat.lt_of_succ_lt_succ enough)
      simp [unfold, delivered, rest, push]

/-- The tokens of a stream with enough requests are those of a run up to where the source ends. -/
theorem exists_run_of_unfold
    (measure : Source → Nat)
    (lowers : ∀ source token following,
      next source = (.ok (some token), following) → measure following < measure source)
    {first : Source}
    {tokens : List Token}
    {failure : Option LexError}
    {requests : Nat}
    (enough : measure first < requests)
    (unfolded : unfold next requests first = ⟨tokens, failure⟩) :
    ∃ final, Run next first tokens final ∧ (next final).1 = ending failure := by
  induction requests generalizing first tokens with
  | zero => cases enough
  | succ requests inductionHypothesis =>
      rw [unfold] at unfolded
      split at unfolded
      · next source atEnd =>
          cases unfolded
          exact ⟨first, .stop first, by rw [atEnd, ending]⟩
      · next source failed =>
          cases unfolded
          exact ⟨first, .stop first, by rw [failed, ending]⟩
      · next token following delivered =>
          cases rest : unfold next requests following with
          | mk others otherFailure =>
              rw [rest] at unfolded
              cases unfolded
              have lower := lowers first token following delivered
              rcases inductionHypothesis (by omega) rest with ⟨final, run, ends⟩
              exact ⟨final, .step delivered run, ends⟩

/-- A stream is complete with the given tokens if it holds them and has not failed. -/
theorem complete_eq_ok_iff
    {stream : TokenStream}
    {tokens : List Token} :
    stream.complete = .ok tokens ↔ stream = ⟨tokens, none⟩ := by
  rcases stream with ⟨others, _ | failure⟩ <;> simp [complete]

theorem complete_eq_error_iff
    {stream : TokenStream}
    {failure : LexError} :
    stream.complete = .error failure ↔ ∃ tokens, stream = ⟨tokens, some failure⟩ := by
  rcases stream with ⟨others, _ | other⟩ <;> simp [complete]

end ClassStore.Search.TokenStream
