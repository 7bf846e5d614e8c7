import ClassStore.Search.Token.Scanner

/-!
# Steps of the scanner

The scanner passes over blanks and then answers by what it finds: the end, a string
that is closed or left open, a lexeme, or a character that begins none.  `Step` has
one constructor for each of these answers, and `next_eq_iff_step` says that the
scanner takes exactly these steps.  What holds of every request is shown by cases on
the step, without a look at the scanner itself.
-/

namespace ClassStore.Search.Scanner

/-- The quotes between which a string may stand. -/
def IsQuote (character : Char) : Prop :=
  character = '\'' ∨ character = '"'

/-- What a request is answered with behind the blanks, and where the scanner stands then. -/
inductive Step (scanner : Scanner) : Except LexError (Option Token) × Scanner → Prop where
  | ended
      (atEnd : scanner.rest = []) :
      Step scanner (.ok none, scanner)
  | literal {quote : Char} {following contents : List Char} {length : Nat}
      (shape : scanner.rest = quote :: following)
      (isQuote : IsQuote quote)
      (read : literal? quote following = some (contents, length)) :
      Step scanner (.ok (some ⟨.value, String.ofList contents⟩), scanner.advance (length + 1))
  | unclosed {quote : Char} {following : List Char}
      (shape : scanner.rest = quote :: following)
      (isQuote : IsQuote quote)
      (unread : literal? quote following = none) :
      Step scanner (.error (.unterminatedString scanner.offset), scanner.advance 1)
  | lexeme {first : Char} {following : List Char} {token : Token} {length : Nat}
      (shape : scanner.rest = first :: following)
      (unquoted : ¬ IsQuote first)
      (read : lexeme? (first :: following) = some (token, length)) :
      Step scanner (.ok (some token), scanner.advance length)
  | unknown {first : Char} {following : List Char}
      (shape : scanner.rest = first :: following)
      (unquoted : ¬ IsQuote first)
      (unread : lexeme? (first :: following) = none) :
      Step scanner
        (.error (.unexpectedInput (excerpt (first :: following)) scanner.offset), scanner)

theorem next_eq_iff_step
    {scanner : Scanner}
    {answer : Except LexError (Option Token) × Scanner} :
    next scanner = answer ↔ Step scanner.skipBlanks answer := by
  have quoted_iff : ∀ {character : Char},
      (character = '\'' || character = '"') = true ↔ IsQuote character := by
    simp [IsQuote]
  constructor
  · rintro rfl
    simp only [next]
    split
    · next shape => exact .ended shape
    · next first following shape =>
        split
        · next quoted =>
            split
            · next read => exact .literal shape (quoted_iff.mp quoted) read
            · next unread => exact .unclosed shape (quoted_iff.mp quoted) unread
        · next unquoted =>
            rw [shape]
            split
            · next read => exact .lexeme shape (unquoted ∘ quoted_iff.mpr) read
            · next unread => exact .unknown shape (unquoted ∘ quoted_iff.mpr) unread
  · intro step
    simp only [next]
    cases step with
    | ended atEnd => simp only [atEnd]
    | literal shape isQuote read => simp only [shape, if_pos (quoted_iff.mpr isQuote), read]
    | unclosed shape isQuote unread => simp only [shape, if_pos (quoted_iff.mpr isQuote), unread]
    | lexeme shape unquoted read =>
        simp only [shape, if_neg (unquoted ∘ quoted_iff.mp), read]
    | unknown shape unquoted unread =>
        simp only [shape, if_neg (unquoted ∘ quoted_iff.mp), unread]

theorem step_next (scanner : Scanner) : Step scanner.skipBlanks (next scanner) :=
  next_eq_iff_step.mp rfl

theorem step_of_answer
    {scanner : Scanner}
    {outcome : Except LexError (Option Token)}
    (answered : (next scanner).1 = outcome) :
    Step scanner.skipBlanks (outcome, (next scanner).2) := by
  rw [← answered]
  exact step_next scanner

/-- A request is answered by what stands behind the blanks. -/
theorem next_congr
    {scanner other : Scanner}
    (same : scanner.skipBlanks = other.skipBlanks) :
    next scanner = next other := by
  rw [next_eq_iff_step, same]
  exact step_next other

/-! ## Failures -/

theorem Step.of_unexpected
    {scanner following : Scanner}
    {fragment : String}
    {offset : Nat}
    (step : Step scanner (.error (.unexpectedInput fragment offset), following)) :
    following = scanner ∧ offset = scanner.offset ∧
      ∃ first others, scanner.rest = first :: others ∧ fragment = excerpt (first :: others) := by
  cases step with
  | unknown shape unquoted unread => exact ⟨rfl, rfl, _, _, shape, rfl⟩

theorem Step.of_unterminated
    {scanner following : Scanner}
    {offset : Nat}
    (step : Step scanner (.error (.unterminatedString offset), following)) :
    following = scanner.advance 1 ∧ offset = scanner.offset ∧
      ∃ quote others, scanner.rest = quote :: others ∧ IsQuote quote := by
  cases step with
  | unclosed shape isQuote unread => exact ⟨rfl, rfl, _, _, shape, isQuote⟩

/-! ## Progress -/

theorem numberPart_ne_nil
    {first : Char}
    {following : List Char}
    (begins : beginsNumber (first :: following) = true) :
    numberPart (first :: following) ≠ [] := by
  intro empty
  simp only [numberPart, List.append_eq_nil_iff] at empty
  obtain ⟨⟨unsigned, whole⟩, -⟩ := empty
  rw [unsigned] at whole
  by_cases minus : first = '-'
  · simp [minus, signPart] at unsigned
  · have digit : first.isDigit = true := by simpa [beginsNumber, minus] using begins
    simp [digitPart, digit] at whole

theorem length_pos_of_lexeme?
    {characters : List Char}
    {token : Token}
    {length : Nat}
    (read : lexeme? characters = some (token, length)) :
    0 < length := by
  cases characters with
  | nil => simp [lexeme?] at read
  | cons first following =>
      simp only [lexeme?] at read
      split at read
      · next begins =>
          simp only [Option.some.injEq, Prod.mk.injEq] at read
          rw [← read.2]
          exact List.length_pos_iff.mpr (numberPart_ne_nil begins)
      · split at read
        · simp only [Option.some.injEq, Prod.mk.injEq] at read
          simp [← read.2]
        · split at read
          · simp only [Option.some.injEq, Prod.mk.injEq] at read
            simp [← read.2]
          · split at read
            · simp only [Option.some.injEq, Prod.mk.injEq] at read
              simp [← read.2]
            · simp at read

/-- A token takes up at least one of the characters behind the blanks. -/
theorem Step.exists_length
    {scanner following : Scanner}
    {token : Token}
    (step : Step scanner (.ok (some token), following)) :
    ∃ length, 0 < length ∧ scanner.rest ≠ [] ∧ following = scanner.advance length := by
  cases step with
  | literal shape isQuote read =>
      exact ⟨_, Nat.succ_pos _, by simp [shape], rfl⟩
  | lexeme shape unquoted read =>
      exact ⟨_, length_pos_of_lexeme? read, by simp [shape], rfl⟩

theorem length_rest_advance (scanner : Scanner) (length : Nat) :
    (scanner.advance length).rest.length = scanner.rest.length - length := by
  simp [advance]

/-- Every delivered token takes up at least one character. -/
theorem length_rest_next
    {scanner following : Scanner}
    {token : Token}
    (delivered : next scanner = (.ok (some token), following)) :
    following.rest.length < scanner.rest.length := by
  rcases (next_eq_iff_step.mp delivered).exists_length with ⟨length, positive, remaining, rfl⟩
  have blanks : scanner.skipBlanks.rest.length ≤ scanner.rest.length := by
    simp [skipBlanks, length_rest_advance]
  have visible : 0 < scanner.skipBlanks.rest.length := List.length_pos_iff.mpr remaining
  rw [length_rest_advance]
  omega

end ClassStore.Search.Scanner
