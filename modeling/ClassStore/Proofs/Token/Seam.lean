import ClassStore.Proofs.Token.Agreement

/-!
# Tokens across a seam

Two texts with a boundary between them are read one after the other.  A token
that the scanner delivers it also delivers with more text behind it, as long as
what is put there does not continue a word; `followedBy` puts it there.  Where a
text begins only moves the positions that the scanner counts; `shift` moves
them.  `ofText_comma` says that a comma between two texts is a token between
their tokens, and `complete_across_blank` that a blank between them is no token.
-/

namespace ClassStore.Search

open TokenStream

/-- What follows a word does not lengthen a run of word characters in front of it. -/
theorem takeWhile_append_bounded
    {belongs : Char → Bool}
    (belongs_isWordCharacter : ∀ character, belongs character = true →
      isWordCharacter character = true)
    (characters : List Char)
    {suffix : List Char}
    (bounded : Bounded suffix) :
    (characters ++ suffix).takeWhile belongs = characters.takeWhile belongs := by
  have stops : suffix.takeWhile belongs = [] := by
    simpa using takeWhile_append_of_bounded belongs_isWordCharacter
      (fun _ isMember => absurd isMember List.not_mem_nil) bounded
  rw [List.takeWhile_append, stops, List.append_nil]
  split
  · next whole => exact ((List.takeWhile_prefix belongs).eq_of_length whole).symm
  · rfl

/-- The failure at as many more bytes from the beginning. -/
def LexError.moved (bytes : Nat) : LexError → LexError
  | .unexpectedInput fragment offset => .unexpectedInput fragment (bytes + offset)
  | .unterminatedString offset => .unterminatedString (bytes + offset)

namespace Scanner

/-! ## More text behind a token -/

/-- The position with more text behind it. -/
def followedBy (scanner : Scanner) (suffix : List Char) : Scanner :=
  ⟨scanner.rest ++ suffix, scanner.offset⟩

@[simp]
theorem rest_followedBy (scanner : Scanner) (suffix : List Char) :
    (scanner.followedBy suffix).rest = scanner.rest ++ suffix :=
  rfl

theorem advance_followedBy
    {scanner : Scanner}
    {length : Nat}
    (inside : length ≤ scanner.rest.length)
    (suffix : List Char) :
    (scanner.followedBy suffix).advance length = (scanner.advance length).followedBy suffix := by
  simp only [followedBy, advance, List.drop_append_of_le_length inside,
    List.take_append_of_le_length inside]

/-- Blanks end in front of what follows them, unless that goes on with blanks. -/
theorem skipBlanks_followedBy
    {scanner : Scanner}
    {suffix : List Char}
    (visible : scanner.skipBlanks.rest = [] → suffix.takeWhile Text.isBlank = []) :
    (scanner.followedBy suffix).skipBlanks = scanner.skipBlanks.followedBy suffix := by
  have same : (scanner.rest ++ suffix).takeWhile Text.isBlank =
      scanner.rest.takeWhile Text.isBlank := by
    rw [List.takeWhile_append]
    split
    · next whole =>
        have allBlank : scanner.skipBlanks.rest = [] := by
          rw [skipBlanks, advance, whole, List.drop_length]
        rw [visible allBlank, List.append_nil]
        exact ((List.takeWhile_prefix _).eq_of_length whole).symm
    · rfl
  rw [skipBlanks, rest_followedBy, same]
  exact advance_followedBy (List.takeWhile_prefix _).length_le suffix

theorem digitPart_append
    (characters : List Char)
    {suffix : List Char}
    (bounded : Bounded suffix) :
    digitPart (characters ++ suffix) = digitPart characters :=
  takeWhile_append_bounded (fun _ => isWordCharacter_of_isDigit) characters bounded

theorem fractionPart_append
    (characters : List Char)
    {suffix : List Char}
    (bounded : Bounded suffix) :
    fractionPart (characters ++ suffix) = fractionPart characters := by
  cases characters with
  | nil =>
      cases suffix with
      | nil => rfl
      | cons follower suffix =>
          have outside : isWordCharacter follower = false := bounded follower rfl
          have noPoint : follower ≠ '.' := by
            rintro rfl
            simp [isWordCharacter] at outside
          simp [fractionPart, noPoint]
  | cons first following =>
      by_cases point : first = '.'
      · subst point
        simp only [List.cons_append, fractionPart, digitPart_append following bounded]
      · simp [fractionPart, point]

theorem length_signPart_le (characters : List Char) :
    (signPart characters).length ≤ characters.length := by
  rw [signPart.eq_def]
  split <;> simp

theorem length_digitPart_le (characters : List Char) :
    (digitPart characters).length ≤ characters.length :=
  (List.takeWhile_prefix _).length_le

theorem length_fractionPart_le (characters : List Char) :
    (fractionPart characters).length ≤ characters.length := by
  rw [fractionPart.eq_def]
  split
  · next following =>
      have digits := length_digitPart_le following
      dsimp only
      split <;> simp [digits]
  · simp

theorem length_numberPart_le (characters : List Char) :
    (numberPart characters).length ≤ characters.length := by
  have sign := length_signPart_le characters
  have whole := length_digitPart_le (characters.drop (signPart characters).length)
  have fraction := length_fractionPart_le (characters.drop
    ((signPart characters).length +
      (digitPart (characters.drop (signPart characters).length)).length))
  simp only [numberPart, List.length_append, List.length_drop] at whole fraction ⊢
  omega

theorem numberPart_append
    {characters : List Char}
    (nonempty : characters ≠ [])
    {suffix : List Char}
    (bounded : Bounded suffix) :
    numberPart (characters ++ suffix) = numberPart characters := by
  have signs : signPart (characters ++ suffix) = signPart characters := by
    cases characters with
    | nil => exact absurd rfl nonempty
    | cons first following =>
        by_cases minus : first = '-'
        · subst minus
          rfl
        · simp [signPart, minus]
  have sign := length_signPart_le characters
  have whole := length_digitPart_le (characters.drop (signPart characters).length)
  rw [List.length_drop] at whole
  simp only [numberPart, signs]
  rw [List.drop_append_of_le_length sign, digitPart_append _ bounded,
    List.drop_append_of_le_length (by omega), fractionPart_append _ bounded]

theorem beginsNumber_append
    {characters : List Char}
    (nonempty : characters ≠ [])
    {suffix : List Char}
    (bounded : Bounded suffix) :
    beginsNumber (characters ++ suffix) = beginsNumber characters := by
  cases characters with
  | nil => exact absurd rfl nonempty
  | cons first following =>
      by_cases minus : first = '-'
      · subst minus
        cases following with
        | nil =>
            cases suffix with
            | nil => rfl
            | cons follower suffix =>
                have outside : isWordCharacter follower = false := bounded follower rfl
                have noDigit : follower.isDigit = false := by
                  rw [Bool.eq_false_iff]
                  intro digit
                  simp [isWordCharacter_of_isDigit digit] at outside
                simp [beginsNumber, noDigit]
        | cons second following => rfl
      · simp [beginsNumber]

/-- A lexeme is not changed by what follows, and ends in front of it. -/
theorem lexeme?_append
    {characters : List Char}
    {token : Token}
    {length : Nat}
    (read : lexeme? characters = some (token, length))
    {suffix : List Char}
    (bounded : Bounded suffix) :
    lexeme? (characters ++ suffix) = some (token, length) ∧ length ≤ characters.length := by
  cases characters with
  | nil => simp [lexeme?] at read
  | cons first following =>
      have sameNumber := beginsNumber_append (List.cons_ne_nil first following) bounded
      have number := numberPart_append (List.cons_ne_nil first following) bounded
      have word :
          (following ++ suffix).takeWhile isWordCharacter = following.takeWhile isWordCharacter :=
        takeWhile_append_bounded (fun _ => id) following bounded
      rw [List.cons_append] at sameNumber number ⊢
      simp only [lexeme?, sameNumber, number, word] at read ⊢
      split at read
      · next begins =>
          rw [if_pos begins]
          cases read
          exact ⟨rfl, length_numberPart_le _⟩
      · next noNumber =>
          rw [if_neg noNumber]
          split at read
          · next letter =>
              rw [if_pos letter]
              cases read
              exact ⟨rfl, Nat.succ_le_succ (List.takeWhile_prefix _).length_le⟩
          · next noLetter =>
              rw [if_neg noLetter]
              split at read
              · next arrow =>
                  -- The arrow lies within the characters, since its second half does.
                  rw [Bool.and_eq_true, beq_iff_eq] at arrow
                  rcases List.head?_eq_some_iff.mp arrow.2 with ⟨behind, rfl⟩
                  cases read
                  simp [arrow.1]
              · next noArrow =>
                  split at read
                  · next mark =>
                      have noEquals : first ≠ '=' := by
                        rintro rfl
                        simp [isMark] at mark
                      cases read
                      simp [noEquals, mark]
                  · cases read

/-- A closed string is not changed by what follows, and ends in front of it. -/
theorem literal?_append
    {quote : Char}
    {characters contents : List Char}
    {length : Nat}
    (read : literal? quote characters = some (contents, length))
    (suffix : List Char) :
    literal? quote (characters ++ suffix) = some (contents, length) ∧
      length ≤ characters.length := by
  fun_induction literal? quote characters generalizing contents length with
  | case1 => cases read
  | case2 => cases read
  | case3 escaped following inductionHypothesis =>
      rcases Option.map_eq_some_iff.mp read with ⟨⟨inner, innerLength⟩, innerRead, same⟩
      rcases inductionHypothesis innerRead with ⟨appended, inside⟩
      cases same
      simp [literal?, appended, inside]
  | case4 following noEscape =>
      cases read
      rw [List.cons_append, literal?.eq_def]
      simp [noEscape]
  | case5 character following noEscape noQuote inductionHypothesis =>
      rcases Option.map_eq_some_iff.mp read with ⟨⟨inner, innerLength⟩, innerRead, same⟩
      rcases inductionHypothesis innerRead with ⟨appended, inside⟩
      cases same
      rw [List.cons_append, literal?.eq_def]
      simp [noEscape, noQuote, appended, inside]

/-- What is delivered is delivered with more text behind it that does not continue a word. -/
theorem next_followedBy
    {scanner following : Scanner}
    {token : Token}
    (delivered : next scanner = (.ok (some token), following))
    {suffix : List Char}
    (bounded : Bounded suffix) :
    next (scanner.followedBy suffix) = (.ok (some token), following.followedBy suffix) := by
  have step := next_eq_iff_step.mp delivered
  rcases step.exists_length with ⟨_, _, remaining, _⟩
  have skipped : (scanner.followedBy suffix).skipBlanks =
      scanner.skipBlanks.followedBy suffix :=
    skipBlanks_followedBy fun empty => absurd empty remaining
  rw [next_eq_iff_step, skipped]
  cases step with
  | literal shape isQuote read =>
      rcases literal?_append read suffix with ⟨appended, inside⟩
      rw [← advance_followedBy (by rw [shape]; exact Nat.succ_le_succ inside)]
      exact .literal (by rw [rest_followedBy, shape, List.cons_append]) isQuote appended
  | lexeme shape unquoted read =>
      rcases lexeme?_append read bounded with ⟨appended, inside⟩
      rw [List.cons_append] at appended
      rw [← advance_followedBy (by rwa [shape])]
      exact .lexeme (by rw [rest_followedBy, shape, List.cons_append]) unquoted appended

/-- A run is one with more text behind it that does not continue a word. -/
theorem run_followedBy
    {scanner final : Scanner}
    {tokens : List Token}
    (run : Run next scanner tokens final)
    {suffix : List Char}
    (bounded : Bounded suffix) :
    Run next (scanner.followedBy suffix) tokens (final.followedBy suffix) := by
  induction run with
  | stop source => exact .stop _
  | step delivered _ inductionHypothesis =>
      exact .step (next_followedBy delivered bounded) inductionHypothesis

/-! ## More text in front of a token -/

/-- The position with more bytes in front of it. -/
def shift (scanner : Scanner) (bytes : Nat) : Scanner :=
  ⟨scanner.rest, bytes + scanner.offset⟩

@[simp]
theorem advance_shift (scanner : Scanner) (bytes length : Nat) :
    (scanner.shift bytes).advance length = (scanner.advance length).shift bytes := by
  simp only [shift, advance, Nat.add_assoc]

@[simp]
theorem skipBlanks_shift (scanner : Scanner) (bytes : Nat) :
    (scanner.shift bytes).skipBlanks = scanner.skipBlanks.shift bytes :=
  advance_shift scanner bytes _

/-- How much text lies in front of a request moves the offset of its failure, and nothing else. -/
theorem next_shift (scanner : Scanner) (bytes : Nat) :
    next (scanner.shift bytes) =
      ((next scanner).1.mapError (LexError.moved bytes), (next scanner).2.shift bytes) := by
  rw [next_eq_iff_step, skipBlanks_shift]
  have step := step_next scanner
  generalize next scanner = answer at step
  cases step with
  | ended atEnd => exact .ended atEnd
  | literal shape isQuote read =>
      rw [← advance_shift]
      exact .literal shape isQuote read
  | unclosed shape isQuote unread =>
      rw [← advance_shift]
      exact .unclosed shape isQuote unread
  | lexeme shape unquoted read =>
      rw [← advance_shift]
      exact .lexeme shape unquoted read
  | unknown shape unquoted unread => exact .unknown shape unquoted unread

theorem run_shift
    {scanner final : Scanner}
    {tokens : List Token}
    (run : Run next scanner tokens final)
    (bytes : Nat) :
    Run next (scanner.shift bytes) tokens (final.shift bytes) := by
  induction run with
  | stop source => exact .stop _
  | step delivered _ inductionHypothesis =>
      refine .step ?_ inductionHypothesis
      rw [next_shift, delivered]
      rfl

theorem ending_shift
    {scanner : Scanner}
    {failure : Option LexError}
    (ends : (next scanner).1 = ending failure)
    (bytes : Nat) :
    (next (scanner.shift bytes)).1 = ending (failure.map (LexError.moved bytes)) := by
  rw [next_shift, ends]
  cases failure <;> rfl

/-! ## The seam -/

/-- At the end of a text a comma that is put there is delivered. -/
theorem next_comma_of_ended
    {scanner : Scanner}
    (ended : (next scanner).1 = .ok none)
    (rest : List Char) :
    ∃ bytes, next (scanner.followedBy (',' :: rest)) = (.ok (some Token.comma), ⟨rest, bytes⟩) := by
  have empty := rest_skipBlanks_eq_nil_iff.mpr (ended_iff_blank.mp ended)
  have skipped : (scanner.followedBy (',' :: rest)).skipBlanks =
      scanner.skipBlanks.followedBy (',' :: rest) :=
    skipBlanks_followedBy fun _ => List.takeWhile_cons_of_neg (by decide)
  have mark : lexeme? (',' :: rest) = some (Token.comma, 1) := by
    simp [lexeme?, beginsNumber, isMark, Token.comma]
  refine ⟨scanner.skipBlanks.offset + byteCount [','], ?_⟩
  simp only [next, skipped]
  simp [empty, mark, advance, followedBy]

/-- At the end of a text a blank that is put there is passed over. -/
theorem next_blank_of_ended
    {text : String}
    {scanner : Scanner}
    (within : Within text scanner)
    (ended : (next scanner).1 = .ok none)
    {blank : Char}
    (isBlank : Text.isBlank blank = true)
    (rest : List Char) :
    next (scanner.followedBy (blank :: rest)) = next ⟨rest, text.utf8ByteSize + 1⟩ := by
  have areBlank : ∀ character ∈ scanner.rest ++ [blank], Text.isBlank character = true := by
    rw [List.forall_mem_append, List.forall_mem_singleton]
    exact ⟨ended_iff_blank.mp ended, isBlank⟩
  have width : blank.utf8Size = 1 := by
    simp only [Text.isBlank, Bool.or_eq_true, decide_eq_true_eq] at isBlank
    rcases isBlank with (((rfl | rfl) | rfl) | rfl) | rfl <;> rfl
  have bytes : scanner.offset + byteCount (scanner.rest ++ [blank]) = text.utf8ByteSize + 1 := by
    rw [byteCount_append, ← within.offset_add_byteCount, byteCount, byteCount, width,
      Nat.add_assoc]
  have joined : scanner.followedBy (blank :: rest) =
      ⟨(scanner.rest ++ [blank]) ++ rest, scanner.offset⟩ := by
    rw [followedBy, List.append_assoc, List.singleton_append]
  apply next_congr
  rw [joined, skipBlanks_append areBlank, bytes]

theorem Within.of_run
    {text : String}
    {scanner final : Scanner}
    {tokens : List Token}
    (within : Within text scanner)
    (run : Run Scanner.next scanner tokens final) :
    Within text final := by
  induction run with
  | stop source => exact within
  | step delivered _ inductionHypothesis =>
      have following := within.next
      rw [delivered] at following
      exact inductionHypothesis following

/-- The tokens of a text are those of a run of the scanner up to where it ends. -/
theorem run_of_ofText
    {text : String}
    {tokens : List Token}
    {failure : Option LexError}
    (read : TokenStream.ofText text = ⟨tokens, failure⟩) :
    ∃ final, Run next (start text) tokens final ∧ (next final).1 = ending failure := by
  have enough : (start text).rest.length < (start text).rest.length + 1 := Nat.lt_succ_self _
  exact exists_run_of_unfold (fun scanner => scanner.rest.length)
    (fun _ _ _ delivered => length_rest_next delivered) enough read

/-- A comma between two texts is a token between their tokens. -/
theorem ofText_comma
    {front back : String}
    {frontTokens backTokens : List Token}
    (frontRead : TokenStream.ofText front = ⟨frontTokens, none⟩)
    (backRead : TokenStream.ofText back = ⟨backTokens, none⟩) :
    TokenStream.ofText (front ++ "," ++ back) =
      ⟨frontTokens ++ Token.comma :: backTokens, none⟩ := by
  rcases run_of_ofText frontRead with ⟨frontFinal, frontRun, frontEnded⟩
  rcases run_of_ofText backRead with ⟨backFinal, backRun, backEnded⟩
  have joined : start (front ++ "," ++ back) = (start front).followedBy (',' :: back.toList) := by
    simp [start, followedBy]
  have boundary : isWordCharacter ',' = false := by decide
  have upToSeam := run_followedBy frontRun (Bounded.cons boundary back.toList)
  rcases next_comma_of_ended frontEnded back.toList with ⟨bytes, seam⟩
  have behindSeam : Run next ⟨back.toList, bytes⟩ backTokens (backFinal.shift bytes) :=
    run_shift backRun bytes
  have whole := upToSeam.append (.step seam behindSeam)
  rw [← joined] at whole
  exact ofText_of_run whole (ending_shift backEnded bytes)

/-- A blank between two texts leaves their tokens as they are, and moves the failure of the second. -/
theorem ofText_blank
    {front back : String}
    {frontTokens backTokens : List Token}
    {failure : Option LexError}
    (frontRead : TokenStream.ofText front = ⟨frontTokens, none⟩)
    (backRead : TokenStream.ofText back = ⟨backTokens, failure⟩)
    {blank : Char}
    (isBlank : Text.isBlank blank = true) :
    TokenStream.ofText (front ++ String.singleton blank ++ back) =
      ⟨frontTokens ++ backTokens,
        failure.map (LexError.moved (front.utf8ByteSize + 1))⟩ := by
  rcases run_of_ofText frontRead with ⟨frontFinal, frontRun, frontEnded⟩
  rcases run_of_ofText backRead with ⟨backFinal, backRun, backEnds⟩
  have joined : start (front ++ String.singleton blank ++ back) =
      (start front).followedBy (blank :: back.toList) := by
    simp [start, followedBy]
  have boundary : isWordCharacter blank = false := by
    rw [Bool.eq_false_iff]
    intro ofWord
    simp [isBlank_eq_false_of_isWordCharacter ofWord] at isBlank
  have upToSeam := run_followedBy frontRun (Bounded.cons boundary back.toList)
  have seam := next_blank_of_ended ((within_start front).of_run frontRun) frontEnded isBlank
    back.toList
  have behindSeam : Run next ⟨back.toList, front.utf8ByteSize + 1⟩ backTokens
      (backFinal.shift (front.utf8ByteSize + 1)) :=
    run_shift backRun _
  rcases upToSeam.exists_append_of_next_eq seam behindSeam with ⟨last, whole, same⟩
  rw [← joined] at whole
  apply ofText_of_run whole
  rw [same]
  exact ending_shift backEnds _

end Scanner

/--
Reading is compositional across a blank.

If a text can be read, a blank and any other text behind it are read as the tokens of
the first text and then those of the second.  If the second text cannot be read, the
failure is the same, but for the bytes that precede it now.
-/
theorem complete_across_blank
    {front : String}
    {tokens : List Token}
    (read : (TokenStream.ofText front).complete = .ok tokens)
    {blank : Char}
    (isBlank : Text.isBlank blank = true)
    (back : String) :
    (∀ others, (TokenStream.ofText back).complete = .ok others →
      (TokenStream.ofText (front ++ String.singleton blank ++ back)).complete =
        .ok (tokens ++ others)) ∧
    ∀ failure, (TokenStream.ofText back).complete = .error failure →
      (TokenStream.ofText (front ++ String.singleton blank ++ back)).complete =
        .error (failure.moved (front.utf8ByteSize + 1)) := by
  have frontRead := complete_eq_ok_iff.mp read
  constructor
  · intro others backRead
    rw [Scanner.ofText_blank frontRead (complete_eq_ok_iff.mp backRead) isBlank, complete]
    rfl
  · intro failure backFailed
    rcases complete_eq_error_iff.mp backFailed with ⟨others, backRead⟩
    rw [Scanner.ofText_blank frontRead backRead isBlank, complete]
    rfl

/-- Behind an accented letter and a line feed, a lone equals sign is reported six bytes further on. -/
theorem complete_across_lineFeed :
    (TokenStream.ofText "'é',").complete = .ok [⟨.value, "é"⟩, Token.comma] ∧
      Text.isBlank '\n' = true ∧
      (TokenStream.ofText "a = 1").complete = .error (.unexpectedInput "=" 2) ∧
      (TokenStream.ofText ("'é'," ++ String.singleton '\n' ++ "a = 1")).complete =
        .error (.unexpectedInput "=" 8) := by
  have read : (TokenStream.ofText "'é',").complete = .ok [⟨.value, "é"⟩, Token.comma] := by
    decide +kernel
  have failed : (TokenStream.ofText "a = 1").complete = .error (.unexpectedInput "=" 2) := by
    decide +kernel
  exact ⟨read, rfl, failed, (complete_across_blank read rfl "a = 1").2 _ failed⟩

end ClassStore.Search
