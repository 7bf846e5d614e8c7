import ClassStore.Proofs.Token.Bytes
import ClassStore.Proofs.Token.Spelling

/-!
# The cursor and the scanner

The cursor counts bytes and may fail to take a slice; the scanner counts characters and
cannot.  A cursor that has come as far in the text as the scanner gives the same answer,
and afterwards the two have come equally far again: `next?_eq`.  So no slice is ever
missing, and the cursor never stands inside a character.
-/

namespace ClassStore.Search.Cursor

open Scanner (Within)

/-- The cursor has come as far in the text as the scanner. -/
structure Follows (text : String) (cursor : Cursor) (scanner : Scanner) : Prop where
  within : Within text scanner
  source : cursor.source = text
  counted : cursor.current = scanner.offset

theorem follows_start (text : String) : Follows text (start text) (Scanner.start text) :=
  ⟨Scanner.within_start text, rfl, rfl⟩

theorem rest_advance_one
    {scanner : Scanner}
    {first : Char}
    {following : List Char}
    (shape : scanner.rest = first :: following) :
    (scanner.advance 1).rest = following := by
  rw [Scanner.advance, shape, List.drop_one, List.tail_cons]

@[simp]
theorem move_zero (cursor : Cursor) : cursor.move 0 = cursor :=
  rfl

theorem move_move (cursor : Cursor) (count further : Nat) :
    (cursor.move count).move further = cursor.move (count + further) := by
  rw [move, move, move, Nat.add_assoc]

theorem advance_advance (scanner : Scanner) (length further : Nat) :
    (scanner.advance length).advance further = scanner.advance (length + further) := by
  simp only [Scanner.advance, List.drop_drop, List.take_add, Scanner.byteCount_append,
    Nat.add_assoc]

namespace Follows

variable
    {text : String}
    {cursor : Cursor}
    {scanner : Scanner}
    (follows : Follows text cursor scanner)

include follows

/-! ## What is read next -/

theorem remaining_eq : cursor.remaining = bytes scanner.rest := by
  rcases follows.within with ⟨before, split, counted⟩
  rw [remaining, toList_toByteArray, follows.source, split, bytes, List.flatMap_append,
    follows.counted, counted, ← length_bytes, bytes, List.drop_left, bytes]

theorem peekAt_eq (ahead : Nat) : cursor.peekAt ahead = (bytes scanner.rest)[ahead]? := by
  rw [← follows.remaining_eq, remaining, List.getElem?_drop, peekAt, Array.getElem?_toList]

theorem peek_of_nil (atEnd : scanner.rest = []) : cursor.peek = none := by
  rw [peek, follows.peekAt_eq, atEnd]
  rfl

theorem peek_of_cons
    {first : Char}
    {following : List Char}
    (shape : scanner.rest = first :: following) :
    cursor.peek = some (leadByte first) := by
  rcases exists_utf8EncodeChar first with ⟨others, encoded⟩
  rw [peek, follows.peekAt_eq, shape, bytes, List.flatMap_cons, encoded]
  rfl

/-- Nothing is left of the bytes exactly if no character is. -/
theorem isAtEnd_eq : cursor.isAtEnd = scanner.isAtEnd := by
  have counted := follows.within.offset_add_byteCount
  rw [isAtEnd, follows.source, follows.counted, Scanner.isAtEnd, Bool.eq_iff_iff,
    decide_eq_true_iff, List.isEmpty_iff]
  constructor
  · intro atEnd
    by_contra nonempty
    have positive := Scanner.byteCount_pos nonempty
    omega
  · intro nothing
    rw [nothing, byteCount] at counted
    omega

/-- The next byte is of a kind exactly if the next character is. -/
theorem any_peek
    {ofByte : UInt8 → Bool}
    {ofCharacter : Char → Bool}
    (isKind : IsKind ofByte ofCharacter) :
    cursor.peek.any ofByte = scanner.rest.head?.any ofCharacter := by
  cases shape : scanner.rest with
  | nil => rw [follows.peek_of_nil shape]; rfl
  | cons first following =>
      rw [follows.peek_of_cons shape, List.head?_cons, Option.any_some, Option.any_some,
        isKind.leadByte]

/-! ## Moves -/

/-- A move over the bytes of some characters passes over these characters. -/
theorem move_take (length : Nat) :
    Follows text (cursor.move (byteCount (scanner.rest.take length))) (scanner.advance length) :=
  ⟨follows.within.advance length, follows.source, congrArg (· + _) follows.counted⟩

theorem move_ascii
    {run : List Char}
    (begins : run <+: scanner.rest)
    (areAscii : ∀ character ∈ run, character.utf8Size = 1) :
    Follows text (cursor.move run.length) (scanner.advance run.length) := by
  have moved := follows.move_take run.length
  rwa [← List.prefix_iff_eq_take.mp begins, byteCount_of_ascii areAscii] at moved

theorem move_one
    {first : Char}
    {following : List Char}
    (shape : scanner.rest = first :: following)
    (isAscii : first.utf8Size = 1) :
    Follows text (cursor.move 1) (scanner.advance 1) := by
  have begins : [first] <+: scanner.rest := by
    rw [shape]
    exact List.prefix_append [first] following
  exact follows.move_ascii begins (by simpa using isAscii)

theorem moveWhile_eq
    {ofByte : UInt8 → Bool}
    {ofCharacter : Char → Bool}
    (isKind : IsKind ofByte ofCharacter) :
    cursor.moveWhile ofByte = cursor.move (scanner.rest.takeWhile ofCharacter).length := by
  rw [moveWhile, follows.remaining_eq, isKind.length_takeWhile_bytes]

theorem moveWhile
    {ofByte : UInt8 → Bool}
    {ofCharacter : Char → Bool}
    (isKind : IsKind ofByte ofCharacter) :
    Follows text (cursor.moveWhile ofByte)
      (scanner.advance (scanner.rest.takeWhile ofCharacter).length) := by
  rw [follows.moveWhile_eq isKind]
  exact follows.move_ascii (List.takeWhile_prefix _) fun character isMember =>
    isKind.foreign character (List.mem_takeWhile_imp isMember)

/-! ## Slices -/

theorem textUpTo?_eq
    {run : List Char}
    (begins : run <+: scanner.rest) :
    cursor.textUpTo? (cursor.move (byteCount run)) = some (String.ofList run) := by
  rcases follows.within with ⟨before, split, counted⟩
  rcases begins with ⟨behind, whole⟩
  have source : text =
      String.ofList before ++ String.ofList run ++ String.ofList behind := by
    rw [← String.ofList_append, ← String.ofList_append, List.append_assoc, whole, ← split,
      String.ofList_toList]
  have taken := slice?_append (String.ofList before) (String.ofList run) (String.ofList behind)
  rw [← source, Scanner.utf8ByteSize_ofList_eq, Scanner.utf8ByteSize_ofList_eq, ← counted,
    ← follows.counted, ← follows.source] at taken
  exact taken

theorem restText?_eq : cursor.restText? = some (String.ofList scanner.rest) := by
  have whole := follows.textUpTo?_eq List.prefix_rfl
  have counted := follows.within.offset_add_byteCount
  rw [← follows.counted, ← follows.source] at counted
  rw [restText?, ← counted]
  exact whole

theorem textUpTo?_ascii
    {run : List Char}
    (begins : run <+: scanner.rest)
    (areAscii : ∀ character ∈ run, character.utf8Size = 1) :
    cursor.textUpTo? (cursor.move run.length) = some (String.ofList run) := by
  have taken := follows.textUpTo?_eq begins
  rwa [byteCount_of_ascii areAscii] at taken

end Follows

/-! ## Numbers -/

theorem isPrefix_signPart (characters : List Char) :
    Scanner.signPart characters <+: characters := by
  rw [Scanner.signPart.eq_def]
  split
  · exact List.prefix_append ['-'] _
  · exact List.nil_prefix

theorem signPart_eq_nil
    {characters : List Char}
    (unsigned : characters.head? ≠ some '-') :
    Scanner.signPart characters = [] := by
  rw [Scanner.signPart.eq_def]
  split
  · exact absurd rfl unsigned
  · rfl

theorem fractionPart_eq_nil
    {characters : List Char}
    (whole : characters.head? ≠ some '.') :
    Scanner.fractionPart characters = [] := by
  rw [Scanner.fractionPart.eq_def]
  split
  · exact absurd rfl whole
  · rfl

theorem isPrefix_fractionPart (characters : List Char) :
    Scanner.fractionPart characters <+: characters := by
  rw [Scanner.fractionPart.eq_def]
  split
  · next following =>
      simp only
      split
      · exact List.nil_prefix
      · exact List.prefix_cons_inj '.' |>.mpr (List.takeWhile_prefix _)
  · exact List.nil_prefix

/-- What begins the rest behind a beginning makes a longer beginning. -/
theorem append_prefix_of_drop
    {front run characters : List Char}
    (begins : front <+: characters)
    (behind : run <+: characters.drop front.length) :
    front ++ run <+: characters := by
  rcases begins with ⟨rest, rfl⟩
  rw [List.drop_left] at behind
  exact (List.prefix_append_right_inj front).mpr behind

theorem isPrefix_numberPart (characters : List Char) :
    Scanner.numberPart characters <+: characters := by
  apply append_prefix_of_drop
  · exact append_prefix_of_drop (isPrefix_signPart characters) (List.takeWhile_prefix _)
  · rw [List.length_append]
    exact isPrefix_fractionPart _

theorem ascii_of_mem_digitPart
    {characters : List Char} :
    ∀ character ∈ Scanner.digitPart characters, character.utf8Size = 1 :=
  fun character isMember => isKind_digit.foreign character (List.mem_takeWhile_imp isMember)

theorem ascii_of_mem_numberPart
    {characters : List Char} :
    ∀ character ∈ Scanner.numberPart characters, character.utf8Size = 1 := by
  intro character isMember
  rcases List.mem_append.mp isMember with isFront | isFraction
  · rcases List.mem_append.mp isFront with isSign | isWhole
    · rw [Scanner.signPart.eq_def] at isSign
      split at isSign
      · rw [List.mem_singleton.mp isSign]
        rfl
      · cases isSign
    · exact ascii_of_mem_digitPart character isWhole
  · rw [Scanner.fractionPart.eq_def] at isFraction
    split at isFraction
    · simp only at isFraction
      split at isFraction
      · cases isFraction
      · rcases List.mem_cons.mp isFraction with rfl | isDigit
        · rfl
        · exact ascii_of_mem_digitPart character isDigit
    · cases isFraction

namespace Follows

variable
    {text : String}
    {cursor : Cursor}
    {scanner : Scanner}
    (follows : Follows text cursor scanner)

include follows

theorem peek_eq_some_iff
    (character : Char)
    (isAscii : character.utf8Size = 1) :
    cursor.peek = some character.toUInt8 ↔ scanner.rest.head? = some character := by
  cases shape : scanner.rest with
  | nil => simp [follows.peek_of_nil shape]
  | cons first following =>
      have same := (isKind_eq character isAscii).leadByte first
      rw [follows.peek_of_cons shape, List.head?_cons, Option.some_inj, Option.some_inj,
        ← beq_iff_eq, same, beq_iff_eq]

theorem moveSign_eq :
    (if cursor.peek = some '-'.toUInt8 then cursor.move 1 else cursor) =
      cursor.move (Scanner.signPart scanner.rest).length := by
  have signed := follows.peek_eq_some_iff '-' rfl
  by_cases isSign : scanner.rest.head? = some '-'
  · rcases List.head?_eq_some_iff.mp isSign with ⟨following, shape⟩
    rw [if_pos (signed.mpr isSign), shape]
    rfl
  · rw [if_neg (mt signed.mp isSign), signPart_eq_nil isSign]
    rfl

theorem moveFraction_eq :
    (if cursor.peek = some '.'.toUInt8 && (cursor.peekAt 1).any isDigitByte then
        (cursor.move 1).moveWhile isDigitByte
      else
        cursor) =
      cursor.move (Scanner.fractionPart scanner.rest).length := by
  have pointed := follows.peek_eq_some_iff '.' rfl
  by_cases isPoint : scanner.rest.head? = some '.'
  · rcases List.head?_eq_some_iff.mp isPoint with ⟨following, shape⟩
    have behind := follows.move_one shape rfl
    have digits := behind.any_peek isKind_digit
    rw [rest_advance_one shape] at digits
    change (cursor.peekAt 1).any isDigitByte = _ at digits
    rw [decide_eq_true (pointed.mpr isPoint), Bool.true_and, digits,
      behind.moveWhile_eq isKind_digit, rest_advance_one shape, move_move, shape]
    cases following with
    | nil => rfl
    | cons first others =>
        cases isDigit : first.isDigit with
        | true => simp [Scanner.fractionPart, Scanner.digitPart, isDigit, Nat.add_comm]
        | false => simp [Scanner.fractionPart, Scanner.digitPart, isDigit]
  · rw [decide_eq_false (mt pointed.mp isPoint), Bool.false_and, if_neg Bool.false_ne_true,
      fractionPart_eq_nil isPoint]
    rfl

theorem moveNumber_eq :
    cursor.moveNumber = cursor.move (Scanner.numberPart scanner.rest).length := by
  have sign := follows.move_ascii (isPrefix_signPart scanner.rest) (by
    intro character isMember
    exact ascii_of_mem_numberPart character
      (List.mem_append_left _ (List.mem_append_left _ isMember)))
  have whole := sign.moveWhile isKind_digit
  rw [moveNumber, follows.moveSign_eq, whole.moveFraction_eq, sign.moveWhile_eq isKind_digit,
    move_move, move_move, advance_advance]
  simp only [Scanner.numberPart, Scanner.digitPart, Scanner.advance, List.length_append,
    Nat.add_assoc]

end Follows

/-! ## Strings -/

/-- A byte is that of a quote exactly if the character is the quote. -/
theorem toNat_eq_toNat_toUInt8_iff
    {quote : Char}
    (isAscii : quote.utf8Size = 1)
    (character : Char) :
    character.toNat = quote.toUInt8.toNat ↔ character = quote := by
  have below := utf8Size_eq_one_iff_toNat.mp isAscii
  have toNat : quote.toUInt8.toNat = quote.toNat % 256 := rfl
  rw [toNat, Nat.mod_eq_of_lt (by omega)]
  exact Char.toNat_inj

/-- The contents of a string are the same, and its length is counted in bytes. -/
theorem closing?_eq
    {quote : Char}
    (isAscii : quote.utf8Size = 1)
    (index : Nat)
    (characters : List Char) :
    closing? quote.toUInt8 index characters =
      (Scanner.literal? quote characters).map fun (contents, length) =>
        (contents, index + byteCount (characters.take length)) := by
  induction characters using Scanner.literal?.induct quote generalizing index with
  | case1 => rfl
  | case2 => rfl
  | case3 escaped following inductionHypothesis =>
      simp only [closing?, Scanner.literal?, if_true, inductionHypothesis, Option.map_map]
      congr 1
      funext (contents, length)
      simp [byteCount, Nat.add_assoc]
  | case4 following ordinary =>
      have isQuote := (toNat_eq_toNat_toUInt8_iff isAscii quote).mpr rfl
      rw [closing?.eq_def, Scanner.literal?.eq_def]
      simp only [if_neg ordinary, if_pos isQuote, if_true, Option.map_some]
      simp [byteCount, isAscii]
  | case5 character following ordinary other inductionHypothesis =>
      have noQuote := mt (toNat_eq_toNat_toUInt8_iff isAscii character).mp other
      rw [closing?.eq_def, Scanner.literal?.eq_def]
      simp only [if_neg ordinary, if_neg noQuote, if_neg other, inductionHypothesis,
        Option.map_map]
      congr 1
      funext (contents, length)
      simp [byteCount, Nat.add_assoc]

/-! ## Requests -/

namespace Follows

variable
    {text : String}
    {cursor : Cursor}
    {scanner : Scanner}
    (follows : Follows text cursor scanner)
    {first : Char}
    {following : List Char}
    (shape : scanner.rest = first :: following)

include follows shape

theorem string?_eq
    (isAscii : first.utf8Size = 1) :
    (cursor.move 1).string? first.toUInt8 =
      some ((Scanner.literal? first following).map fun (contents, length) =>
        (String.ofList contents, (cursor.move 1).move (byteCount (following.take length)))) := by
  have behind := follows.move_one shape isAscii
  rw [string?, behind.restText?_eq, rest_advance_one shape]
  simp only [Option.bind_eq_bind, Option.bind_some, String.toList_ofList, closing?_eq isAscii,
    Option.map_map, Function.comp_def, Nat.zero_add]

theorem unexpected?_eq :
    cursor.unexpected? =
      some (.unexpectedInput (Scanner.excerpt (first :: following)) scanner.offset) := by
  rw [unexpected?, follows.restText?_eq, shape, follows.counted]
  simp only [Option.bind_eq_bind, Option.bind_some, String.toList_ofList]

theorem beginsNumber_eq :
    (isDigitByte (leadByte first) ||
        leadByte first == '-'.toUInt8 && (cursor.peekAt 1).any isDigitByte) =
      Scanner.beginsNumber (first :: following) := by
  rw [isKind_digit.leadByte, (isKind_eq '-' rfl).leadByte]
  by_cases signed : first = '-'
  · subst signed
    have behind := follows.move_one shape rfl
    have digits := behind.any_peek isKind_digit
    rw [rest_advance_one shape] at digits
    exact digits
  · rw [beq_false_of_ne signed, Bool.false_and, Bool.or_false, Scanner.beginsNumber.eq_def]
    split
    · next empty => cases empty
    · next minus => exact absurd (List.cons.inj minus).1 signed
    · next whole => rw [(List.cons.inj whole).1]

/-- A token with the text of a run of ASCII characters, and the cursor behind it. -/
theorem textUpTo?_run
    {run : List Char}
    (begins : run <+: first :: following)
    (areAscii : ∀ character ∈ run, character.utf8Size = 1) :
    cursor.textUpTo? (cursor.move run.length) = some (String.ofList run) ∧
      Follows text (cursor.move run.length) (scanner.advance run.length) := by
  rw [← shape] at begins
  exact ⟨follows.textUpTo?_ascii begins areAscii, follows.move_ascii begins areAscii⟩

/-- In front of a quote the cursor answers as the scanner does. -/
theorem answer?_of_quote (isQuote : Scanner.IsQuote first) :
    ∃ answer behind reached,
      cursor.answer? (leadByte first) = some (answer, behind) ∧
      Scanner.Step scanner (answer, reached) ∧ Follows text behind reached := by
  have isAscii : first.utf8Size = 1 := by
    rcases isQuote with rfl | rfl <;> rfl
  have quoted : isQuoteByte first.toUInt8 = true := by
    rcases isQuote with rfl | rfl <;> rfl
  have read := follows.string?_eq shape isAscii
  have behind := follows.move_one shape isAscii
  rw [leadByte_of_ascii isAscii, answer?, if_pos quoted]
  simp only [read, Option.bind_eq_bind, Option.bind_some]
  cases literal : Scanner.literal? first following with
  | none =>
      refine ⟨_, _, _, rfl, ?_, behind⟩
      rw [follows.counted]
      exact .unclosed shape isQuote literal
  | some pair =>
      rcases pair with ⟨contents, length⟩
      have closed := behind.move_take length
      rw [rest_advance_one shape, advance_advance, Nat.add_comm 1] at closed
      exact ⟨_, _, _, rfl, .literal shape isQuote literal, closed⟩

theorem isArrow_eq :
    (leadByte first == '='.toUInt8 && cursor.peekAt 1 == some '>'.toUInt8) =
      (decide (first = '=') && following.head? == some '>') := by
  rw [(isKind_eq '=' rfl).leadByte]
  by_cases equals : first = '='
  · subst equals
    have behind := follows.move_one shape rfl
    have greater := behind.peek_eq_some_iff '>' rfl
    rw [rest_advance_one shape] at greater
    change cursor.peekAt 1 = _ ↔ _ at greater
    rw [Bool.eq_iff_iff]
    simp [greater]
  · simp [equals]

/-- In front of any other character as well. -/
theorem answer?_of_unquoted (unquoted : ¬ Scanner.IsQuote first) :
    ∃ answer behind reached,
      cursor.answer? (leadByte first) = some (answer, behind) ∧
      Scanner.Step scanner (answer, reached) ∧ Follows text behind reached := by
  have quoted : ¬ isQuoteByte (leadByte first) = true := by
    rw [isKind_quote.leadByte]
    simpa [Scanner.IsQuote] using unquoted
  rw [answer?, if_neg quoted, follows.beginsNumber_eq shape, isKind_letter.leadByte,
    follows.isArrow_eq shape, isKind_mark.leadByte]
  have shown : ∀ {token length},
      Scanner.lexeme? (first :: following) = some (token, length) →
      Scanner.Step scanner (.ok (some token), scanner.advance length) :=
    fun read => .lexeme shape unquoted read
  split
  · next isNumber =>
      rcases follows.textUpTo?_run shape (isPrefix_numberPart _)
        (fun _ => ascii_of_mem_numberPart _) with ⟨taken, behind⟩
      simp only [follows.moveNumber_eq, shape, taken, Option.bind_eq_bind, Option.bind_some]
      exact ⟨_, _, _, rfl, shown (by simp [Scanner.lexeme?, isNumber]), behind⟩
  split
  · next noNumber isLetter =>
      rcases follows.textUpTo?_run shape (List.takeWhile_prefix isWordCharacter)
        (fun _ isMember => isKind_word.foreign _ (List.mem_takeWhile_imp isMember))
        with ⟨taken, behind⟩
      have ofWord := isWordCharacter_of_isAlpha isLetter
      simp only [follows.moveWhile_eq isKind_word, shape, taken, Option.bind_eq_bind,
        Option.bind_some]
      refine ⟨_, _, _, rfl, shown ?_, behind⟩
      simp [Scanner.lexeme?, noNumber, isLetter, ofWord]
  split
  · next noNumber noLetter isArrow =>
      rcases Bool.and_eq_true_iff.mp isArrow with ⟨equals, greater⟩
      obtain rfl := of_decide_eq_true equals
      rcases List.head?_eq_some_iff.mp (beq_iff_eq.mp greater) with ⟨others, rfl⟩
      rcases follows.textUpTo?_run shape (List.prefix_append ['=', '>'] others)
        (by simp [Char.utf8Size]) with ⟨-, behind⟩
      exact ⟨_, _, _, rfl, shown (by simp [Scanner.lexeme?, noNumber, noLetter]), behind⟩
  split
  · next noNumber noLetter noArrow isMark =>
      have isAscii := isKind_mark.foreign first isMark
      rcases follows.textUpTo?_run shape (List.prefix_append [first] following)
        (by simpa using isAscii) with ⟨taken, behind⟩
      rw [List.length_singleton] at taken behind
      simp only [taken, Option.bind_eq_bind, Option.bind_some]
      refine ⟨_, _, _, rfl, shown ?_, behind⟩
      simp [Scanner.lexeme?, noNumber, noLetter, noArrow, isMark]
  · next noNumber noLetter noArrow noMark =>
      simp only [follows.unexpected?_eq shape, Option.bind_eq_bind, Option.bind_some]
      refine ⟨_, _, _, rfl, .unknown shape unquoted ?_, follows⟩
      simp [Scanner.lexeme?, noNumber, noLetter, noArrow, noMark]

end Follows

namespace Follows

variable
    {text : String}
    {cursor : Cursor}
    {scanner : Scanner}
    (follows : Follows text cursor scanner)

include follows

/-- Nothing but the text and the number of bytes says where a cursor stands. -/
theorem unique
    {other : Cursor}
    (otherFollows : Follows text other scanner) :
    cursor = other := by
  cases cursor
  cases other
  cases follows.source
  cases otherFollows.source
  cases follows.counted
  cases otherFollows.counted
  rfl

/-- The cursor answers as the scanner does, and then has come as far again. -/
theorem next?_eq :
    ∃ behind, cursor.next? = some ((Scanner.next scanner).1, behind) ∧
      Follows text behind (Scanner.next scanner).2 := by
  have visible : Follows text (cursor.moveWhile isBlankByte) scanner.skipBlanks :=
    follows.moveWhile isKind_blank
  cases shape : scanner.skipBlanks.rest with
  | nil =>
      have answer := Scanner.next_eq_iff_step.mpr (.ended shape)
      rw [next?, visible.peek_of_nil shape, answer]
      exact ⟨_, rfl, visible⟩
  | cons first following =>
      have answered : ∃ answer behind reached,
          (cursor.moveWhile isBlankByte).answer? (leadByte first) = some (answer, behind) ∧
          Scanner.Step scanner.skipBlanks (answer, reached) ∧ Follows text behind reached := by
        by_cases isQuote : Scanner.IsQuote first
        · exact visible.answer?_of_quote shape isQuote
        · exact visible.answer?_of_unquoted shape isQuote
      rcases answered with ⟨answer, behind, reached, outcome, step, further⟩
      rw [next?, visible.peek_of_cons shape, Scanner.next_eq_iff_step.mpr step]
      exact ⟨behind, outcome, further⟩

/-- So do any number of requests. -/
theorem after?_eq (requests : Nat) :
    ∃ behind, cursor.after? requests = some behind ∧
      Follows text behind (scanner.after requests) := by
  induction requests with
  | zero => exact ⟨cursor, rfl, follows⟩
  | succ requests inductionHypothesis =>
      rcases inductionHypothesis with ⟨before, reached, further⟩
      rcases further.next?_eq with ⟨behind, answered, last⟩
      refine ⟨behind, ?_, last⟩
      rw [after?, reached, Option.bind_eq_bind, Option.bind_some, answered]
      rfl

end Follows

end ClassStore.Search.Cursor
