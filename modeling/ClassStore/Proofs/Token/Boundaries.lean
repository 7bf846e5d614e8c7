import ClassStore.Proofs.Token.Cursor

/-!
# Positions of the cursor

The cursor moves by counts of bytes and takes slices that could be missing.
`positioned_after` says that no request goes without an answer, that the cursor always
stands between two characters of the text, and where the next answer leaves it.  This
holds after any number of requests, failed ones included: it is carried over from the
scanner, with which the cursor keeps up.
-/

namespace ClassStore.Search.Cursor

/--
Where a cursor stands in its text, and where its next answer leaves it.

It stands between two characters of the text and never goes back.  A token moves it on,
and it reports the end exactly where nothing but blanks is left.  In front of an
unexpected character it stays and reports it again and again, and of a string that is
left open it passes over the quote alone.
-/
structure Positioned (cursor : Cursor) (answer : Except LexError (Option Token))
    (behind : Cursor) : Prop where
  boundary : String.Pos.Raw.IsValid cursor.source ⟨cursor.current⟩
  inside : cursor.current ≤ cursor.source.utf8ByteSize
  forward : cursor.current ≤ behind.current
  delivered : ∀ token, answer = .ok (some token) → cursor.current < behind.current
  ended_iff : answer = .ok none ↔ ∀ byte ∈ cursor.remaining, isBlankByte byte = true
  ended : answer = .ok none → behind.current = cursor.source.utf8ByteSize
  unexpected : ∀ fragment offset, answer = .error (.unexpectedInput fragment offset) →
    behind.current = offset ∧
      ∀ requests, behind.after? requests = some behind ∧ behind.next? = some (answer, behind)
  unterminated : ∀ offset, answer = .error (.unterminatedString offset) →
    behind.current = offset + 1 ∧
      (Cursor.mk cursor.source offset).peek.any isQuoteByte = true

theorem after?_of_stays
    {cursor : Cursor}
    {answer : Except LexError (Option Token)}
    (stays : cursor.next? = some (answer, cursor))
    (requests : Nat) :
    cursor.after? requests = some cursor := by
  induction requests with
  | zero => rfl
  | succ requests inductionHypothesis =>
      rw [after?, inductionHypothesis, Option.bind_eq_bind, Option.bind_some, stays]
      rfl

namespace Follows

variable
    {text : String}
    {cursor : Cursor}
    {scanner : Scanner}
    (follows : Follows text cursor scanner)

include follows

theorem isValid : String.Pos.Raw.IsValid cursor.source ⟨cursor.current⟩ := by
  rcases follows.within with ⟨before, split, counted⟩
  have whole : text = String.ofList before ++ String.ofList scanner.rest := by
    rw [← String.ofList_append, ← split, String.ofList_toList]
  rw [follows.source, follows.counted, counted, ← Scanner.utf8ByteSize_ofList_eq, whole]
  exact isValid_utf8ByteSize _ _

theorem forall_mem_remaining_iff :
    (∀ byte ∈ cursor.remaining, isBlankByte byte = true) ↔
      ∀ character ∈ scanner.rest, Text.isBlank character = true := by
  rw [follows.remaining_eq, isKind_blank.forall_mem_bytes_iff]

omit follows in
/-- In front of an unexpected character the cursor stays, and answers the same again. -/
theorem stays_of_unexpected
    {behind : Cursor}
    (further : Follows text behind (Scanner.next scanner).2)
    {fragment : String}
    {offset : Nat}
    (reported : (Scanner.next scanner).1 = .error (.unexpectedInput fragment offset)) :
    behind.current = offset ∧
      behind.next? = some (.error (.unexpectedInput fragment offset), behind) := by
  rcases (Scanner.step_of_answer reported).of_unexpected with ⟨stays, rfl, _⟩
  have again := Scanner.next_eq_of_unexpected reported
  rw [stays] at further
  rcases further.next?_eq with ⟨last, answered, reached⟩
  rw [again] at answered reached
  rw [reached.unique further] at answered
  exact ⟨further.counted, answered⟩

/-- Of a string that is left open the cursor passes over the quote. -/
theorem passes_of_unterminated
    {behind : Cursor}
    (further : Follows text behind (Scanner.next scanner).2)
    {offset : Nat}
    (reported : (Scanner.next scanner).1 = .error (.unterminatedString offset)) :
    behind.current = offset + 1 ∧
      (Cursor.mk cursor.source offset).peek.any isQuoteByte = true := by
  rcases (Scanner.step_of_answer reported).of_unterminated with
    ⟨passed, rfl, quote, others, shape, isQuote⟩
  have isAscii : quote.utf8Size = 1 := by
    rcases isQuote with rfl | rfl <;> rfl
  have front : Follows text ⟨cursor.source, scanner.skipBlanks.offset⟩ scanner.skipBlanks :=
    ⟨follows.within.skipBlanks, follows.source, rfl⟩
  have inside := front.move_one shape isAscii
  rw [passed] at further
  refine ⟨congrArg Cursor.current (further.unique inside), ?_⟩
  rw [front.peek_of_cons shape, Option.any_some, isKind_quote.leadByte]
  simpa [Scanner.IsQuote] using isQuote

theorem positioned
    {behind : Cursor}
    (further : Follows text behind (Scanner.next scanner).2) :
    Positioned cursor (Scanner.next scanner).1 behind := by
  have counted := follows.within.offset_add_byteCount
  have atCursor := follows.counted
  have atBehind := further.counted
  have source := follows.source
  exact
    { boundary := follows.isValid
      inside := by rw [source]; omega
      forward := by
        rw [atCursor, atBehind]
        exact Scanner.offset_le_next scanner
      delivered := fun token isToken => by
        rw [atCursor, atBehind]
        exact Scanner.offset_lt_next isToken
      ended_iff := by rw [follows.forall_mem_remaining_iff, Scanner.ended_iff_blank]
      ended := fun ended => by
        rw [atBehind, source]
        exact Scanner.offset_of_ended follows.within ended
      unexpected := fun fragment offset reported => by
        rcases stays_of_unexpected further reported with ⟨stands, stays⟩
        rw [reported]
        exact ⟨stands, fun requests => ⟨after?_of_stays stays requests, stays⟩⟩
      unterminated := fun offset reported => follows.passes_of_unterminated further reported }

end Follows

/--
The cursor stays in position.

After any number of requests, however these have been answered, there is a cursor in the
same text, and the next request has an answer.
-/
theorem positioned_after (text : String) (requests : Nat) :
    ∃ cursor answer behind,
      (start text).after? requests = some cursor ∧ cursor.source = text ∧
      cursor.next? = some (answer, behind) ∧ behind.source = text ∧
      Positioned cursor answer behind := by
  rcases (follows_start text).after?_eq requests with ⟨cursor, reached, follows⟩
  rcases follows.next?_eq with ⟨behind, answered, further⟩
  exact ⟨cursor, _, behind, reached, follows.source, answered, further.source,
    follows.positioned further⟩

end ClassStore.Search.Cursor
