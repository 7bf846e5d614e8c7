import Mathlib.Data.List.TakeWhile
import ClassStore.Proofs.Token.Step
import ClassStore.Proofs.Token.Run

/-!
# Positions of the scanner

The scanner counts the bytes in front of it.  `Within` says that it stands between
two characters of a text: the bytes that it has counted are those of the characters
in front, and the characters behind are the ones that it has still to read.  Every
request keeps this, whatever it is answered with.  A request never goes back, and a
token lies behind the position at which it was asked for.
-/

namespace ClassStore.Search.Scanner

open TokenStream

/-! ## Bytes of characters -/

@[simp]
theorem byteCount_append (front back : List Char) :
    byteCount (front ++ back) = byteCount front + byteCount back := by
  induction front with
  | nil => simp [byteCount]
  | cons character front inductionHypothesis =>
      simp only [List.cons_append, byteCount, inductionHypothesis, Nat.add_assoc]

theorem utf8ByteSize_ofList_eq (characters : List Char) :
    (String.ofList characters).utf8ByteSize = byteCount characters := by
  induction characters with
  | nil => rfl
  | cons character characters inductionHypothesis =>
      rw [String.ofList_cons, String.utf8ByteSize_append, String.utf8ByteSize_singleton,
        inductionHypothesis, byteCount]

theorem byteCount_toList (text : String) : byteCount text.toList = text.utf8ByteSize := by
  rw [← utf8ByteSize_ofList_eq, String.ofList_toList]

theorem byteCount_pos
    {characters : List Char}
    (nonempty : characters ≠ []) :
    0 < byteCount characters := by
  cases characters with
  | nil => exact absurd rfl nonempty
  | cons character characters =>
      have width := character.utf8Size_pos
      rw [byteCount]
      omega

/-! ## Between the characters of a text -/

/-- The scanner has counted the bytes in front of it and has what is behind it still to read. -/
def Within (text : String) (scanner : Scanner) : Prop :=
  ∃ before, text.toList = before ++ scanner.rest ∧ scanner.offset = byteCount before

theorem within_start (text : String) : Within text (start text) :=
  ⟨[], rfl, rfl⟩

namespace Within

variable {text : String} {scanner : Scanner}

theorem advance
    (within : Within text scanner)
    (length : Nat) :
    Within text (scanner.advance length) := by
  rcases within with ⟨before, split, counted⟩
  refine ⟨before ++ scanner.rest.take length, ?_, ?_⟩
  · rw [split, List.append_assoc, Scanner.advance, List.take_append_drop]
  · rw [Scanner.advance, byteCount_append, counted]

theorem skipBlanks
    (within : Within text scanner) :
    Within text scanner.skipBlanks :=
  within.advance _

/-- A request leaves the scanner between two characters, also if it fails. -/
theorem next
    (within : Within text scanner) :
    Within text (next scanner).2 := by
  have behindBlanks := within.skipBlanks
  have step := step_next scanner
  generalize Scanner.next scanner = answer at step
  cases step with
  | ended => exact behindBlanks
  | literal => exact behindBlanks.advance _
  | unclosed => exact behindBlanks.advance _
  | lexeme => exact behindBlanks.advance _
  | unknown => exact behindBlanks

/-- What has been counted and what is left make up the text. -/
theorem offset_add_byteCount
    (within : Within text scanner) :
    scanner.offset + byteCount scanner.rest = text.utf8ByteSize := by
  rcases within with ⟨before, split, counted⟩
  rw [counted, ← byteCount_append, ← split, byteCount_toList]

end Within

/-- The offset is that of a position in the text, behind which the rest stands. -/
def Divides (text : String) (offset : Nat) (rest : List Char) : Prop :=
  ∃ (position : text.Pos) (before : String),
    position.Splits before (String.ofList rest) ∧ position.offset.byteIdx = offset

theorem Within.divides
    {text : String}
    {scanner : Scanner}
    (within : Within text scanner) :
    Divides text scanner.offset scanner.rest := by
  rcases within with ⟨before, split, counted⟩
  have joined : text = String.ofList before ++ String.ofList scanner.rest := by
    rw [← String.ofList_append, ← split, String.ofList_toList]
  have isValid : (String.ofList before).rawEndPos.IsValid text :=
    String.Pos.Raw.isValid_iff_exists_append.mpr ⟨_, _, joined, rfl⟩
  refine ⟨⟨_, isValid⟩, String.ofList before, ⟨joined, rfl⟩, ?_⟩
  rw [counted, ← utf8ByteSize_ofList_eq]
  rfl

/-! ## Blanks -/

@[simp]
theorem advance_zero (scanner : Scanner) : scanner.advance 0 = scanner :=
  rfl

theorem rest_skipBlanks (scanner : Scanner) :
    scanner.skipBlanks.rest = scanner.rest.dropWhile Text.isBlank := by
  have split : scanner.rest.takeWhile Text.isBlank ++ scanner.rest.dropWhile Text.isBlank =
      scanner.rest :=
    List.takeWhile_append_dropWhile
  calc
    scanner.skipBlanks.rest =
        (scanner.rest.takeWhile Text.isBlank ++ scanner.rest.dropWhile Text.isBlank).drop
          (scanner.rest.takeWhile Text.isBlank).length := by
      rw [split, skipBlanks, advance]
    _ = scanner.rest.dropWhile Text.isBlank := List.drop_left

theorem rest_skipBlanks_eq_nil_iff {scanner : Scanner} :
    scanner.skipBlanks.rest = [] ↔
      ∀ character ∈ scanner.rest, Text.isBlank character = true := by
  rw [rest_skipBlanks, List.dropWhile_eq_nil_iff]

/-- What stands behind the blanks is none. -/
theorem isBlank_eq_false_of_rest_skipBlanks
    {scanner : Scanner}
    {first : Char}
    {following : List Char}
    (shape : scanner.skipBlanks.rest = first :: following) :
    Text.isBlank first = false := by
  have visible := List.head?_dropWhile_not Text.isBlank scanner.rest
  rw [← rest_skipBlanks, shape] at visible
  exact visible

theorem skipBlanks_of_visible
    {scanner : Scanner}
    {first : Char}
    {following : List Char}
    (shape : scanner.rest = first :: following)
    (visible : Text.isBlank first = false) :
    scanner.skipBlanks = scanner := by
  rw [skipBlanks, shape, List.takeWhile_cons_of_neg (by simp [visible]), List.length_nil,
    advance_zero]

/-- Blanks in front only move the position. -/
theorem skipBlanks_append
    {blanks : List Char}
    (areBlank : ∀ character ∈ blanks, Text.isBlank character = true)
    (rest : List Char)
    (offset : Nat) :
    skipBlanks ⟨blanks ++ rest, offset⟩ = skipBlanks ⟨rest, offset + byteCount blanks⟩ := by
  simp only [skipBlanks, advance, List.takeWhile_append_of_pos areBlank, List.length_append,
    List.drop_length_add_append, List.take_length_add_append, byteCount_append, Nat.add_assoc]

/-! ## Requests -/

/-- Where the scanner stands after the given number of requests, whatever they are answered with. -/
def after (scanner : Scanner) : Nat → Scanner
  | 0 => scanner
  | requests + 1 => (next (scanner.after requests)).2

theorem Within.after
    {text : String}
    {scanner : Scanner}
    (within : Within text scanner)
    (requests : Nat) :
    Within text (scanner.after requests) := by
  induction requests with
  | zero => exact within
  | succ requests inductionHypothesis => exact inductionHypothesis.next

theorem offset_le_advance (scanner : Scanner) (length : Nat) :
    scanner.offset ≤ (scanner.advance length).offset :=
  Nat.le_add_right _ _

theorem offset_lt_advance
    {scanner : Scanner}
    {length : Nat}
    (positive : 0 < length)
    (remaining : scanner.rest ≠ []) :
    scanner.offset < (scanner.advance length).offset := by
  have passed : scanner.rest.take length ≠ [] := by
    rw [ne_eq, List.take_eq_nil_iff, not_or]
    exact ⟨Nat.ne_of_gt positive, remaining⟩
  exact Nat.lt_add_of_pos_right (byteCount_pos passed)

theorem offset_le_next (scanner : Scanner) :
    scanner.offset ≤ (next scanner).2.offset := by
  have behindBlanks : scanner.offset ≤ scanner.skipBlanks.offset := offset_le_advance _ _
  have step := step_next scanner
  generalize next scanner = answer at step
  cases step with
  | ended => exact behindBlanks
  | literal => exact behindBlanks.trans (offset_le_advance _ _)
  | unclosed => exact behindBlanks.trans (offset_le_advance _ _)
  | lexeme => exact behindBlanks.trans (offset_le_advance _ _)
  | unknown => exact behindBlanks

/-- A token lies behind the position at which it was asked for. -/
theorem offset_lt_next
    {scanner : Scanner}
    {token : Token}
    (delivered : (next scanner).1 = .ok (some token)) :
    scanner.offset < (next scanner).2.offset := by
  have behindBlanks : scanner.offset ≤ scanner.skipBlanks.offset := offset_le_advance _ _
  rcases (step_of_answer delivered).exists_length with ⟨length, positive, remaining, moved⟩
  rw [moved]
  exact Nat.lt_of_le_of_lt behindBlanks (offset_lt_advance positive remaining)

/-- The scanner has come to the end exactly if nothing but blanks is left. -/
theorem ended_iff_blank {scanner : Scanner} :
    (next scanner).1 = .ok none ↔
      ∀ character ∈ scanner.rest, Text.isBlank character = true := by
  rw [← rest_skipBlanks_eq_nil_iff]
  constructor
  · intro ended
    have step := step_of_answer ended
    generalize (next scanner).2 = following at step
    cases step with
    | ended atEnd => exact atEnd
  · intro atEnd
    rw [next_eq_iff_step.mpr (.ended atEnd)]

/-- Behind the blanks the scanner stays in front of a character that begins no token. -/
theorem next_eq_of_unexpected
    {scanner : Scanner}
    {fragment : String}
    {offset : Nat}
    (reported : (next scanner).1 = .error (.unexpectedInput fragment offset)) :
    next scanner.skipBlanks = (.error (.unexpectedInput fragment offset), scanner.skipBlanks) := by
  rcases (step_of_answer reported).of_unexpected with ⟨stays, _, first, others, shape, _⟩
  have visible := isBlank_eq_false_of_rest_skipBlanks shape
  rw [next_congr (skipBlanks_of_visible shape visible)]
  exact Prod.ext reported stays

theorem offset_of_ended
    {text : String}
    {scanner : Scanner}
    (within : Within text scanner)
    (ended : (next scanner).1 = .ok none) :
    (next scanner).2.offset = text.utf8ByteSize := by
  have step := step_of_answer ended
  have left := within.next.offset_add_byteCount
  generalize (next scanner).2 = following at step left
  cases step with
  | ended atEnd => rwa [atEnd, byteCount, Nat.add_zero] at left

end ClassStore.Search.Scanner
