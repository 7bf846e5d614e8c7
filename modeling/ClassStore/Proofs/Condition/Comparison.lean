import ClassStore.Proofs.Condition.Reader
import ClassStore.Proofs.Query.Tree

/-!
# Comparisons read back

The text of a comparison is read as one comparison, whatever the name of its
column is: a keyword counts only behind the first lexeme and outside of the
parentheses of a call.
-/

namespace ClassStore.Query

open ClassStore.Date
open ClassStore.Search
open Lexeme

/-! ## Texts that can be read on their own -/

namespace Lexeme

/-- The text stands for its lexemes wherever what follows does not continue it. -/
def Readable (text : String) : Prop :=
  Reads text.toList (ofText text)

theorem Reads.readable
    {text : String}
    {lexemes : List Lexeme}
    (reads : Reads text.toList lexemes) :
    Readable text := by
  rw [Readable, reads.ofText_eq]
  exact reads

/-- The separator joins any two texts, adding lexemes of its own between them. -/
def Joins (separator : String) (lexemes : List Lexeme) : Prop :=
  ∀ front back frontLexemes backLexemes,
    Reads front frontLexemes →
    Reads back backLexemes →
    Reads (front ++ separator.toList ++ back) (frontLexemes ++ lexemes ++ backLexemes)

theorem joins_comma : Joins ", " [.mark ','] := by
  intro front back frontLexemes backLexemes frontReads backReads
  have joined := frontReads.mark ',' rfl (Reads.nil.blank backReads)
  simpa using joined

theorem joins_word
    (word : String)
    (plain : isPlainName word = true) :
    Joins (" " ++ word ++ " ") [ofWord word] := by
  intro front back frontLexemes backLexemes frontReads backReads
  have joined := frontReads.blank ((reads_word plain).blank backReads)
  simpa using joined

/-- Readable texts with separators between them stand for their lexemes, separated. -/
theorem reads_intercalate
    {separator : String}
    {lexemes : List Lexeme}
    (joins : Joins separator lexemes)
    {texts : List String}
    (readable : ∀ text ∈ texts, Readable text) :
    Reads (String.intercalate separator texts).toList
      (List.intercalate lexemes (texts.map ofText)) := by
  induction texts with
  | nil => exact Reads.nil
  | cons text texts inductionHypothesis =>
      have first : Reads text.toList (ofText text) := readable text List.mem_cons_self
      cases texts with
      | nil => simpa using first
      | cons following texts =>
          have others := inductionHypothesis fun other member =>
            readable other (List.mem_cons_of_mem _ member)
          have joined := joins _ _ _ _ first others
          simpa using joined

end Lexeme

/-! ## Lexemes of a comparison -/

namespace Member

/-- Reads lexemes that all belong to one comparison. -/
def run? (member : Member) (lexemes : List Lexeme) : Option Member :=
  lexemes.foldlM extend? member

@[simp]
theorem run?_nil (member : Member) : member.run? [] = some member :=
  rfl

theorem run?_append
    {first second third : Member}
    {front back : List Lexeme}
    (frontRun : first.run? front = some second)
    (backRun : second.run? back = some third) :
    first.run? (front ++ back) = some third := by
  simp only [run?, List.foldlM_append] at *
  simp [frontRun, backRun]

/-- Lexemes that any comparison goes on with, at the given depths of parentheses. -/
def Continues (depths : Nat → Prop) (lexemes : List Lexeme) : Prop :=
  ∀ read depth bounding, depths depth →
    (comparing read depth bounding).run? lexemes =
      some (comparing (read ++ lexemes) depth bounding)

theorem Continues.nil (depths : Nat → Prop) : Continues depths [] := by
  intro read depth bounding _
  simp

theorem Continues.append
    {depths : Nat → Prop}
    {front back : List Lexeme}
    (frontContinues : Continues depths front)
    (backContinues : Continues depths back) :
    Continues depths (front ++ back) := by
  intro read depth bounding allowed
  rw [← List.append_assoc]
  exact run?_append (frontContinues read depth bounding allowed)
    (backContinues (read ++ front) depth bounding allowed)

/-- Within parentheses anything but a parenthesis belongs to the comparison. -/
theorem continues_inside
    {lexeme : Lexeme}
    (opens : lexeme ≠ .mark '(')
    (closes : lexeme ≠ .mark ')') :
    Continues (0 < ·) [lexeme] := by
  intro read depth bounding inside
  cases depth with
  | zero => exact absurd inside (Nat.lt_irrefl 0)
  | succ depth => simp [run?, extend?, depthBehind, opens, closes]

/-- A lexeme that is neither a keyword nor a parenthesis belongs to the comparison. -/
theorem continues_anywhere
    {lexeme : Lexeme}
    (free : lexeme ∉ [ofWord "BETWEEN", ofWord "AND", ofWord "OR", .mark '(', .mark ')']) :
    Continues (fun _ => True) [lexeme] := by
  intro read depth bounding _
  simp only [List.mem_cons, List.not_mem_nil, or_false, not_or] at free
  rcases free with ⟨noBetween, noAnd, noOr, opens, closes⟩
  cases depth with
  | zero => simp [run?, extend?, depthBehind, noBetween, noAnd, noOr, opens, closes]
  | succ depth => simp [run?, extend?, depthBehind, opens, closes]

/-- A call belongs to the comparison if its arguments do. -/
theorem Continues.parentheses
    {lexemes : List Lexeme}
    (inside : Continues (0 < ·) lexemes) :
    Continues (fun _ => True) (.mark '(' :: (lexemes ++ [.mark ')'])) := by
  intro read depth bounding _
  have opening : (comparing read depth bounding).run? [.mark '('] =
      some (comparing (read ++ [.mark '(']) (depth + 1) bounding) := by
    cases depth <;> simp [run?, extend?, depthBehind, ofWord]
  have closing : ∀ before,
      (comparing before (depth + 1) bounding).run? [.mark ')'] =
        some (comparing (before ++ [.mark ')']) depth bounding) := by
    intro before
    simp [run?, extend?, depthBehind]
  have whole := run?_append (run?_append opening
    (inside _ (depth + 1) bounding (Nat.succ_pos depth))) (closing _)
  simpa using whole

theorem Continues.weaken
    {depths fewer : Nat → Prop}
    (implies : ∀ depth, fewer depth → depths depth)
    {lexemes : List Lexeme}
    (continues : Continues depths lexemes) :
    Continues fewer lexemes :=
  fun read depth bounding allowed => continues read depth bounding (implies depth allowed)

/-- A word that begins a comparison belongs to it, whatever it is. -/
theorem run?_awaited_word (name : String) :
    awaited.run? [ofWord name] = some (comparing [ofWord name] 0 false) := by
  simp [run?, extend?, ofWord]

end Member

/-! ## Parts of a comparison -/

/-- A part of a comparison that stands for lexemes which go on with it. -/
def Part (depths : Nat → Prop) (text : String) : Prop :=
  Readable text ∧ Member.Continues depths (ofText text)

theorem Part.of_reads
    {depths : Nat → Prop}
    {text : String}
    {lexemes : List Lexeme}
    (reads : Reads text.toList lexemes)
    (continues : Member.Continues depths lexemes) :
    Part depths text := by
  constructor
  · exact reads.readable
  · rw [reads.ofText_eq]
    exact continues

theorem Part.blank
    {depths : Nat → Prop}
    {front back : String}
    (frontPart : Part depths front)
    (backPart : Part depths back) :
    Part depths (front ++ " " ++ back) := by
  have reads : Reads (front ++ " " ++ back).toList (ofText front ++ ofText back) := by
    simpa using frontPart.1.blank backPart.1
  exact .of_reads reads (frontPart.2.append backPart.2)

theorem Part.comma
    {front back : String}
    (frontPart : Part (0 < ·) front)
    (backPart : Part (0 < ·) back) :
    Part (0 < ·) (front ++ ", " ++ back) := by
  have reads : Reads (front ++ ", " ++ back).toList
      (ofText front ++ [.mark ','] ++ ofText back) := by
    simpa using joins_comma _ _ _ _ frontPart.1 backPart.1
  have comma : Member.Continues (0 < ·) [.mark ','] :=
    Member.continues_inside (by decide) (by decide)
  exact .of_reads reads ((frontPart.2.append comma).append backPart.2)

theorem Part.parentheses
    {arguments : String}
    (inside : Part (0 < ·) arguments) :
    Part (fun _ => True) ("(" ++ arguments ++ ")") := by
  have reads : Reads ("(" ++ arguments ++ ")").toList
      (.mark '(' :: (ofText arguments ++ [.mark ')'])) := by
    have closed := inside.1.mark ')' rfl Reads.nil
    simpa using Reads.nil.mark '(' rfl closed
  exact .of_reads reads inside.2.parentheses

theorem Part.call
    {function arguments : String}
    (functionPart : Part (fun _ => True) function)
    (inside : Part (0 < ·) arguments) :
    Part (fun _ => True) (function ++ "(" ++ arguments ++ ")") := by
  have reads : Reads (function ++ "(" ++ arguments ++ ")").toList
      (ofText function ++ (.mark '(' :: (ofText arguments ++ [.mark ')']))) := by
    have closed := inside.1.mark ')' rfl Reads.nil
    simpa using functionPart.1.mark '(' rfl closed
  exact .of_reads reads (functionPart.2.append inside.2.parentheses)

theorem Part.inside
    {text : String}
    (part : Part (fun _ => True) text) :
    Part (0 < ·) text :=
  ⟨part.1, part.2.weaken fun _ _ => trivial⟩

theorem part_word
    {word : String}
    (plain : isPlainName word = true)
    (free : ofWord word ∉ [ofWord "BETWEEN", ofWord "AND", ofWord "OR", .mark '(', .mark ')']) :
    Part (fun _ => True) word :=
  .of_reads (reads_word plain) (Member.continues_anywhere free)

theorem part_name
    {name : String}
    (plain : isPlainName name = true) :
    Part (0 < ·) name :=
  .of_reads (reads_word plain) (Member.continues_inside (by simp [ofWord]) (by simp [ofWord]))

theorem part_literal
    {text : String}
    (unquoted : ∀ character ∈ text.toList, character ≠ apostrophe) :
    Part (0 < ·) ("'" ++ text ++ "'") := by
  have reads : Reads ("'" ++ text ++ "'").toList [.literal text.toList] := by
    simpa [apostrophe] using reads_literal unquoted
  exact .of_reads reads (Member.continues_inside (by simp) (by simp))

theorem part_sign
    {text : String}
    (sign : isSign text = true) :
    Part (fun _ => True) text := by
  simp only [isSign, Bool.and_eq_true, Bool.not_eq_true', String.isEmpty_eq_false_iff,
    List.all_eq_true] at sign
  rcases sign with ⟨nonempty, all⟩
  have reads := reads_sign (fun none => nonempty (String.toList_eq_nil_iff.mp none)) all
  exact .of_reads reads (Member.continues_anywhere (by simp [ofWord]))

theorem part_comparison
    (backend : Backend)
    (comparison : SqlComparison) :
    Part (fun _ => True) (comparison.sql backend) := by
  have notWord : Part (fun _ => True) "NOT" := part_word rfl (by decide)
  cases comparison with
  | eq => exact part_sign (by cases backend <;> rfl)
  | ne => exact part_sign (by cases backend <;> rfl)
  | lt => exact part_sign (by cases backend <;> rfl)
  | le => exact part_sign (by cases backend <;> rfl)
  | gt => exact part_sign (by cases backend <;> rfl)
  | ge => exact part_sign (by cases backend <;> rfl)
  | like => exact part_word (by cases backend <;> decide) (by cases backend <;> decide)
  | notLike =>
      have like : Part (fun _ => True) "LIKE" := part_word rfl (by decide)
      cases backend <;> exact notWord.blank like
  | regex =>
      cases backend with
      | postgres => exact part_sign rfl
      | sqlite => exact part_word rfl (by decide)
  | notRegex =>
      have regexp : Part (fun _ => True) "REGEXP" := part_word rfl (by decide)
      cases backend with
      | postgres => exact part_sign rfl
      | sqlite => exact notWord.blank regexp

/-! ## Whole comparisons -/

/-- The text is read as one comparison where a member of a group has to begin. -/
def Begins (text : String) : Prop :=
  Readable text ∧
    Member.awaited.run? (ofText text) = some (.comparing (ofText text) 0 false)

theorem begins_name
    {name : String}
    (plain : isPlainName name = true) :
    Begins name := by
  constructor
  · exact (reads_word plain).readable
  · rw [(reads_word plain).ofText_eq]
    exact Member.run?_awaited_word name

theorem Begins.of_reads
    {text : String}
    {front back : List Lexeme}
    (reads : Reads text.toList (front ++ back))
    (begins : Member.awaited.run? front = some (.comparing front 0 false))
    (continues : (Member.comparing front 0 false).run? back =
      some (.comparing (front ++ back) 0 false)) :
    Begins text := by
  constructor
  · exact reads.readable
  · rw [reads.ofText_eq]
    exact Member.run?_append begins continues

/-- It does not matter how a text is put together. -/
theorem Begins.congr
    {text other : String}
    (begins : Begins text)
    (same : text.toList = other.toList) :
    Begins other := by
  rwa [← String.toList_inj.mp same]

theorem Begins.blank
    {front back : String}
    (begins : Begins front)
    (part : Part (fun _ => True) back) :
    Begins (front ++ " " ++ back) := by
  have reads : Reads (front ++ " " ++ back).toList (ofText front ++ ofText back) := by
    simpa using begins.1.blank part.1
  exact .of_reads reads begins.2 (part.2 _ 0 false trivial)

theorem Begins.call
    {function arguments : String}
    (begins : Begins function)
    (inside : Part (0 < ·) arguments) :
    Begins (function ++ "(" ++ arguments ++ ")") := by
  have reads : Reads (function ++ "(" ++ arguments ++ ")").toList
      (ofText function ++ (.mark '(' :: (ofText arguments ++ [.mark ')']))) := by
    have closed := inside.1.mark ')' rfl Reads.nil
    simpa using begins.1.mark '(' rfl closed
  exact .of_reads reads begins.2 (inside.2.parentheses _ 0 false trivial)

/-- The AND of a BETWEEN belongs to the comparison. -/
theorem Begins.between
    {front low high : String}
    (begins : Begins front)
    (lowPart : Part (fun _ => True) low)
    (highPart : Part (fun _ => True) high) :
    Begins (front ++ " BETWEEN " ++ low ++ " AND " ++ high) := by
  have reads : Reads (front ++ " BETWEEN " ++ low ++ " AND " ++ high).toList
      (ofText front ++
        ([ofWord "BETWEEN"] ++ (ofText low ++ ([ofWord "AND"] ++ ofText high)))) := by
    have joinsBetween := joins_word "BETWEEN" rfl
    have joinsAnd := joins_word "AND" rfl
    have bounds := joinsAnd _ _ _ _ lowPart.1 highPart.1
    simpa using joinsBetween _ _ _ _ begins.1 bounds
  refine .of_reads reads begins.2 ?_
  have opening : (Member.comparing (ofText front) 0 false).run? [ofWord "BETWEEN"] =
      some (.comparing (ofText front ++ [ofWord "BETWEEN"]) 0 true) := by
    simp [Member.run?, Member.extend?]
  have joining : ∀ before,
      (Member.comparing before 0 true).run? [ofWord "AND"] =
        some (.comparing (before ++ [ofWord "AND"]) 0 false) := by
    intro before
    simp [Member.run?, Member.extend?, ofWord]
  have whole := Member.run?_append opening
    (Member.run?_append (lowPart.2 _ 0 true trivial)
      (Member.run?_append (joining _) (highPart.2 _ 0 false trivial)))
  simpa using whole

theorem part_placeholder
    (backend : Backend)
    (folded : Bool) :
    Part (fun _ => True) ((Fragment.placeholder folded).sql backend) := by
  have mark : Part (fun _ => True) "?" := by
    have reads : Reads "?".toList [.mark '?'] := Reads.nil.mark '?' rfl Reads.nil
    exact .of_reads reads (Member.continues_anywhere (by decide))
  cases folded with
  | false => exact mark
  | true =>
      have function : Part (fun _ => True) "LOWER" := part_word rfl (by decide)
      have call := function.call mark.inside
      simpa [Fragment.sql, Fragment.foldedSql] using call

theorem part_placeholders
    (backend : Backend)
    (count : Nat)
    (folded : Bool) :
    Part (0 < ·)
      (String.intercalate ", " (Fragment.sqls backend (placeholders count folded))) := by
  rw [Fragment.sqls_eq_map, placeholders, List.map_replicate]
  have item := (part_placeholder backend folded).inside
  induction count with
  | zero => exact .of_reads Reads.nil (Member.Continues.nil _)
  | succ count inductionHypothesis =>
      cases count with
      | zero => simpa using item
      | succ count =>
          rw [List.replicate_succ, List.replicate_succ, String.intercalate_cons_cons,
            ← List.replicate_succ]
          exact item.comma inductionHypothesis

/-- The patterns of dates contain no quotes. -/
theorem ne_apostrophe_of_mem_pattern
    {backend : Backend}
    {segments : SegmentSet}
    {character : Char}
    (member : character ∈ (segments.pattern backend).toList) :
    character ≠ apostrophe := by
  have each : ∀ segment : Segment, apostrophe ∉ (segment.pattern backend).toList := by
    intro segment
    cases backend <;> cases segment <;> decide
  rintro rfl
  simp only [SegmentSet.pattern, String.toList_join, List.mem_flatMap, List.mem_map] at member
  rcases member with ⟨_, ⟨segment, _, rfl⟩, inside⟩
  exact each segment inside

theorem begins_subject
    (backend : Backend)
    {column : String}
    (plain : isPlainName column = true)
    {subject : Fragment}
    (isSubject : Fragment.Subject column subject) :
    Begins (subject.sql backend) := by
  cases isSubject with
  | column folded =>
      cases folded with
      | false => exact begins_name plain
      | true =>
          have function : Begins "LOWER" := begins_name rfl
          exact (function.call (part_name plain)).congr
            (by simp [Fragment.sql, Fragment.foldedSql])
  | datePart segments =>
      have literal : Part (0 < ·) ("'" ++ segments.pattern backend ++ "'") :=
        part_literal fun _ => ne_apostrophe_of_mem_pattern
      cases backend with
      | postgres =>
          have function : Begins "TO_CHAR" := begins_name rfl
          exact (function.call ((part_name plain).comma literal)).congr
            (by simp [Fragment.sql, Fragment.datePartSql])
      | sqlite =>
          have function : Begins "STRFTIME" := begins_name rfl
          exact (function.call (literal.comma (part_name plain))).congr
            (by simp [Fragment.sql, Fragment.datePartSql])

/-- The text of a comparison is read as one comparison. -/
theorem begins_comparing
    (backend : Backend)
    {column : String}
    (plain : isPlainName column = true)
    {fragment : Fragment}
    (comparing : Fragment.Comparing column fragment) :
    Begins (fragment.sql backend) := by
  have notWord : Part (fun _ => True) "NOT" := part_word rfl (by decide)
  cases comparing with
  | compare isSubject comparison folded =>
      exact ((begins_subject backend plain isSubject).blank
        (part_comparison backend comparison)).blank (part_placeholder backend folded)
  | between isSubject folded negated =>
      have subject := begins_subject backend plain isSubject
      have bound := part_placeholder backend folded
      cases negated with
      | false =>
          exact (subject.between bound bound).congr
            (by simp [Fragment.sql, Fragment.negation])
      | true =>
          exact ((subject.blank notWord).between bound bound).congr
            (by simp [Fragment.sql, Fragment.negation])
  | among isSubject count positive folded negated =>
      have subject := begins_subject backend plain isSubject
      have items := (part_placeholders backend count folded).parentheses
      have inWord : Part (fun _ => True) "IN" := part_word rfl (by decide)
      cases negated with
      | false =>
          exact ((subject.blank inWord).blank items).congr
            (by simp [Fragment.sql, Fragment.negation])
      | true =>
          exact (((subject.blank notWord).blank inWord).blank items).congr
            (by simp [Fragment.sql, Fragment.negation])
  | isNull isSubject negated =>
      have subject := begins_subject backend plain isSubject
      have isWord : Part (fun _ => True) "IS" := part_word rfl (by decide)
      have nullWord : Part (fun _ => True) "NULL" := part_word rfl (by decide)
      cases negated with
      | false =>
          exact ((subject.blank isWord).blank nullWord).congr
            (by simp [Fragment.sql, Fragment.negation])
      | true =>
          exact (((subject.blank isWord).blank notWord).blank nullWord).congr
            (by simp [Fragment.sql, Fragment.negation])

end ClassStore.Query
