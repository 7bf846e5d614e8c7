import ClassStore.Text.Lines

/-!
# Texts inside an indented text

Indenting a text does not know what the text consists of.  A part of the text that
spans several lines is changed where a new line begins: `shift` says what becomes of
it.  Parts are shifted one by one as long as no end of a line is cut between them
(`shift_append`), and a part is left as it is exactly if it has no line feed
(`shift_eq_iff`).
-/

namespace ClassStore.Text

/-! ## Characters of an indented text -/

/-- The line that begins with the characters is empty. -/
def beginsEmptyLine : List Char → Bool
  | [] => false
  | first :: rest => first = '\n' ∨ (first = '\r' ∧ rest.head? = some '\n')

/-- What is put in front of the line that begins with the characters. -/
def margin (width : Nat) (characters : List Char) : List Char :=
  if beginsEmptyLine characters then [] else List.replicate width ' '

/-- What becomes of characters in an indented text if others follow on their last line. -/
def shifted (width : Nat) : List Char → List Char
  | [] => []
  | character :: rest =>
      if character = '\n' then
        '\n' :: (margin width rest ++ shifted width rest)
      else if character = '\r' ∧ rest.head? = some '\n' then
        shifted width rest
      else
        character :: shifted width rest

/-- The character is no part of the end of a line. -/
def isInline (character : Char) : Bool :=
  character != '\n' && character != '\r'

section Characters

variable
    {width : Nat}
    {character : Char}

theorem isInline_iff :
    isInline character = true ↔ character ≠ '\n' ∧ character ≠ '\r' := by
  rw [isInline, Bool.and_eq_true, bne_iff_ne, bne_iff_ne]

theorem head?_append_cons_iff
    (inline : isInline character = true)
    (front back : List Char) :
    (front ++ character :: back).head? = some '\n' ↔ front.head? = some '\n' := by
  cases front <;> simp [(isInline_iff.mp inline).1]

theorem beginsEmptyLine_append_cons
    (inline : isInline character = true)
    (front back : List Char) :
    beginsEmptyLine (front ++ character :: back) = beginsEmptyLine front := by
  cases front with
  | nil => simp [beginsEmptyLine, isInline_iff.mp inline]
  | cons first rest =>
      rw [List.cons_append, beginsEmptyLine, beginsEmptyLine]
      simp only [head?_append_cons_iff inline]

theorem shifted_cons
    (inline : isInline character = true)
    (rest : List Char) :
    shifted width (character :: rest) = character :: shifted width rest := by
  simp [shifted, isInline_iff.mp inline]

/-- Characters on both sides of an inline character do not see each other. -/
theorem shifted_append_cons
    (inline : isInline character = true)
    (front back : List Char) :
    shifted width (front ++ character :: back) =
      shifted width front ++ character :: shifted width back := by
  induction front with
  | nil => exact shifted_cons inline back
  | cons first front inductionHypothesis =>
      have sameMargin : margin width (front ++ character :: back) = margin width front := by
        rw [margin, beginsEmptyLine_append_cons inline, margin]
      rw [List.cons_append, shifted, shifted, inductionHypothesis, sameMargin]
      simp only [head?_append_cons_iff inline]
      split
      · simp
      · split <;> rfl

theorem head?_append_ne
    {front back : List Char}
    (oneLine : '\n' ∉ front)
    (noFeed : back.head? ≠ some '\n') :
    (front ++ back).head? ≠ some '\n' := by
  cases front with
  | nil => exact noFeed
  | cons first rest => exact fun isHead => oneLine (List.mem_of_head? isHead)

/-- Characters of one line are left as they are if the line goes on. -/
theorem shifted_append_of_not_mem
    {front back : List Char}
    (oneLine : '\n' ∉ front)
    (noFeed : back.head? ≠ some '\n') :
    shifted width (front ++ back) = front ++ shifted width back := by
  induction front with
  | nil => rfl
  | cons first rest inductionHypothesis =>
      rw [List.mem_cons, not_or] at oneLine
      rw [List.cons_append, shifted, if_neg (Ne.symm oneLine.1),
        if_neg fun isBreak => head?_append_ne oneLine.2 noFeed isBreak.2,
        inductionHypothesis oneLine.2, List.cons_append]

theorem shifted_of_not_mem
    {characters : List Char}
    (oneLine : '\n' ∉ characters) :
    shifted width characters = characters := by
  have keeps : shifted width (characters ++ []) = characters ++ shifted width [] :=
    shifted_append_of_not_mem oneLine nofun
  rwa [List.append_nil, shifted, List.append_nil] at keeps

theorem beginsEmptyLine_append
    {front back : List Char}
    (present : front ≠ [])
    (oneLine : '\n' ∉ front)
    (noFeed : back.head? ≠ some '\n') :
    beginsEmptyLine (front ++ back) = false := by
  obtain ⟨first, rest, rfl⟩ := List.exists_cons_of_ne_nil present
  rw [List.mem_cons, not_or] at oneLine
  rw [List.cons_append, beginsEmptyLine, decide_eq_false_iff_not, not_or]
  exact ⟨Ne.symm oneLine.1, fun isBreak => head?_append_ne oneLine.2 noFeed isBreak.2⟩

theorem mem_of_beginsEmptyLine
    {characters : List Char}
    (isEmpty : beginsEmptyLine characters = true) :
    '\n' ∈ characters := by
  match characters with
  | [] => cases isEmpty
  | first :: rest =>
      rcases of_decide_eq_true isEmpty with isFeed | ⟨-, isHead⟩
      · exact isFeed ▸ List.mem_cons_self
      · exact List.mem_cons_of_mem first (List.mem_of_head? isHead)

/-- No space is lost, and the last line feed is followed by a line that has been moved. -/
theorem count_space_shifted
    (characters : List Char) :
    characters.count ' ' + (if '\n' ∈ characters then width else 0) ≤
      (shifted width characters).count ' ' := by
  induction characters with
  | nil => simp [shifted]
  | cons first rest inductionHypothesis =>
      by_cases isFeed : first = '\n'
      · subst isFeed
        rw [shifted, if_pos rfl, if_pos List.mem_cons_self, List.count_cons_of_ne (by decide),
          List.count_cons_of_ne (by decide), List.count_append, margin]
        by_cases isEmpty : beginsEmptyLine rest = true
        -- An empty line is not moved, but it ends with another line feed.
        · rw [if_pos (mem_of_beginsEmptyLine isEmpty)] at inductionHypothesis
          rw [if_pos isEmpty, List.count_nil, Nat.zero_add]
          exact inductionHypothesis
        · rw [if_neg isEmpty, List.count_replicate_self]
          omega
      · have sameFeeds : '\n' ∈ first :: rest ↔ '\n' ∈ rest := by
          simp [Ne.symm isFeed]
        rw [shifted, if_neg isFeed]
        simp only [sameFeeds]
        by_cases isBreak : first = '\r' ∧ rest.head? = some '\n'
        · rw [if_pos isBreak, isBreak.1, List.count_cons_of_ne (by decide)]
          exact inductionHypothesis
        · rw [if_neg isBreak, List.count_cons, List.count_cons]
          omega

theorem shifted_eq_iff
    (positive : 0 < width)
    {characters : List Char} :
    shifted width characters = characters ↔ '\n' ∉ characters := by
  constructor
  · intro same isFeed
    have more : _ ≤ (shifted width characters).count ' ' := count_space_shifted characters
    rw [same, if_pos isFeed] at more
    omega
  · exact shifted_of_not_mem

end Characters

/-! ## Lines of an indented text -/

section Lines

variable
    {width : Nat}
    {line : List Char}

/-- What indenting makes of a line. -/
def moved (width : Nat) (line : List Char) : List Char :=
  (indentLine width (String.ofList line)).toList

theorem moved_nil : moved width [] = [] := by
  rfl

theorem moved_of_ne_nil
    (present : line ≠ []) :
    moved width line = List.replicate width ' ' ++ line := by
  have noText : (String.ofList line).isEmpty = false := by
    simpa [Bool.eq_false_iff, String.isEmpty_iff] using present
  simp [moved, indentLine, noText]

/-- A line is moved by its margin and keeps its characters but for a return at its end. -/
theorem margin_append_shifted_line
    (oneLine : '\n' ∉ line)
    (rest : List Char) :
    margin width (line.reverse ++ '\n' :: rest) ++ shifted width (line.reverse ++ '\n' :: rest) =
      moved width (dropReturn line).reverse ++
        '\n' :: (margin width rest ++ shifted width rest) := by
  match line with
  | [] =>
      simp [margin, beginsEmptyLine, shifted, dropReturn, moved_nil]
  | last :: front =>
      rw [List.mem_cons, not_or] at oneLine
      have frontLine : '\n' ∉ front.reverse := by
        rw [List.mem_reverse]
        exact oneLine.2
      rw [List.reverse_cons, List.append_assoc, List.singleton_append]
      by_cases isReturn : last = '\r'
      · subst isReturn
        have noFeed : ('\r' :: '\n' :: rest).head? ≠ some '\n' := by
          simp
        have ended : shifted width ('\r' :: '\n' :: rest) =
            '\n' :: (margin width rest ++ shifted width rest) := by
          simp [shifted]
        rw [shifted_append_of_not_mem frontLine noFeed, ended, dropReturn]
        by_cases nothing : front = []
        · subst nothing
          simp [margin, beginsEmptyLine, moved_nil]
        · have present : front.reverse ≠ [] := by
            simpa using nothing
          rw [margin, beginsEmptyLine_append present frontLine noFeed, moved_of_ne_nil present]
          simp
      · have inline : isInline last = true :=
          isInline_iff.mpr ⟨Ne.symm oneLine.1, isReturn⟩
        have kept : dropReturn (last :: front) = last :: front := by
          simp [dropReturn, isReturn]
        have noMargin : beginsEmptyLine front.reverse = false :=
          Bool.eq_false_iff.mpr fun isEmpty => frontLine (mem_of_beginsEmptyLine isEmpty)
        rw [shifted_append_cons inline, shifted_of_not_mem frontLine, margin,
          beginsEmptyLine_append_cons inline, noMargin, kept, moved_of_ne_nil (by simp)]
        simp [shifted]

theorem linesFrom_ne_nil
    {current characters : List Char}
    (present : current ≠ [] ∨ characters ≠ []) :
    linesFrom current characters ≠ [] := by
  fun_induction linesFrom current characters with
  | case1 current isEmpty => simp_all
  | case2 => simp
  | case3 => simp
  | case4 current character rest noFeed inductionHypothesis =>
      exact inductionHypothesis (.inl (by simp))

/-- Lines that are moved and joined again are the text, shifted behind its margin. -/
theorem join_linesFrom
    {current characters : List Char}
    (oneLine : '\n' ∉ current)
    (present : current ≠ [] ∨ characters ≠ [])
    (complete : characters.getLast? ≠ some '\n') :
    ['\n'].intercalate ((linesFrom current characters).map (moved width)) =
      margin width (current.reverse ++ characters) ++
        shifted width (current.reverse ++ characters) := by
  fun_induction linesFrom current characters with
  | case1 current isEmpty =>
      exact absurd (List.isEmpty_iff.mp isEmpty) (present.resolve_right (· rfl))
  | case2 current isPresent =>
      have lastLine : '\n' ∉ current.reverse := by
        rw [List.mem_reverse]
        exact oneLine
      have noMargin : beginsEmptyLine current.reverse = false :=
        Bool.eq_false_iff.mpr fun isEmpty => lastLine (mem_of_beginsEmptyLine isEmpty)
      rw [List.append_nil, shifted_of_not_mem lastLine, margin, noMargin, List.map_singleton,
        List.intercalate_singleton, moved_of_ne_nil (by simpa using isPresent)]
      rfl
  -- At the end of a line the margin of the next one is taken from the hypothesis.
  | case3 current rest inductionHypothesis =>
      have following : rest ≠ [] := by
        rintro rfl
        exact complete rfl
      have restComplete : rest.getLast? ≠ some '\n' := by
        rwa [List.getLast?_cons_of_ne_nil following] at complete
      rw [List.map_cons, List.intercalate_cons_of_ne_nil
          (by simpa using linesFrom_ne_nil (.inr following)),
        inductionHypothesis List.not_mem_nil (.inr following) restComplete,
        margin_append_shifted_line oneLine]
      simp
  | case4 current character rest noFeed inductionHypothesis =>
      have restComplete : rest.getLast? ≠ some '\n' := by
        by_cases nothing : rest = []
        · simp [nothing]
        · rwa [List.getLast?_cons_of_ne_nil nothing] at complete
      rw [inductionHypothesis (by simp [oneLine, Ne.symm noFeed]) (.inl (by simp)) restComplete]
      simp

end Lines

/-! ## Texts -/

section Texts

variable
    {width : Nat}

/-- What becomes of a text in an indented text if others follow on its last line. -/
def shift (width : Nat) (text : String) : String :=
  String.ofList (shifted width text.toList)

/-- The text begins in the middle of a line. -/
def opensInline (text : String) : Bool :=
  text.toList.head?.any isInline

/-- The text ends in the middle of a line. -/
def closesInline (text : String) : Bool :=
  text.toList.getLast?.any isInline

theorem closesInline_append
    {back : String}
    (closes : closesInline back = true)
    (front : String) :
    closesInline (front ++ back) = true := by
  obtain ⟨last, isLast, inline⟩ := (Option.any_eq_true _ _).mp closes
  rw [closesInline, String.toList_append, List.getLast?_append, isLast, Option.some_or]
  exact inline

theorem opensInline_append
    {front : String}
    (opens : opensInline front = true)
    (back : String) :
    opensInline (front ++ back) = true := by
  obtain ⟨first, isFirst, inline⟩ := (Option.any_eq_true _ _).mp opens
  rw [opensInline, String.toList_append, List.head?_append, isFirst, Option.some_or]
  exact inline

theorem shift_eq_iff
    (positive : 0 < width)
    {text : String} :
    shift width text = text ↔ '\n' ∉ text.toList := by
  rw [shift, ← String.toList_inj, String.toList_ofList, shifted_eq_iff positive]

/-- Parts of a text are shifted one by one if no end of a line is cut between them. -/
theorem shift_append
    {front back : String}
    (inline : closesInline front = true ∨ opensInline back = true) :
    shift width (front ++ back) = shift width front ++ shift width back := by
  suffices apart : shifted width (front.toList ++ back.toList) =
      shifted width front.toList ++ shifted width back.toList by
    rw [shift, String.toList_append, apart, String.ofList_append]
    rfl
  rcases inline with closes | opens
  · obtain ⟨last, isLast, inline⟩ := (Option.any_eq_true _ _).mp closes
    obtain ⟨rest, split⟩ := List.getLast?_eq_some_iff.mp isLast
    rw [split, List.append_assoc, List.singleton_append, shifted_append_cons inline,
      shifted_append_cons inline, shifted, List.append_assoc, List.singleton_append]
  · obtain ⟨first, isFirst, inline⟩ := (Option.any_eq_true _ _).mp opens
    obtain ⟨rest, split⟩ := List.head?_eq_some_iff.mp isFirst
    rw [split, shifted_append_cons inline, shifted_cons inline]

theorem shift_intercalate
    (parts : List String) :
    shift width (", ".intercalate parts) = ", ".intercalate (parts.map (shift width)) := by
  induction parts with
  | nil => rfl
  | cons part parts inductionHypothesis =>
      cases parts with
      | nil => simp
      | cons following parts =>
          have separated : shift width (part ++ ", ") = shift width part ++ ", " :=
            shift_append (.inr (by decide))
          rw [String.intercalate_cons_cons,
            shift_append (.inl (closesInline_append (by decide) part)), separated,
            inductionHypothesis]
          exact String.intercalate_cons_cons.symm

/-- An indented text is moved by its margin, and whatever it consists of is shifted. -/
theorem indent_eq
    {text : String}
    (present : text ≠ "")
    (complete : text.toList.getLast? ≠ some '\n') :
    indent width text = String.ofList (margin width text.toList) ++ shift width text := by
  have characters : text.toList ≠ [] := by
    simpa using present
  rw [← String.toList_inj, indent, String.toList_intercalate, lines, List.map_map, List.map_map,
    String.toList_append, String.toList_ofList, shift, String.toList_ofList]
  rw [String.toList_ofList]
  exact join_linesFrom List.not_mem_nil (.inr characters) complete

/-- A text whose first and last line are not empty is moved to the right and shifted. -/
theorem indent_of_inline
    {text : String}
    (opens : opensInline text = true)
    (closes : closesInline text = true) :
    indent width text = String.ofList (List.replicate width ' ') ++ shift width text := by
  obtain ⟨first, isFirst, firstInline⟩ := (Option.any_eq_true _ _).mp opens
  obtain ⟨last, isLast, lastInline⟩ := (Option.any_eq_true _ _).mp closes
  have present : text ≠ "" := by
    rintro rfl
    cases isFirst
  have complete : text.toList.getLast? ≠ some '\n' := by
    rw [isLast]
    exact fun isFeed => (isInline_iff.mp lastInline).1 (Option.some.inj isFeed)
  have moved : margin width text.toList = List.replicate width ' ' := by
    obtain ⟨rest, split⟩ := List.head?_eq_some_iff.mp isFirst
    simp [margin, split, beginsEmptyLine, isInline_iff.mp firstInline]
  rw [indent_eq present complete, moved]

/-- The text has the part in it. -/
def Contains (text part : String) : Prop :=
  ∃ front back, text = front ++ part ++ back

theorem Contains.within
    {text part : String}
    (contains : Contains text part)
    (front back : String) :
    Contains (front ++ text ++ back) part := by
  rcases contains with ⟨before, behind, rfl⟩
  exact ⟨front ++ before, behind ++ back, by simp only [String.append_assoc]⟩

/-- A part of a joined text is followed by the separator or ends the text. -/
theorem exists_intercalate_eq
    {parts : List String}
    {part : String}
    (isPart : part ∈ parts)
    (separator : String) :
    ∃ front back,
      separator.intercalate parts = front ++ part ++ back ∧
      (back = "" ∨ ∃ rest, back = separator ++ rest) := by
  rcases List.append_of_mem isPart with ⟨front, others, rfl⟩
  have behind : ∃ back,
      separator.intercalate (part :: others) = part ++ back ∧
      (back = "" ∨ ∃ rest, back = separator ++ rest) := by
    cases others with
    | nil => exact ⟨"", by simp, .inl rfl⟩
    | cons following others =>
        exact ⟨separator ++ separator.intercalate (following :: others), by
          rw [String.intercalate_cons_cons, String.append_assoc], .inr ⟨_, rfl⟩⟩
  rcases behind with ⟨back, split, follows⟩
  cases front with
  | nil => exact ⟨"", back, by rw [List.nil_append, split, String.empty_append], follows⟩
  | cons first front =>
      refine ⟨separator.intercalate (first :: front) ++ separator, back, ?_, follows⟩
      rw [String.intercalate_append_of_ne_nil (by simp) (by simp), split]
      simp only [String.append_assoc]

theorem contains_intercalate
    {parts : List String}
    {part : String}
    (isPart : part ∈ parts)
    (separator : String) :
    Contains (separator.intercalate parts) part := by
  rcases exists_intercalate_eq isPart separator with ⟨front, back, split, _⟩
  exact ⟨front, back, split⟩

end Texts

end ClassStore.Text
