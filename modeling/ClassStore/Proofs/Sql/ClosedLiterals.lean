import ClassStore.Proofs.Sql.Constants
import ClassStore.Proofs.Text.Layout

/-!
# Literals inside statements

A reader that has come to a string literal reads the text that the literal denotes and goes
on right behind it, exactly if no further quote follows there
(`readString_literal_append_iff`).  So a text cannot end its literal early, whatever quotes
it has, and different texts have different literals (`literal_injective`).

A statement `Quotes` a text behind a given lead if its literal stands there and is read as a
whole.  It still does when the statement becomes part of a longer one (`Quotes.within`,
`Quotes.of_mem_intercalate`) and when it is laid out: then the lines of the text are moved,
but no line leaves the literal (`Quotes.indent`).
-/

namespace ClassStore.Sql

/-! ## Reading a literal -/

/-- Reads a string literal at the beginning of the text: what it denotes, and what follows it. -/
def readString (text : String) : Option (String × String) :=
  match text.toList with
  | '\'' :: rest => (readLiteral rest).map (Prod.map String.ofList String.ofList)
  | _ => none

theorem toList_literal (text : String) :
    (literal text).toList = '\'' :: (doubleQuotes text.toList ++ ['\'']) := by
  rw [literal, String.toList_ofList, List.cons_append]

theorem doubleQuotes_of_not_mem
    {characters : List Char}
    (noQuote : '\'' ∉ characters) :
    doubleQuotes characters = characters := by
  induction characters with
  | nil => rfl
  | cons character characters inductionHypothesis =>
      rw [List.mem_cons, not_or] at noQuote
      rw [doubleQuotes, if_neg (Ne.symm noQuote.1), inductionHypothesis noQuote.2]

/-- The literal of a text without quotes is the text between quotes. -/
theorem literal_of_not_mem
    {text : String}
    (noQuote : '\'' ∉ text.toList) :
    literal text = "'" ++ text ++ "'" := by
  rw [← String.toList_inj, toList_literal, doubleQuotes_of_not_mem noQuote]
  simp

/-- Behind its first quote, a literal is its text and then a quote. -/
theorem readString_literal_append (value back : String) :
    readString (literal value ++ back) =
      (readLiteral ('\'' :: back.toList)).map fun (content, rest) =>
        (value ++ String.ofList content, String.ofList rest) := by
  have characters : (literal value ++ back).toList =
      '\'' :: (doubleQuotes value.toList ++ '\'' :: back.toList) := by
    rw [String.toList_append, toList_literal, List.cons_append, List.append_assoc,
      List.singleton_append]
  rw [readString, characters]
  show (readLiteral (doubleQuotes value.toList ++ '\'' :: back.toList)).map
    (Prod.map String.ofList String.ofList) = _
  rw [readLiteral_doubleQuotes_append, Option.map_map]
  congr 1
  funext ⟨content, rest⟩
  simp

/-- A reader stops behind a literal exactly if no quote follows it. -/
theorem readString_literal_append_iff
    {value back : String} :
    readString (literal value ++ back) = some (value, back) ↔
      back.toList.head? ≠ some '\'' := by
  rw [readString_literal_append, readLiteral_quote]
  split
  -- With a quote behind it, a literal is read as one of a longer text.
  · next doubled =>
      simp only [doubled, ne_eq, not_true_eq_false, iff_false]
      intro reads
      rw [Option.map_map, Option.map_eq_some_iff] at reads
      rcases reads with ⟨⟨content, rest⟩, _, same⟩
      have sameValue : value ++ String.ofList ('\'' :: content) = value := (Prod.mk.inj same).1
      simpa using congrArg String.length sameValue
  · next ended => simp [ended]

theorem readString_literal_append_of_ended
    {back : String}
    (ended : back.toList.head? ≠ some '\'')
    (value : String) :
    readString (literal value ++ back) = some (value, back) :=
  readString_literal_append_iff.mpr ended

/-- Different texts have different literals. -/
theorem literal_injective : Function.Injective literal := by
  intro first second same
  have readsFirst : readString (literal first ++ "") = some (first, "") :=
    readString_literal_append_of_ended (by simp) first
  have readsSecond : readString (literal second ++ "") = some (second, "") :=
    readString_literal_append_of_ended (by simp) second
  rw [same, readsSecond] at readsFirst
  exact (Prod.mk.inj (Option.some.inj readsFirst)).1.symm

/-! ## Literals in longer texts -/

/-- Behind the lead, the text has a literal that is read as the value and ends where it ends. -/
def Quotes (text lead value : String) : Prop :=
  ∃ front back,
    text = front ++ lead ++ literal value ++ back ∧
    readString (literal value ++ back) = some (value, back)

namespace Quotes

variable
    {text lead value : String}

theorem of_ended
    (front lead : String)
    {back : String}
    (ended : back.toList.head? ≠ some '\'') :
    Quotes (front ++ lead ++ literal value ++ back) lead value :=
  ⟨front, back, rfl, readString_literal_append_of_ended ended value⟩

theorem of_literal (lead value : String) : Quotes (lead ++ literal value) lead value :=
  ⟨"", "", by simp, readString_literal_append_of_ended (by simp) value⟩

theorem behind
    (quotes : Quotes text lead value)
    (front : String) :
    Quotes (front ++ text) lead value := by
  rcases quotes with ⟨before, back, rfl, reads⟩
  exact ⟨front ++ before, back, by simp only [String.append_assoc], reads⟩

/-- A text still quotes what it quoted if no quote is put behind it. -/
theorem append
    (quotes : Quotes text lead value)
    {back : String}
    (ended : back.toList.head? ≠ some '\'') :
    Quotes (text ++ back) lead value := by
  rcases quotes with ⟨front, between, rfl, reads⟩
  have stillEnded : (between ++ back).toList.head? ≠ some '\'' := by
    rw [String.toList_append, List.head?_append]
    cases follows : between.toList.head? with
    | none => exact ended
    | some first =>
        rw [readString_literal_append_iff, follows] at reads
        exact reads
  rewrite [String.append_assoc]
  exact of_ended front lead stillEnded

theorem within
    (quotes : Quotes text lead value)
    (front : String)
    {back : String}
    (ended : back.toList.head? ≠ some '\'') :
    Quotes (front ++ text ++ back) lead value :=
  (quotes.behind front).append ended

/-- A joined text quotes what its parts quote if the separator begins with no quote. -/
theorem of_mem_intercalate
    (quotes : Quotes text lead value)
    {parts : List String}
    (isPart : text ∈ parts)
    {separator : String}
    (ended : separator.toList.head?.any (· != '\'') = true) :
    Quotes (separator.intercalate parts) lead value := by
  rcases Text.exists_intercalate_eq isPart separator with ⟨front, back, split, follows⟩
  rewrite [split]
  apply quotes.within front
  rcases follows with rfl | ⟨rest, rfl⟩
  · simp
  · rcases (Option.any_eq_true _ _).mp ended with ⟨first, isFirst, noQuote⟩
    rw [String.toList_append, List.head?_append, isFirst]
    simpa using noQuote

end Quotes

/-! ## Literals that are laid out -/

section Layout

variable
    {width : Nat}

theorem doubleQuotes_append (front back : List Char) :
    doubleQuotes (front ++ back) = doubleQuotes front ++ doubleQuotes back := by
  induction front with
  | nil => rfl
  | cons character front inductionHypothesis =>
      rw [List.cons_append, doubleQuotes, doubleQuotes, inductionHypothesis]
      split <;> rfl

theorem head?_doubleQuotes (characters : List Char) :
    (doubleQuotes characters).head? = characters.head? := by
  cases characters with
  | nil => rfl
  | cons first rest =>
      rw [doubleQuotes]
      split
      · next isQuote => rw [isQuote, List.head?_cons, List.head?_cons]
      · rfl

theorem margin_doubleQuotes (characters : List Char) :
    Text.margin width (doubleQuotes characters) = Text.margin width characters := by
  have sameLine : Text.beginsEmptyLine (doubleQuotes characters) =
      Text.beginsEmptyLine characters := by
    cases characters with
    | nil => rfl
    | cons first rest =>
        rw [doubleQuotes]
        split
        · next isQuote => simp [Text.beginsEmptyLine, isQuote]
        · simp only [Text.beginsEmptyLine, head?_doubleQuotes]
  rw [Text.margin, Text.margin, sameLine]

/-- Lines are moved alike whether their quotes are doubled before or afterwards. -/
theorem shifted_doubleQuotes (characters : List Char) :
    Text.shifted width (doubleQuotes characters) =
      doubleQuotes (Text.shifted width characters) := by
  induction characters with
  | nil => rfl
  | cons character rest inductionHypothesis =>
      by_cases isQuote : character = '\''
      · have inline : Text.isInline '\'' = true := by decide
        rw [isQuote, doubleQuotes, if_pos rfl, Text.shifted_cons inline, Text.shifted_cons inline,
          Text.shifted_cons inline, inductionHypothesis, doubleQuotes, if_pos rfl]
      · have unquoted : '\'' ∉ Text.margin width rest := by
          rw [Text.margin]
          split <;> simp
        rw [doubleQuotes, if_neg isQuote, Text.shifted, Text.shifted, margin_doubleQuotes,
          head?_doubleQuotes, inductionHypothesis]
        split
        · next isFeed =>
            rw [doubleQuotes, if_neg (by decide), doubleQuotes_append,
              doubleQuotes_of_not_mem unquoted]
        · split
          · rfl
          · rw [doubleQuotes, if_neg isQuote]

/-- A literal is laid out as the literal of what its text becomes. -/
theorem shift_literal (value : String) :
    Text.shift width (literal value) = literal (Text.shift width value) := by
  have inline : Text.isInline '\'' = true := by decide
  rw [← String.toList_inj, Text.shift, String.toList_ofList, toList_literal, toList_literal,
    Text.shifted_cons inline, Text.shifted_append_cons inline, shifted_doubleQuotes, Text.shift,
    String.toList_ofList]
  rfl

/-- Moving lines puts no quote in front of a text. -/
theorem head?_shift_ne
    {text : String}
    (ended : text.toList.head? ≠ some '\'') :
    (Text.shift width text).toList.head? ≠ some '\'' := by
  rw [Text.shift, String.toList_ofList]
  cases characters : text.toList with
  | nil => simp [Text.shifted]
  | cons first rest =>
      rw [characters] at ended
      rw [Text.shifted]
      split
      · simp
      · split
        -- A return is dropped in front of a line feed, which stays.
        · next isBreak =>
            rcases List.head?_eq_some_iff.mp isBreak.2 with ⟨others, rfl⟩
            simp [Text.shifted]
        · exact ended

namespace Quotes

variable
    {text lead value : String}

/-- A text that is laid out quotes what its values become. -/
theorem shift
    (quotes : Quotes text lead value)
    (leadOpens : Text.opensInline lead = true) :
    Quotes (Text.shift width text) (Text.shift width lead) (Text.shift width value) := by
  rcases quotes with ⟨front, back, rfl, reads⟩
  have opens : Text.opensInline (Sql.literal value) = true := by
    rw [Text.opensInline, toList_literal, List.head?_cons]
    decide
  have closes : Text.closesInline (Sql.literal value) = true := by
    rw [Text.closesInline, toList_literal, ← List.cons_append, List.getLast?_concat]
    decide
  rewrite [Text.shift_append (.inl (Text.closesInline_append closes _)),
    Text.shift_append (.inr opens), Text.shift_append (.inr leadOpens), shift_literal]
  exact of_ended _ _ (head?_shift_ne (readString_literal_append_iff.mp reads))

theorem indent
    (quotes : Quotes text lead value)
    (leadOpens : Text.opensInline lead = true)
    (opens : Text.opensInline text = true)
    (closes : Text.closesInline text = true) :
    Quotes (Text.indent width text) (Text.shift width lead) (Text.shift width value) := by
  rewrite [Text.indent_of_inline opens closes]
  exact (quotes.shift leadOpens).behind _

end Quotes

end Layout

end ClassStore.Sql
