import ClassStore.Proofs.Token.Spelling
import ClassStore.Proofs.Token.Walk

/-!
# Written forms of terms

Every part of a term is written so that it spells its tokens: words, numbers of
either sign, quoted values with any contents, operands, and groups of any
depth.  The main statement is `spells_listText`: the written form of a list of
terms spells `Term.listTokens`.
-/

namespace ClassStore.Search.Scanner

open TokenStream

/-! ## Words -/

theorem spells_word
    {word : String}
    (identifier : isIdentifier word = true) :
    Spells word.toList [Token.ofWord word] := by
  cases characters : word.toList with
  | nil => simp [isIdentifier, characters] at identifier
  | cons first following =>
      simp only [isIdentifier, characters, Bool.and_eq_true, List.all_eq_true] at identifier
      obtain ⟨letter, continued⟩ := identifier
      have ofWord := isWordCharacter_of_isAlpha letter
      have notDigit := isDigit_eq_false_of_isAlpha letter
      apply spells_of_lexeme
      · exact isBlank_eq_false_of_isWordCharacter ofWord
      · exact ⟨ne_of_isWordCharacter ofWord rfl, ne_of_isWordCharacter ofWord rfl⟩
      · intro rest bounded
        have whole : String.ofList (first :: following) = word := by
          rw [← characters, String.ofList_toList]
        have longest : (following ++ rest).takeWhile isWordCharacter = following :=
          takeWhile_append_of_bounded (fun _ => id) continued bounded
        have noNumber : beginsNumber (first :: (following ++ rest)) = false := by
          have unsigned : first ≠ '-' := ne_of_isWordCharacter ofWord rfl
          simp [beginsNumber, notDigit]
        simp [lexeme?, noNumber, letter, longest, whole]

theorem spells_path
    {path : String}
    (searchable : isSearchablePath path = true) :
    Spells path.toList [⟨.identifier, path⟩] := by
  simp only [isSearchablePath, isReserved, Bool.and_eq_true, Bool.not_eq_true',
    decide_eq_false_iff_not, Decidable.not_not] at searchable
  obtain ⟨identifier, free⟩ := searchable
  have spelled := spells_word identifier
  rwa [Token.ofWord, free] at spelled

theorem spells_comparison (comparison : Comparison) :
    Spells comparison.word.toList [⟨.comparison, comparison.word⟩] := by
  have spelled : Spells comparison.word.toList [Token.ofWord comparison.word] :=
    spells_word (by cases comparison <;> decide)
  have token : Token.ofWord comparison.word = ⟨.comparison, comparison.word⟩ := by
    cases comparison <;> decide
  rwa [token] at spelled

theorem spells_keyword
    (word : String)
    (isKeyword : word ∈ keywords) :
    Spells word.toList [Token.keyword word] := by
  have spelled : isIdentifier word = true ∧ Token.ofWord word = Token.keyword word := by
    simp only [keywords, List.mem_cons, List.not_mem_nil, or_false] at isKeyword
    rcases isKeyword with rfl | rfl | rfl | rfl | rfl <;> decide
  rw [← spelled.2]
  exact spells_word spelled.1

theorem spells_undefined : Spells undefinedWord.toList [Token.undefinedValue] :=
  spells_word rfl

/-! ## Numbers -/

/-- Where a number ends there is no fraction. -/
theorem fractionPart_of_bounded
    {rest : List Char}
    (bounded : Bounded rest) :
    fractionPart rest = [] := by
  cases rest with
  | nil => rfl
  | cons follower rest =>
      have notPoint : follower ≠ '.' := by
        rintro rfl
        simp [Bounded, isWordCharacter] at bounded
      simp [fractionPart, notPoint]

/-- A run of digits, perhaps behind a minus sign, spells a value. -/
theorem spells_digits
    (sign digits : List Char)
    (signed : sign = [] ∨ sign = ['-'])
    (nonempty : digits ≠ [])
    (all : ∀ digit ∈ digits, digit.isDigit = true) :
    Spells (sign ++ digits) [⟨.value, String.ofList (sign ++ digits)⟩] := by
  obtain ⟨first, following, rfl⟩ := List.exists_cons_of_ne_nil nonempty
  have firstDigit : first.isDigit = true := all first List.mem_cons_self
  have ofWord := isWordCharacter_of_isDigit firstDigit
  have unsigned : first ≠ '-' := ne_of_isWordCharacter ofWord rfl
  have whole : ∀ rest, Bounded rest →
      digitPart (first :: (following ++ rest)) = first :: following := by
    intro rest bounded
    exact takeWhile_append_of_bounded (fun _ => isWordCharacter_of_isDigit) all bounded
  have behind : ∀ rest : List Char,
      (first :: (following ++ rest)).drop (first :: following).length = rest := by
    intro rest
    simp
  rcases signed with rfl | rfl
  · apply spells_of_lexeme
    · exact isBlank_eq_false_of_isWordCharacter ofWord
    · exact ⟨ne_of_isWordCharacter ofWord rfl, ne_of_isWordCharacter ofWord rfl⟩
    · intro rest bounded
      have number : numberPart (first :: (following ++ rest)) = first :: following := by
        simp [numberPart, signPart, unsigned, whole rest bounded,
          fractionPart_of_bounded bounded]
      simp [lexeme?, beginsNumber, firstDigit, number]
  · apply spells_of_lexeme
    · decide
    · decide
    · intro rest bounded
      have number : numberPart ('-' :: first :: (following ++ rest)) =
          '-' :: first :: following := by
        have sign : signPart ('-' :: first :: (following ++ rest)) = ['-'] := rfl
        simp only [numberPart, sign, List.drop_succ_cons, List.length_singleton, List.drop_zero,
          whole rest bounded]
        rw [Nat.add_comm, List.drop_succ_cons, behind, fractionPart_of_bounded bounded,
          List.append_nil, List.singleton_append]
      simp [lexeme?, beginsNumber, firstDigit, number]

theorem spells_integer (value : Int64) :
    Spells (Scalar.integer value).text.toList [Token.ofScalar (.integer value)] := by
  have digits : ∀ magnitude : Nat,
      ∀ digit ∈ Nat.toDigits 10 magnitude, digit.isDigit = true := by
    intro magnitude digit member
    exact Nat.isDigit_of_mem_toDigits (by decide) (by decide) member
  have numeral : (Scalar.integer value).text = value.toInt.repr := rfl
  rw [Token.ofScalar, numeral, Int.repr_eq_if]
  split
  · have spelled := spells_digits _ _ (Or.inl rfl) Nat.toDigits_ne_nil (digits value.toInt.toNat)
    rw [List.nil_append, ← Nat.toList_repr, String.ofList_toList] at spelled
    exact spelled
  · have spelled :=
      spells_digits _ _ (Or.inr rfl) Nat.toDigits_ne_nil (digits (-value.toInt).toNat)
    have sign : ['-'] = "-".toList := rfl
    rw [sign, ← Nat.toList_repr, ← String.toList_append, String.ofList_toList] at spelled
    exact spelled

theorem spells_boolean (value : Bool) :
    Spells (Scalar.boolean value).text.toList [Token.ofScalar (.boolean value)] := by
  have spelled :=
    spells_digits [] (Scalar.boolean value).text.toList (Or.inl rfl)
      (by cases value <;> simp [Scalar.text]) (List.all_eq_true.mp (by cases value <;> rfl))
  simpa [Token.ofScalar] using spelled

/-! ## Quoted values -/

/-- A character that is not a backslash ends the string or belongs to it. -/
theorem literal?_cons
    {character : Char}
    (plain : character ≠ '\\')
    (quote : Char)
    (rest : List Char) :
    literal? quote (character :: rest) =
      if character = quote then
        some ([], 1)
      else
        (literal? quote rest).map fun (contents, length) =>
          (character :: contents, length + 1) := by
  cases rest <;> simp [literal?, plain]

/-- Reading an escaped text up to the closing quote gives the text back. -/
theorem literal?_escape (contents rest : List Char) :
    literal? '\'' (escape contents ++ '\'' :: rest) =
      some (contents, (escape contents).length + 1) := by
  induction contents with
  | nil => exact literal?_cons (by decide) '\'' rest
  | cons character contents inductionHypothesis =>
      by_cases special : character = '\'' ∨ character = '\\'
      · simp [escape, special, literal?, inductionHypothesis]
      · obtain ⟨unquoted, plain⟩ := not_or.mp special
        rw [escape, if_neg special, List.cons_append, literal?_cons plain, if_neg unquoted,
          inductionHypothesis]
        rfl

/-- A quoted text spells a value with exactly that text. -/
theorem spells_quote (text : String) :
    Spells (quote text).toList [⟨.value, text⟩] := by
  intro rest offset _
  have delivered := next_literal (Or.inl rfl) (literal?_escape text.toList rest) offset
  have written : (quote text).toList ++ rest =
      '\'' :: (escape text.toList ++ '\'' :: rest) := by
    simp [quote]
  have behind : ('\'' :: (escape text.toList ++ '\'' :: rest)).drop
      ((escape text.toList).length + 1 + 1) = rest := by
    simp [List.drop_append]
  rw [String.ofList_toList, advance, behind] at delivered
  rw [written]
  exact ⟨_, .step delivered (.stop _)⟩

theorem spells_scalar (value : Scalar) :
    Spells value.written.toList [Token.ofScalar value] := by
  cases value with
  | string text => exact spells_quote text
  | integer value => exact spells_integer value
  | boolean value => exact spells_boolean value
  | date value => exact spells_quote value.text

/-! ## Lists, operands and terms -/

/-- Texts with commas and blanks between them spell their tokens with commas between them. -/
theorem spells_intercalate
    {Item : Type}
    (text : Item → String)
    (tokens : Item → List Token)
    (items : List Item)
    (each : ∀ item ∈ items, tokens item ≠ [] ∧ Spells (text item).toList (tokens item)) :
    Spells (String.intercalate ", " (items.map text)).toList
      (List.intercalate [Token.comma] (items.map tokens)) := by
  induction items with
  | nil => exact Spells.nil
  | cons item items inductionHypothesis =>
      have first := (each item List.mem_cons_self).2
      have rest := inductionHypothesis fun other member =>
        each other (List.mem_cons_of_mem _ member)
      cases items with
      | nil => simpa using first
      | cons following items =>
          have visible := (each following (by simp)).1
          obtain ⟨token, others, restTokens⟩ :
              ∃ token others, List.intercalate [Token.comma]
                ((following :: items).map tokens) = token :: others := by
            apply List.exists_cons_of_ne_nil
            cases items <;> simp [visible]
          rw [restTokens] at rest
          have behind := rest.blank_cons.mark_cons ',' rfl
          have whole := first.append behind (Bounded.cons rfl _)
          have separator : ", ".toList = [',', ' '] := rfl
          have comma : Token.mark (String.singleton ',') = Token.comma := rfl
          rw [← restTokens, comma] at whole
          simpa [separator] using whole

theorem itemTokens_eq (values : List Scalar) :
    itemTokens values =
      List.intercalate [Token.comma] (values.map fun value => [Token.ofScalar value]) := by
  induction values with
  | nil => rfl
  | cons value values inductionHypothesis =>
      cases values with
      | nil => simp [itemTokens]
      | cons following values => simp [itemTokens, inductionHypothesis]

theorem spells_items (values : List Scalar) :
    Spells (Scalar.listWritten values).toList (itemTokens values) := by
  rw [itemTokens_eq]
  exact spells_intercalate Scalar.written (fun value => [Token.ofScalar value]) values
    fun value _ => ⟨List.cons_ne_nil _ _, spells_scalar value⟩

theorem spells_list
    (opening closing : Char)
    (opens : isMark opening = true)
    (closes : isMark closing = true)
    (bounds : isWordCharacter closing = false)
    (values : List Scalar) :
    Spells (opening :: ((Scalar.listWritten values).toList ++ [closing]))
      (listTokens (String.singleton opening) values (String.singleton closing)) := by
  have closed : Spells [closing] [Token.mark (String.singleton closing)] :=
    Spells.nil.mark_cons closing closes
  have items := (spells_items values).append closed (Bounded.cons bounds [])
  exact items.mark_cons opening opens

theorem spells_brackets (values : List Scalar) :
    Spells ('[' :: ((Scalar.listWritten values).toList ++ [']'])) (listTokens "[" values "]") :=
  spells_list '[' ']' rfl rfl rfl values

theorem spells_parentheses (values : List Scalar) :
    Spells ('(' :: ((Scalar.listWritten values).toList ++ [')'])) (listTokens "(" values ")") :=
  spells_list '(' ')' rfl rfl rfl values

/-- Every operand stands for at least one token. -/
theorem Operand.exists_tokens_eq_cons (operand : Operand) :
    ∃ token tokens, operand.tokens = token :: tokens := by
  cases operand <;> simp [Operand.tokens, listTokens]

theorem spells_operand (operand : Operand) :
    Spells operand.text.toList operand.tokens := by
  induction operand with
  | scalar value => exact spells_scalar value
  | undefined => exact spells_undefined
  | compare comparison value =>
      have value := (spells_scalar value).blank_cons
      have whole := (spells_comparison comparison).append value (Bounded.cons rfl _)
      simpa [Operand.text, Operand.tokens] using whole
  | between low high =>
      have list := (spells_brackets [low, high]).blank_cons
      have whole := (spells_keyword "BETWEEN" (by decide)).append list
        (Bounded.cons rfl _)
      simpa [Operand.text, Operand.tokens, listTokens] using whole
  | list values =>
      simpa [Operand.text, Operand.tokens] using spells_brackets values
  | any values =>
      have whole := (spells_keyword "ANY" (by decide)).append
        (spells_parentheses values) (Bounded.cons rfl _)
      simpa [Operand.text, Operand.tokens] using whole
  | negation operand inductionHypothesis =>
      obtain ⟨token, tokens, shape⟩ := Operand.exists_tokens_eq_cons operand
      rw [shape] at inductionHypothesis
      have whole := (spells_keyword "NOT" (by decide)).append
        inductionHypothesis.blank_cons (Bounded.cons rfl _)
      simpa [Operand.text, Operand.tokens, shape] using whole

theorem spells_search
    {path : String}
    (searchable : isSearchablePath path = true)
    (operand : Operand) :
    Spells (Term.search path operand).text.toList (Term.search path operand).tokens := by
  obtain ⟨token, tokens, shape⟩ := Operand.exists_tokens_eq_cons operand
  have spelled := spells_operand operand
  rw [shape] at spelled
  have behind := (spelled.blank_cons.arrow_cons).blank_cons
  have whole := (spells_path searchable).append behind (Bounded.cons rfl _)
  have arrow : " => ".toList = [' ', '=', '>', ' '] := rfl
  simpa [Term.text, Term.tokens, pathTokens, shape, arrow] using whole

theorem Term.texts_eq_map (terms : List Term) :
    Term.texts terms = terms.map Term.text := by
  induction terms with
  | nil => rfl
  | cons term terms inductionHypothesis => simp [Term.texts, inductionHypothesis]

theorem Term.listTokens_eq (terms : List Term) :
    Term.listTokens terms = List.intercalate [Token.comma] (terms.map Term.tokens) := by
  induction terms with
  | nil => rfl
  | cons term terms inductionHypothesis =>
      cases terms with
      | nil => simp [Term.listTokens]
      | cons following terms => simp [Term.listTokens, inductionHypothesis]

theorem Term.tokens_ne_nil (term : Term) : term.tokens ≠ [] := by
  cases term <;> simp [Term.tokens, pathTokens, groupTokens]

/-- The written form of terms that each spell their tokens spells the tokens of all. -/
theorem spells_listText_of_each
    {terms : List Term}
    (each : ∀ term ∈ terms, Spells term.text.toList term.tokens) :
    Spells (Term.listText terms).toList (Term.listTokens terms) := by
  rw [Term.listText, Term.texts_eq_map, Term.listTokens_eq]
  exact spells_intercalate Term.text Term.tokens terms
    fun term member => ⟨Term.tokens_ne_nil term, each term member⟩

mutual

/-- The written form of a term with searchable paths spells its tokens. -/
theorem spells_term
    (term : Term)
    (searchable : ∀ path ∈ term.paths, isSearchablePath path = true) :
    Spells term.text.toList term.tokens := by
  cases term with
  | search path operand =>
      exact spells_search (searchable path (by simp [Term.paths])) operand
  | group combinator members =>
      have inside := spells_listText_of_each (spells_each members searchable)
      have closed : Spells [')'] [Token.mark ")"] := Spells.nil.mark_cons ')' rfl
      have behind := (inside.append closed (Bounded.cons rfl [])).mark_cons
        '(' rfl
      have word : Spells combinator.word.toList [Token.keyword combinator.word] :=
        spells_keyword _ (by cases combinator <;> decide)
      have whole := word.append behind (Bounded.cons rfl _)
      have opening : Token.mark (String.singleton '(') = Token.mark "(" := rfl
      rw [opening] at whole
      simpa [Term.text, Term.listText, Term.tokens, groupTokens] using whole

theorem spells_each
    (terms : List Term)
    (searchable : ∀ path ∈ Term.listPaths terms, isSearchablePath path = true) :
    ∀ term ∈ terms, Spells term.text.toList term.tokens := by
  cases terms with
  | nil => simp
  | cons first terms =>
      intro term member
      rcases List.mem_cons.mp member with same | later
      · rw [same]
        exact spells_term first fun path inTerm =>
          searchable path (List.mem_append_left _ inTerm)
      · exact spells_each terms (fun path inTerms =>
          searchable path (List.mem_append_right _ inTerms)) term later

end

/-- The written form of terms with searchable paths spells their tokens. -/
theorem spells_listText
    {terms : List Term}
    (searchable : ∀ path ∈ Term.listPaths terms, isSearchablePath path = true) :
    Spells (Term.listText terms).toList (Term.listTokens terms) :=
  spells_listText_of_each (spells_each terms searchable)

end ClassStore.Search.Scanner
