import ClassStore.Proofs.Catalog.Order
import ClassStore.Proofs.Grammar.Derivation
import ClassStore.Proofs.Token.Terminal

/-!
# What the parser accepts as an operand

Every function of the parser takes exactly the tokens of a derivation of its
nonterminal, and gives the meaning of the derivation.  For each of them the one
direction is named `…_sound`: what is read has a derivation in front of the tokens
that are left.  The other is named `…_complete`: the tokens of a derivation that
has a meaning are read, whatever follows them.
-/

namespace ClassStore.Search.Grammar

open ClassStore.Catalog
open ClassStore.Search.Parser

variable {setting : Setting}

/-! ## Single tokens -/

theorem ended_ne_ok
    {Output : Type}
    (stop : Stop)
    (output : Output) :
    setting.ended stop ≠ .ok output := by
  rw [Setting.ended]
  split <;> simp

theorem optional_sound
    {wanted : Token}
    {tokens rest : List Token}
    {written : Bool}
    (taken : setting.optional wanted tokens = .ok (written, rest)) :
    tokens = optionally wanted written ++ rest := by
  cases tokens with
  | nil =>
      rw [Setting.optional] at taken
      split at taken
      · cases taken
      · cases taken
        rfl
  | cons token tokens =>
      rw [Setting.optional] at taken
      split at taken
      · next same =>
          cases taken
          rw [same]
          rfl
      · cases taken
        rfl

theorem optional_complete
    (unfailing : setting.failure = none)
    {wanted : Token}
    (written : Bool)
    {rest : List Token}
    (absent : rest.head? ≠ some wanted) :
    setting.optional wanted (optionally wanted written ++ rest) = .ok (written, rest) := by
  cases written with
  | true => exact if_pos rfl
  | false =>
      cases rest with
      | nil =>
          change setting.optional wanted [] = _
          rw [Setting.optional, unfailing]
      | cons token rest => exact if_neg fun same => absent (congrArg some same)

theorem expect_sound
    {mark : String}
    {tokens rest : List Token}
    (taken : setting.expect mark tokens = .ok rest) :
    tokens = Token.mark mark :: rest := by
  cases tokens with
  | nil => exact absurd taken (ended_ne_ok _ _)
  | cons token tokens =>
      rw [Setting.expect] at taken
      split at taken
      · next same =>
          cases taken
          rw [same]
      · cases taken

theorem expect_complete
    (mark : String)
    (rest : List Token) :
    setting.expect mark (Token.mark mark :: rest) = .ok rest :=
  if_pos rfl

theorem valueOf_eq_ok_iff
    {path text : String}
    {type : SemanticType}
    {value : Scalar} :
    valueOf path type text = .ok value ↔ readValue? type text = some value := by
  rw [valueOf, coerce]
  cases readValue? type text with
  | none => simp
  | some other => simp

theorem eq_valueToken
    {token : Token}
    (isValue : token.kind = .value) :
    token = valueToken token.text := by
  rw [valueToken, ← isValue]

/-! ## Lists of values -/

theorem exists_separator_of_token
    {token : Token}
    (separates : token = Token.comma ∨ token = Token.arrow) :
    ∃ separator : Separator, token = separator.token := by
  rcases separates with rfl | rfl
  · exact ⟨.comma, rfl⟩
  · exact ⟨.arrow, rfl⟩

/-- What is read as the values of a list is a list with its closing mark, or that mark alone. -/
theorem items_sound
    {path closing : String}
    {type : SemanticType}
    (tokens : List Token)
    {values : List Scalar}
    {rest : List Token}
    (read : setting.items path type closing tokens = .ok (values, rest)) :
    tokens = Token.mark closing :: rest ∧ values = [] ∨
      ∃ items : Items,
        tokens = items.tokens ++ Token.mark closing :: rest ∧
        items.values? type = some values := by
  cases tokens with
  | nil => exact absurd read (ended_ne_ok _ _)
  | cons token tokens =>
      rw [Setting.items] at read
      split at read
      · next closes =>
          cases read
          exact .inl ⟨by rw [closes], rfl⟩
      · split at read
        · next isValue =>
            rcases exists_of_bind_eq_ok read with ⟨value, valueRead, listed⟩
            have meaning := valueOf_eq_ok_iff.mp valueRead
            rw [eq_valueToken isValue]
            cases tokens with
            | nil => exact absurd listed (ended_ne_ok _ _)
            | cons separator tokens =>
                simp only at listed
                split at listed
                · next closes =>
                    cases listed
                    refine .inr ⟨.last token.text none, by rw [closes]; rfl, ?_⟩
                    exact Items.values?_last_eq_some_iff.mpr ⟨value, meaning, rfl⟩
                · split at listed
                  · next separates =>
                      rcases exists_separator_of_token separates with ⟨separator, rfl⟩
                      rcases exists_of_bind_eq_ok listed with
                        ⟨⟨others, after⟩, othersRead, ends⟩
                      cases ends
                      rcases items_sound tokens othersRead with
                        ⟨rfl, rfl⟩ | ⟨items, rfl, itemValues⟩
                      · refine .inr ⟨.last token.text (some separator), rfl, ?_⟩
                        exact Items.values?_last_eq_some_iff.mpr ⟨value, meaning, rfl⟩
                      · refine .inr ⟨.cons token.text separator items, rfl, ?_⟩
                        exact Items.values?_cons_eq_some_iff.mpr
                          ⟨value, others, meaning, itemValues, rfl⟩
                  · cases listed
        · cases read

/-- A closing mark alone is read as no values. -/
theorem items_closing
    (path closing : String)
    (type : SemanticType)
    (rest : List Token) :
    setting.items path type closing (Token.mark closing :: rest) = .ok ([], rest) := by
  rw [Setting.items, if_pos rfl]

/-- A value is read, and then the mark that closes the list. -/
theorem items_last
    (path : String)
    {closing : String}
    (isClosing : Closing (Token.mark closing))
    {type : SemanticType}
    {text : String}
    {value : Scalar}
    (meaning : readValue? type text = some value)
    (rest : List Token) :
    setting.items path type closing (valueToken text :: Token.mark closing :: rest) =
      .ok ([value], rest) := by
  have valueRead : valueOf path type text = .ok value := valueOf_eq_ok_iff.mpr meaning
  have noClosing : valueToken text ≠ Token.mark closing := by
    intro same
    exact isClosing.noValue (by rw [← same, kind_valueToken])
  rw [Setting.items, if_neg noClosing, if_pos (kind_valueToken text)]
  simp only [text_valueToken, valueRead, bind, Except.bind, if_pos]

/-- A value is read, then a separator, and then what follows it. -/
theorem items_cons
    (path : String)
    {closing : String}
    (isClosing : Closing (Token.mark closing))
    {type : SemanticType}
    {text : String}
    {value : Scalar}
    (meaning : readValue? type text = some value)
    (separator : Separator)
    {tokens rest : List Token}
    {values : List Scalar}
    (following : setting.items path type closing tokens = .ok (values, rest)) :
    setting.items path type closing (valueToken text :: separator.token :: tokens) =
      .ok (value :: values, rest) := by
  have valueRead : valueOf path type text = .ok value := valueOf_eq_ok_iff.mpr meaning
  have noClosing : valueToken text ≠ Token.mark closing := by
    intro same
    exact isClosing.noValue (by rw [← same, kind_valueToken])
  have separates : separator.token = Token.comma ∨ separator.token = Token.arrow := by
    cases separator with
    | comma => exact .inl rfl
    | arrow => exact .inr rfl
  rw [Setting.items, if_neg noClosing, if_pos (kind_valueToken text)]
  simp only [text_valueToken, valueRead, bind, Except.bind,
    if_neg (isClosing.noSeparator separator), if_pos separates, following]

theorem items_complete
    (path : String)
    {closing : String}
    (isClosing : Closing (Token.mark closing))
    {type : SemanticType}
    {items : Items}
    {values : List Scalar}
    (meaning : items.values? type = some values)
    (rest : List Token) :
    setting.items path type closing (items.tokens ++ Token.mark closing :: rest) =
      .ok (values, rest) := by
  induction items generalizing values with
  | last text trailing =>
      rcases Items.values?_last_eq_some_iff.mp meaning with ⟨value, valueMeaning, rfl⟩
      cases trailing with
      | none => exact items_last path isClosing valueMeaning rest
      | some separator =>
          exact items_cons path isClosing valueMeaning separator
            (items_closing path closing type rest)
  | cons text separator items inductionHypothesis =>
      rcases Items.values?_cons_eq_some_iff.mp meaning with
        ⟨value, others, valueMeaning, othersMeaning, rfl⟩
      exact items_cons path isClosing valueMeaning separator (inductionHypothesis othersMeaning)

/-- A list of values has at least one. -/
theorem Items.values_ne_nil
    {type : SemanticType}
    {items : Items}
    {values : List Scalar}
    (meaning : items.values? type = some values) :
    values ≠ [] := by
  cases items with
  | last text trailing =>
      rcases Items.values?_last_eq_some_iff.mp meaning with ⟨value, _, rfl⟩
      simp
  | cons text separator items =>
      rcases Items.values?_cons_eq_some_iff.mp meaning with ⟨value, others, _, _, rfl⟩
      simp

/-! ## Bounds and alternatives -/

/-- A list with two values is made of two bounds. -/
theorem Items.exists_bounds
    {type : SemanticType}
    {items : Items}
    {low high : Scalar}
    (meaning : items.values? type = some [low, high]) :
    ∃ bounds : Bounds,
      items = bounds.items ∧
      readValue? type bounds.low = some low ∧
      readValue? type bounds.high = some high := by
  cases items with
  | last text trailing =>
      rcases Items.values?_last_eq_some_iff.mp meaning with ⟨value, _, single⟩
      cases single
  | cons text separator items =>
      rcases Items.values?_cons_eq_some_iff.mp meaning with
        ⟨value, others, lowMeaning, othersMeaning, double⟩
      cases double
      cases items with
      | last otherText trailing =>
          rcases Items.values?_last_eq_some_iff.mp othersMeaning with ⟨value, highMeaning, single⟩
          cases single
          exact ⟨⟨text, separator, otherText, trailing⟩, rfl, lowMeaning, highMeaning⟩
      | cons otherText otherSeparator items =>
          rcases Items.values?_cons_eq_some_iff.mp othersMeaning with
            ⟨value, others, _, someMeaning, single⟩
          cases single
          exact absurd rfl (Items.values_ne_nil someMeaning)

theorem bounds_sound
    {path : String}
    {type : SemanticType}
    {tokens rest : List Token}
    {operator : Operator}
    {value : Value}
    (read : setting.bounds path type tokens = .ok ((operator, value), rest)) :
    ∃ bounds : Bounds,
      tokens = bounds.items.tokens ++ Token.mark "]" :: rest ∧
      bounds.value? type = some value ∧
      operator = .between := by
  rcases exists_of_bind_eq_ok read with ⟨⟨values, after⟩, listed, paired⟩
  simp only at paired
  split at paired
  · next low high =>
      split at paired
      · next alike =>
          cases paired
          rcases items_sound tokens listed with ⟨_, empty⟩ | ⟨items, rfl, meaning⟩
          · cases empty
          · rcases Items.exists_bounds meaning with ⟨bounds, rfl, lowMeaning, highMeaning⟩
            refine ⟨bounds, rfl, ?_, rfl⟩
            simp [Bounds.value?, lowMeaning, highMeaning, alike]
      · cases paired
  · cases paired

theorem bounds_complete
    (path : String)
    {type : SemanticType}
    {bounds : Bounds}
    {value : Value}
    (meaning : bounds.value? type = some value)
    (rest : List Token) :
    setting.bounds path type (bounds.items.tokens ++ Token.mark "]" :: rest) =
      .ok ((.between, value), rest) := by
  rcases Option.bind_eq_some_iff.mp meaning with ⟨low, lowMeaning, others⟩
  rcases Option.bind_eq_some_iff.mp others with ⟨high, highMeaning, paired⟩
  split at paired
  · next alike =>
      cases paired
      have both : bounds.items.values? type = some [low, high] :=
        Items.values?_cons_eq_some_iff.mpr
          ⟨low, [high], lowMeaning,
            Items.values?_last_eq_some_iff.mpr ⟨high, highMeaning, rfl⟩, rfl⟩
      rw [Setting.bounds, items_complete path closing_bracket both]
      exact if_pos alike
  · cases paired

/-- What the values of a type are. -/
def variantOf (type : SemanticType) : ScalarVariant :=
  if type.isIntegral then .integer
  else if type = .boolean then .boolean
  else if type = .datetime then .date
  else .string

/-- Values that are read as one type are of one variant. -/
theorem variant_of_readValue?
    {type : SemanticType}
    {text : String}
    {value : Scalar}
    (meaning : readValue? type text = some value) :
    value.variant = variantOf type := by
  rw [readValue?] at meaning
  rw [variantOf]
  split at meaning
  · next integral =>
      rcases Option.map_eq_some_iff.mp meaning with ⟨number, _, rfl⟩
      rw [if_pos integral]
      rfl
  · next notIntegral =>
      rw [if_neg notIntegral]
      split at meaning
      · next isTruth =>
          rcases Option.map_eq_some_iff.mp meaning with ⟨truth, _, rfl⟩
          rw [if_pos isTruth]
          rfl
      · next notTruth =>
          rw [if_neg notTruth]
          split at meaning
          · next isDate =>
              rcases Option.map_eq_some_iff.mp meaning with ⟨date, _, rfl⟩
              rw [if_pos isDate]
              rfl
          · next notDate =>
              cases meaning
              rw [if_neg notDate]
              rfl

theorem Items.variant_of_values?
    {type : SemanticType}
    {items : Items}
    {values : List Scalar}
    (meaning : items.values? type = some values) :
    ∀ value ∈ values, value.variant = variantOf type := by
  induction items generalizing values with
  | last text trailing =>
      rcases Items.values?_last_eq_some_iff.mp meaning with ⟨value, valueMeaning, rfl⟩
      rw [List.forall_mem_singleton]
      exact variant_of_readValue? valueMeaning
  | cons text separator items inductionHypothesis =>
      rcases Items.values?_cons_eq_some_iff.mp meaning with
        ⟨value, others, valueMeaning, othersMeaning, rfl⟩
      rw [List.forall_mem_cons]
      exact ⟨variant_of_readValue? valueMeaning, inductionHypothesis othersMeaning⟩

theorem alternatives_sound
    {path : String}
    {type : SemanticType}
    {tokens rest : List Token}
    {operator : Operator}
    {value : Value}
    (read : setting.alternatives path type tokens = .ok ((operator, value), rest)) :
    ∃ items : Items,
      tokens = items.tokens ++ Token.mark ")" :: rest ∧
      (Operand.any items).meaning? type = some (operator, value) := by
  rcases exists_of_bind_eq_ok read with ⟨⟨values, after⟩, listed, offered⟩
  simp only at offered
  split at offered
  · cases offered
  · split at offered
    · cases offered
    · cases offered
      rcases items_sound tokens listed with ⟨_, empty⟩ | ⟨items, rfl, meaning⟩
      · cases empty
      · refine ⟨items, rfl, ?_⟩
        simp [Operand.meaning?, meaning]

/-- Alternatives are of one variant, because they are read as one type. -/
theorem alternatives_complete
    (path : String)
    {type : SemanticType}
    {items : Items}
    {values : List Scalar}
    (meaning : items.values? type = some values)
    (rest : List Token) :
    setting.alternatives path type (items.tokens ++ Token.mark ")" :: rest) =
      .ok ((.any, .list values), rest) := by
  rw [Setting.alternatives, items_complete path closing_parenthesis meaning]
  cases values with
  | nil => exact absurd rfl (Items.values_ne_nil meaning)
  | cons first values =>
      have sameVariant := Items.variant_of_values? meaning
      have uniform : findOdd? first (first :: values) = none :=
        findOdd?_eq_none_iff.mpr fun value isMember =>
          (sameVariant value isMember).trans (sameVariant first List.mem_cons_self).symm
      simp only [bind, Except.bind, uniform]

/-! ## Operands -/

theorem compared_sound
    {path : String}
    {type : SemanticType}
    {comparison : Comparison}
    {tokens rest : List Token}
    (terminal : ∀ token ∈ tokens, token.Terminal)
    {result : Operator × Value}
    (read : setting.compared path type (.compare comparison) tokens = .ok (result, rest)) :
    ∃ operand : Operand,
      comparisonToken comparison :: tokens = operand.tokens ++ rest ∧
      operand.meaning? type = some result := by
  cases tokens with
  | nil => exact absurd read (ended_ne_ok _ _)
  | cons token tokens =>
      rw [Setting.compared] at read
      split at read
      · next isValue =>
          rcases exists_of_bind_eq_ok read with ⟨value, valueRead, ends⟩
          cases ends
          refine ⟨.compare comparison token.text, ?_, ?_⟩
          · rw [eq_valueToken isValue]
            rfl
          · simp [Operand.meaning?, valueOf_eq_ok_iff.mp valueRead]
      · split at read
        · next isUndefined =>
            rcases isUndefined with ⟨isUndefined, isEquality⟩
            cases read
            have equality : comparison = .eq ∨ comparison = .ne := by simpa using isEquality
            refine ⟨.compareUndefined comparison equality, ?_, rfl⟩
            cases terminal token List.mem_cons_self with
            | undefined => rfl
            | identifier path => cases isUndefined
            | mark text => cases isUndefined
            | comparison comparison => cases isUndefined
            | keyword word => cases isUndefined
            | value text => cases isUndefined
        · cases read

/-- What is read as an operand is one. -/
theorem operand_sound
    {path : String}
    {type : SemanticType}
    {tokens rest : List Token}
    (terminal : ∀ token ∈ tokens, token.Terminal)
    {result : Operator × Value}
    (read : setting.operand path type tokens = .ok (result, rest)) :
    ∃ operand : Operand,
      tokens = operand.tokens ++ rest ∧
      operand.meaning? type = some result := by
  cases tokens with
  | nil => exact absurd read (ended_ne_ok _ _)
  | cons token tokens =>
      rw [List.forall_mem_cons] at terminal
      rcases terminal with ⟨form, terminal⟩
      cases form with
      | identifier path => cases read
      | mark text =>
          change (if text = "[" then setting.bounds path type tokens else _) = _ at read
          split at read
          · next opens =>
              rcases result with ⟨operator, value⟩
              rcases bounds_sound read with ⟨bounds, rfl, meaning, rfl⟩
              refine ⟨.between false bounds, ?_, ?_⟩
              · simp [Operand.tokens, optionally, opens]
              · simp [Operand.meaning?, meaning]
          · cases read
      | comparison comparison =>
          have known := Operator.ofWord?_word (.compare comparison)
          simp only [Setting.operand] at read
          rw [show comparison.word = (Operator.compare comparison).word from rfl, known] at read
          exact compared_sound terminal read
      | keyword word =>
          change (if word = "BETWEEN" then _ else if word = "ANY" then _ else _) = _ at read
          split at read
          · next isBetween =>
              rcases exists_of_bind_eq_ok read with ⟨after, opened, bounded⟩
              rcases result with ⟨operator, value⟩
              rcases bounds_sound bounded with ⟨bounds, rfl, meaning, rfl⟩
              refine ⟨.between true bounds, ?_, ?_⟩
              · rw [expect_sound opened]
                simp [Operand.tokens, optionally, isBetween]
              · simp [Operand.meaning?, meaning]
          · split at read
            · next isAny =>
                rcases exists_of_bind_eq_ok read with ⟨after, opened, offered⟩
                rcases result with ⟨operator, value⟩
                rcases alternatives_sound offered with ⟨items, rfl, meaning⟩
                refine ⟨.any items, ?_, meaning⟩
                rw [expect_sound opened]
                simp [Operand.tokens, isAny]
            · cases read
      | value text =>
          rcases exists_of_bind_eq_ok read with ⟨value, valueRead, ends⟩
          cases ends
          refine ⟨.value text, rfl, ?_⟩
          simp [Operand.meaning?, valueOf_eq_ok_iff.mp valueRead]
      | undefined =>
          cases read
          exact ⟨.undefined, rfl, rfl⟩

theorem operand_complete
    (path : String)
    {type : SemanticType}
    {operand : Operand}
    {result : Operator × Value}
    (meaning : operand.meaning? type = some result)
    (rest : List Token) :
    setting.operand path type (operand.tokens ++ rest) = .ok (result, rest) := by
  cases operand with
  | value text =>
      rcases Option.bind_eq_some_iff.mp meaning with ⟨value, valueMeaning, ends⟩
      cases ends
      have valueRead : valueOf path type text = .ok value := valueOf_eq_ok_iff.mpr valueMeaning
      simp [Operand.tokens, Setting.operand, valueRead, bind, Except.bind]
  | undefined =>
      cases meaning
      rfl
  | compare comparison text =>
      rcases Option.bind_eq_some_iff.mp meaning with ⟨value, valueMeaning, ends⟩
      cases ends
      have valueRead : valueOf path type text = .ok value := valueOf_eq_ok_iff.mpr valueMeaning
      have known : Operator.ofWord? comparison.word = some (.compare comparison) :=
        Operator.ofWord?_word (.compare comparison)
      simp [Operand.tokens, comparisonToken, Setting.operand, known, Setting.compared, valueRead,
        bind, Except.bind]
  | compareUndefined comparison isEquality =>
      cases meaning
      have known : Operator.ofWord? comparison.word = some (.compare comparison) :=
        Operator.ofWord?_word (.compare comparison)
      simp [Operand.tokens, comparisonToken, Setting.operand, known, Setting.compared,
        Token.undefinedValue, isEquality]
  | between named bounds =>
      rcases Option.bind_eq_some_iff.mp meaning with ⟨value, boundsMeaning, ends⟩
      cases ends
      have bounded :
          setting.bounds path type (bounds.items.tokens ++ Token.mark "]" :: rest) =
            .ok ((.between, value), rest) :=
        bounds_complete path boundsMeaning rest
      cases named with
      | true =>
          have shape : (Operand.between true bounds).tokens ++ rest =
              Token.keyword "BETWEEN" :: Token.mark "[" ::
                (bounds.items.tokens ++ Token.mark "]" :: rest) := by
            simp [Operand.tokens, optionally]
          rw [shape]
          change (setting.expect "[" _ >>= setting.bounds path type) = _
          rw [expect_complete]
          exact bounded
      | false =>
          have shape : (Operand.between false bounds).tokens ++ rest =
              Token.mark "[" :: (bounds.items.tokens ++ Token.mark "]" :: rest) := by
            simp [Operand.tokens, optionally]
          rw [shape]
          exact bounded
  | any items =>
      rcases Option.bind_eq_some_iff.mp meaning with ⟨values, itemsMeaning, ends⟩
      cases ends
      have shape : (Operand.any items).tokens ++ rest =
          Token.keyword "ANY" :: Token.mark "(" :: (items.tokens ++ Token.mark ")" :: rest) := by
        simp [Operand.tokens]
      rw [shape]
      change (setting.expect "(" _ >>= setting.alternatives path type) = _
      rw [expect_complete]
      exact alternatives_complete path itemsMeaning rest

end ClassStore.Search.Grammar
