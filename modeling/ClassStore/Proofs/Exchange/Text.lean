import ClassStore.Exchange.Codec
import ClassStore.Exchange.Reader
import ClassStore.Exchange.Writer
import ClassStore.Proofs.Text.Numeral
import ClassStore.Proofs.Token.Spelling

/-!
# Reading what was written

The text of a value is read back as the value.  An integer has to fit into the
64 bits that a reader keeps, the numeral of any other number has to be one that is
not read as an integer, and the members of an object need distinct names; strings may
have any characters, and values may be nested to any depth.

A value ends where its last character does, so the statement for a part of a text
is about any text after the value.  Only a number or a word could go on there, and
what is written after a value, which is a comma or a closing bracket, never is a
part of one.
-/

namespace ClassStore.Exchange.Json

/-! ## Strings -/

/-- The numbers of the characters that are written by number. -/
def numbered : List Nat :=
  List.range 0x20 ++ [0x85, 0x2028, 0x2029]

theorem mem_numbered
    {character : Char}
    (needed : needsNumber character = true) :
    character.toNat ∈ numbered := by
  simp only [needsNumber, Bool.or_eq_true, decide_eq_true_eq] at needed
  simp only [numbered, List.mem_append, List.mem_range, List.mem_cons, List.not_mem_nil]
  omega

/-- The digit that is written at a place of the number. -/
def digitAt (code place : Nat) : Char :=
  (hexText code).getD place '0'

/-- Four digits are written for such a number, and they are those of one whole character. -/
theorem hexText_numbered :
    ∀ code ∈ numbered,
      hexText code = [digitAt code 0, digitAt code 1, digitAt code 2, digitAt code 3] ∧
        hexUnit? (digitAt code 0) (digitAt code 1) (digitAt code 2) (digitAt code 3) =
          some code ∧
        isHighUnit code = false ∧ isLowUnit code = false := by
  decide +kernel

theorem mem_letters
    {character letter : Char}
    (named : letters.lookup character = some letter) :
    (character, letter) ∈ letters := by
  obtain ⟨before, after, table, _⟩ := List.lookup_eq_some_iff.mp named
  rw [table]
  simp

/-- A letter behind a backslash is read as the character that it was written for. -/
theorem stringContents_letter
    {character letter : Char}
    (named : letters.lookup character = some letter)
    (collected rest : List Char) :
    stringContents collected ('\\' :: letter :: rest) =
      stringContents (character :: collected) rest := by
  have readable : ∀ entry ∈ letters, entry.2 ≠ 'u' ∧ escaped? entry.2 = some entry.1 := by
    decide
  obtain ⟨further, escaped⟩ := readable _ (mem_letters named)
  simp [stringContents, further, escaped]

theorem stringContents_characterText
    (character : Char)
    (collected rest : List Char) :
    stringContents collected (characterText character ++ rest) =
      stringContents (character :: collected) rest := by
  rw [characterText]
  split
  · next letter named => exact stringContents_letter named collected rest
  split
  · next needed =>
      obtain ⟨written, read, high, low⟩ := hexText_numbered _ (mem_numbered needed)
      simp [written, stringContents, read, high, low, Char.ofNat_toNat]
  · next unnamed plain =>
      -- Quotes and backslashes have letters, control characters have numbers.
      have quote : character ≠ '"' := by
        rintro rfl
        exact absurd unnamed (by decide)
      have backslash : character ≠ '\\' := by
        rintro rfl
        exact absurd unnamed (by decide)
      have visible : ¬character.toNat < 0x20 := by
        simp only [needsNumber, Bool.or_eq_true, decide_eq_true_eq] at plain
        omega
      rw [List.singleton_append, stringContents.eq_def]
      split <;> simp_all

/-- A string is read back up to its closing quote. -/
theorem stringContents_flatMap_characterText
    (characters collected rest : List Char) :
    stringContents collected (characters.flatMap characterText ++ '"' :: rest) =
      some (String.ofList (collected.reverse ++ characters), rest) := by
  induction characters generalizing collected with
  | nil => simp [stringContents]
  | cons character characters inductionHypothesis =>
      rw [List.flatMap_cons, List.append_assoc, stringContents_characterText,
        inductionHypothesis, List.reverse_cons, List.append_assoc, List.singleton_append]

/-! ## Where a value ends -/

/-- The text does not go on with a number or a word. -/
def Ends (rest : List Char) : Prop :=
  ∀ character ∈ rest.head?,
    isNumberCharacter character = false ∧ character.isAlpha = false

theorem ends_nil : Ends [] := by
  simp [Ends]

theorem ends_cons
    {first : Char}
    (rest : List Char)
    (mark : first ∈ [',', ']', '\x7d']) :
    Ends (first :: rest) := by
  intro character head
  cases Option.some.inj head
  simp only [List.mem_cons, List.not_mem_nil, or_false] at mark
  rcases mark with rfl | rfl | rfl <;> exact ⟨rfl, rfl⟩

theorem takeWhile_append_of_stops
    {holds : Char → Bool}
    {run rest : List Char}
    (within : ∀ character ∈ run, holds character = true)
    (after : ∀ character ∈ rest.head?, holds character = false) :
    (run ++ rest).takeWhile holds = run := by
  rw [List.takeWhile_append_of_pos within]
  cases rest with
  | nil => simp
  | cons first rest => simp [after first rfl]

theorem dropBlanks_cons
    {first : Char}
    (visible : isJsonBlank first = false)
    (rest : List Char) :
    dropBlanks (first :: rest) = first :: rest := by
  simp [dropBlanks, visible]

/-! ## Numbers and words -/

/-- The character is one that a number may begin with. -/
def startsNumber (character : Char) : Bool :=
  character = '-' || character.isDigit

/-- The characters that are skipped, or that begin or end a string or a list. -/
def marks : List Char :=
  [' ', '\t', '\n', '\r', '"', '[', ']', '\x7b', '\x7d']

theorem not_mem_marks
    {holds : Char → Bool}
    {character : Char}
    (none : marks.any holds = false)
    (holdsHere : holds character = true) :
    character ∉ marks := fun member =>
  List.any_eq_false.mp none character member holdsHere

theorem not_mem_marks_of_startsNumber
    {character : Char}
    (starts : startsNumber character = true) :
    character ∉ marks :=
  not_mem_marks rfl starts

theorem not_mem_marks_of_isAlpha
    {character : Char}
    (letter : character.isAlpha = true) :
    character ∉ marks :=
  not_mem_marks rfl letter

theorem startsNumber_of_isAlpha
    {character : Char}
    (letter : character.isAlpha = true) :
    startsNumber character = false := by
  have differs : character ≠ '-' := by
    rintro rfl
    exact absurd letter (by decide)
  simp [startsNumber, differs, Search.isDigit_eq_false_of_isAlpha letter]

/-- What begins with no mark is a number or a word. -/
theorem readValue_unmarked
    {first : Char}
    (depth : Nat)
    (unmarked : first ∉ marks)
    (rest : List Char) :
    readValue (depth + 1) (first :: rest) =
      if startsNumber first then
        if isNumeral ((first :: rest).takeWhile isNumberCharacter) then
          some (ofNumeral ((first :: rest).takeWhile isNumberCharacter),
            (first :: rest).drop ((first :: rest).takeWhile isNumberCharacter).length)
        else
          none
      else
        (ofWord? ((first :: rest).takeWhile Char.isAlpha)).map fun value =>
          (value, (first :: rest).drop ((first :: rest).takeWhile Char.isAlpha).length) := by
  have visible : isJsonBlank first = false := by
    simp only [marks, List.mem_cons, not_or] at unmarked
    simp [isJsonBlank, unmarked]
  rw [readValue.eq_def]
  simp only [dropBlanks_cons visible]
  split
  · next nothing => cases nothing
  · next quote => exact absurd (by simp [marks, (List.cons.inj quote).1]) unmarked
  · next bracket => exact absurd (by simp [marks, (List.cons.inj bracket).1]) unmarked
  · next brace => exact absurd (by simp [marks, (List.cons.inj brace).1]) unmarked
  · next whole =>
      obtain ⟨rfl, rfl⟩ := List.cons.inj whole
      rfl

/-- A number is read up to the end of its numeral, whatever the numeral denotes. -/
theorem readValue_numeral
    {first : Char}
    {numeral rest : List Char}
    (depth : Nat)
    (starts : startsNumber first = true)
    (characters : ∀ character ∈ first :: numeral, isNumberCharacter character = true)
    (whole : isNumeral (first :: numeral) = true)
    (ends : Ends rest) :
    readValue (depth + 1) (first :: numeral ++ rest) =
      some (ofNumeral (first :: numeral), rest) := by
  have taken :
      (first :: numeral ++ rest).takeWhile isNumberCharacter = first :: numeral :=
    takeWhile_append_of_stops characters fun character head => (ends character head).1
  rw [List.cons_append,
    readValue_unmarked depth (not_mem_marks_of_startsNumber starts), if_pos starts,
    ← List.cons_append, taken, if_pos whole, List.drop_left]

/-- A word is read up to its end. -/
theorem readValue_word
    {first : Char}
    {word rest : List Char}
    {value : Json}
    (depth : Nat)
    (letters : (first :: word).all Char.isAlpha = true)
    (known : ofWord? (first :: word) = some value)
    (ends : Ends rest) :
    readValue (depth + 1) (first :: word ++ rest) = some (value, rest) := by
  have taken : (first :: word ++ rest).takeWhile Char.isAlpha = first :: word :=
    takeWhile_append_of_stops (List.all_eq_true.mp letters) fun character head =>
      (ends character head).2
  have letter := List.all_eq_true.mp letters first List.mem_cons_self
  rw [List.cons_append, readValue_unmarked depth (not_mem_marks_of_isAlpha letter),
    if_neg (by simp [startsNumber_of_isAlpha letter]), ← List.cons_append, taken, known,
    Option.map_some, List.drop_left]

/-! ## Strings and lists of values -/

theorem toList_stringText (value : String) :
    (stringText value).toList = '"' :: (value.toList.flatMap characterText ++ ['"']) := by
  rw [stringText, String.toList_ofList, List.cons_append]

theorem readValue_stringText
    (depth : Nat)
    (value : String)
    (rest : List Char) :
    readValue (depth + 1) ((stringText value).toList ++ rest) =
      some (.string value, rest) := by
  have contents := stringContents_flatMap_characterText value.toList [] rest
  rw [List.reverse_nil, List.nil_append, String.ofList_toList] at contents
  rw [toList_stringText, List.cons_append, List.append_assoc, List.singleton_append]
  change (stringContents [] (value.toList.flatMap characterText ++ '"' :: rest)).map _ = _
  rw [contents]
  rfl

theorem readValue_bracket
    {first : Char}
    (depth : Nat)
    (visible : isJsonBlank first = false)
    (further : first ≠ ']')
    (rest : List Char) :
    readValue (depth + 1) ('[' :: first :: rest) =
      (readItems depth (first :: rest)).map fun (items, rest) => (.array items, rest) := by
  rw [readValue.eq_def]
  simp only [dropBlanks_cons (show isJsonBlank '[' = false by decide), dropBlanks_cons visible]
  split
  · next closed => exact absurd (List.cons.inj closed).1 further
  · rfl

theorem readValue_brace
    (depth : Nat)
    (rest : List Char) :
    readValue (depth + 1) ('\x7b' :: '"' :: rest) =
      (readMembers depth ('"' :: rest)).map fun (members, rest) =>
        (.object (lastOfEach members), rest) := by
  rfl

/-- The value is read from its text, if the depth allows for it, whatever follows. -/
def IsReadBack (json : Json) : Prop :=
  ∀ depth rest, json.text.toList.length ≤ depth → Ends rest →
    readValue (depth + 1) (json.text.toList ++ rest) = some (json, rest)

/-- What stands between the brackets of an array. -/
def itemsText (items : List Json) : List Char :=
  (String.intercalate "," (itemTexts items)).toList

/-- What stands between the brackets of an object. -/
def membersText (members : List (String × Json)) : List Char :=
  (String.intercalate "," (memberTexts members)).toList

theorem itemsText_singleton (item : Json) :
    itemsText [item] = item.text.toList := by
  simp [itemsText, itemTexts]

theorem itemsText_cons
    (item following : Json)
    (items : List Json) :
    itemsText (item :: following :: items) =
      item.text.toList ++ ',' :: itemsText (following :: items) := by
  simp [itemsText, itemTexts, String.toList_intercalate]

theorem membersText_singleton
    (name : String)
    (value : Json) :
    membersText [(name, value)] = (stringText name).toList ++ ':' :: value.text.toList := by
  simp [membersText, memberTexts]

theorem membersText_cons
    (name : String)
    (value : Json)
    (following : String × Json)
    (members : List (String × Json)) :
    membersText ((name, value) :: following :: members) =
      (stringText name).toList ++
        ':' :: (value.text.toList ++ ',' :: membersText (following :: members)) := by
  simp [membersText, memberTexts, String.toList_intercalate]

theorem dropBlanks_comma (rest : List Char) :
    dropBlanks (',' :: rest) = ',' :: rest :=
  dropBlanks_cons (by decide) rest

theorem dropBlanks_bracket (rest : List Char) :
    dropBlanks (']' :: rest) = ']' :: rest :=
  dropBlanks_cons (by decide) rest

theorem dropBlanks_brace (rest : List Char) :
    dropBlanks ('\x7d' :: rest) = '\x7d' :: rest :=
  dropBlanks_cons (by decide) rest

/-- After a value, the items go on behind a comma and end with a bracket. -/
theorem readItems_of_readValue
    {item : Json}
    {characters rest : List Char}
    (depth : Nat)
    (read : readValue depth characters = some (item, rest)) :
    readItems (depth + 1) characters =
      match dropBlanks rest with
      | ',' :: rest =>
          (readItems depth rest).bind fun (items, rest) => some (item :: items, rest)
      | ']' :: rest => some ([item], rest)
      | _ => (none : Option (List Json × List Char)) := by
  rw [readItems, read]
  rfl

theorem readItems_itemsText
    {items : List Json}
    (each : ∀ item ∈ items, item.IsReadBack)
    (nonempty : items ≠ [])
    (depth : Nat)
    (rest : List Char)
    (enough : (itemsText items).length ≤ depth) :
    readItems (depth + 2) (itemsText items ++ ']' :: rest) = some (items, rest) := by
  induction items generalizing depth with
  | nil => exact absurd rfl nonempty
  | cons item items inductionHypothesis =>
      have first : item.IsReadBack := each item List.mem_cons_self
      cases items with
      | nil =>
          rw [itemsText_singleton] at enough ⊢
          have read := first depth (']' :: rest) enough (ends_cons rest (by decide))
          rw [readItems_of_readValue (depth + 1) read, dropBlanks_bracket]
          rfl
      | cons following items =>
          rw [itemsText_cons, List.length_append, List.length_cons] at enough
          obtain ⟨depth, rfl⟩ : ∃ less, depth = less + 1 := ⟨depth - 1, by omega⟩
          have read :=
            first (depth + 1) (',' :: (itemsText (following :: items) ++ ']' :: rest))
              (by omega) (ends_cons _ (by decide))
          have others :=
            inductionHypothesis
              (fun other member => each other (List.mem_cons_of_mem _ member))
              (List.cons_ne_nil _ _) depth (by omega)
          rw [itemsText_cons, List.append_assoc, List.cons_append,
            readItems_of_readValue (depth + 2) read, dropBlanks_comma]
          simp only [others, Option.bind_some]

/-- After a name and a colon, a value is read and then the members after it. -/
theorem readMembers_of_readValue
    {value : Json}
    {characters rest : List Char}
    (depth : Nat)
    (name : String)
    (read : readValue depth characters = some (value, rest)) :
    readMembers (depth + 1) ((stringText name).toList ++ ':' :: characters) =
      match dropBlanks rest with
      | ',' :: rest =>
          (readMembers depth rest).bind fun (members, rest) =>
            some ((name, value) :: members, rest)
      | '\x7d' :: rest => some ([(name, value)], rest)
      | _ => (none : Option (List (String × Json) × List Char)) := by
  have contents := stringContents_flatMap_characterText name.toList [] (':' :: characters)
  rw [List.reverse_nil, List.nil_append, String.ofList_toList] at contents
  rw [toList_stringText, List.cons_append, List.append_assoc, List.singleton_append]
  change (stringContents [] _).bind _ = _
  rw [contents]
  change (readValue depth characters).bind _ = _
  rw [read]
  rfl

theorem readMembers_membersText
    {members : List (String × Json)}
    (each : ∀ member ∈ members, member.2.IsReadBack)
    (nonempty : members ≠ [])
    (depth : Nat)
    (rest : List Char)
    (enough : (membersText members).length ≤ depth) :
    readMembers (depth + 2) (membersText members ++ '\x7d' :: rest) =
      some (members, rest) := by
  induction members generalizing depth with
  | nil => exact absurd rfl nonempty
  | cons member members inductionHypothesis =>
      obtain ⟨name, value⟩ := member
      have first : value.IsReadBack := each (name, value) List.mem_cons_self
      cases members with
      | nil =>
          rw [membersText_singleton, List.length_append, List.length_cons] at enough
          have read := first depth ('\x7d' :: rest) (by omega) (ends_cons rest (by decide))
          rw [membersText_singleton, List.append_assoc, List.cons_append,
            readMembers_of_readValue (depth + 1) name read, dropBlanks_brace]
          rfl
      | cons following members =>
          rw [membersText_cons, List.length_append, List.length_cons,
            List.length_append, List.length_cons] at enough
          obtain ⟨depth, rfl⟩ : ∃ less, depth = less + 1 := ⟨depth - 1, by omega⟩
          have read :=
            first (depth + 1) (',' :: (membersText (following :: members) ++ '\x7d' :: rest))
              (by omega) (ends_cons _ (by decide))
          have others :=
            inductionHypothesis
              (fun other among => each other (List.mem_cons_of_mem _ among))
              (List.cons_ne_nil _ _) depth (by omega)
          rw [membersText_cons, List.append_assoc, List.cons_append, List.append_assoc,
            List.cons_append, readMembers_of_readValue (depth + 2) name read,
            dropBlanks_comma]
          simp only [others, Option.bind_some]

/-! ## Values -/

/-- Of distinct names, each is the last of its kind. -/
theorem lastOfEach_of_nodup
    {members : List (String × Json)}
    (distinct : (members.map Prod.fst).Nodup) :
    lastOfEach members = members := by
  induction members with
  | nil => rfl
  | cons member members inductionHypothesis =>
      rw [List.map_cons, List.nodup_cons] at distinct
      have last : (members.any fun other => other.1 == member.1) = false := by
        rw [List.any_eq_false]
        intro other among
        have differs : other.1 ≠ member.1 := fun same =>
          distinct.1 (same ▸ List.mem_map_of_mem among)
        simpa using differs
      rw [lastOfEach, last, inductionHypothesis distinct.2]
      rfl

/--
The text of the value stands for the value itself.

An integer must fit into 64 bits, and a number that is kept as it is written must
be written as one that does not.  The members of an object have distinct names.
-/
inductive Legible : Json → Prop where
  | null : Legible .null
  | boolean (value : Bool) : Legible (.boolean value)
  | integer
      (value : Int)
      (least : Int64.minValue.toInt ≤ value)
      (below : value < range64) :
      Legible (.integer value)
  | decimal
      (first : Char)
      (numeral : List Char)
      (starts : startsNumber first = true)
      (characters : ∀ character ∈ first :: numeral, isNumberCharacter character = true)
      (whole : isNumeral (first :: numeral) = true)
      (unfit : integerOf? (first :: numeral) = none) :
      Legible (.decimal (String.ofList (first :: numeral)))
  | string (value : String) : Legible (.string value)
  | array
      (items : List Json)
      (each : ∀ item ∈ items, Legible item) :
      Legible (.array items)
  | object
      (members : List (String × Json))
      (distinct : (members.map Prod.fst).Nodup)
      (each : ∀ member ∈ members, Legible member.2) :
      Legible (.object members)

/-- The numeral of an integer begins as a number does and has nothing but its characters. -/
theorem exists_numeral (value : Int) :
    ∃ first numeral, value.repr.toList = first :: numeral ∧
      startsNumber first = true ∧
        ∀ character ∈ first :: numeral, isNumberCharacter character = true := by
  have digits (number : Nat) :
      ∀ digit ∈ Nat.toDigits 10 number, digit.isDigit = true := fun digit member =>
    Nat.isDigit_of_mem_toDigits (by decide) (by decide) member
  rw [Int.repr_eq_if]
  split
  · obtain ⟨first, numeral, written⟩ :=
      List.exists_cons_of_ne_nil (Nat.toDigits_ne_nil (n := value.toNat) (b := 10))
    have each := digits value.toNat
    rw [written] at each
    refine ⟨first, numeral, by rw [Nat.toList_repr, written], ?_, fun character member => ?_⟩
    · simp [startsNumber, each first List.mem_cons_self]
    · simp [isNumberCharacter, each character member]
  · refine ⟨'-', Nat.toDigits 10 (-value).toNat, ?_, by decide, fun character member => ?_⟩
    · rw [String.toList_append, Nat.toList_repr]
      rfl
    · rcases List.mem_cons.mp member with rfl | member
      · decide
      · simp [isNumberCharacter, digits _ character member]

/-- The digits of a number are all that is dropped of them, a zero being the only one. -/
theorem dropUnsigned?_toDigits (number : Nat) :
    dropUnsigned? (Nat.toDigits 10 number) = some [] := by
  obtain ⟨first, digits, written⟩ :=
    List.exists_cons_of_ne_nil (Nat.toDigits_ne_nil (n := number) (b := 10))
  have digital : ∀ digit ∈ first :: digits, digit.isDigit = true := fun digit member =>
    Nat.isDigit_of_mem_toDigits (by decide) (by decide) (written ▸ member)
  have dropped : dropWhole? (first :: digits) = some [] := by
    rw [dropWhole?.eq_def]
    split
    · next rest zero =>
        obtain ⟨rfl, rfl⟩ := List.cons.inj zero
        rw [Text.eq_nil_of_toDigits_eq_zero_cons written]
    · have rest : digits.dropWhile Char.isDigit = [] :=
        List.dropWhile_eq_nil_iff.mpr fun digit member =>
          digital digit (List.mem_cons_of_mem _ member)
      rw [dropDigits?, if_pos (digital first List.mem_cons_self), rest]
  rw [written, dropUnsigned?, dropped]
  rfl

theorem isNumeral_repr (value : Int) : isNumeral value.repr.toList = true := by
  rw [Int.repr_eq_if]
  split
  · rw [Nat.toList_repr, isNumeral.eq_def]
    split
    · next rest minus =>
        have digit : '-'.isDigit = true :=
          Nat.isDigit_of_mem_toDigits (b := 10) (by decide) (by decide)
            (minus ▸ List.mem_cons_self)
        exact absurd digit (by decide)
    · rw [dropUnsigned?_toDigits]
      rfl
  · rw [String.toList_append, Nat.toList_repr]
    change (dropUnsigned? (Nat.toDigits 10 _) == some []) = true
    rw [dropUnsigned?_toDigits]
    rfl

theorem integerOf?_repr
    {value : Int}
    (least : Int64.minValue.toInt ≤ value)
    (below : value < range64) :
    integerOf? value.repr.toList = some value := by
  have signed := Text.signed?_repr value
  rw [integerOf?.eq_def]
  split
  · next minus =>
      -- A zero with a sign is not the numeral of zero.
      rw [minus] at signed
      have zero : Text.signed? ['-', '0'] = some 0 := by decide
      obtain rfl : value = 0 := Option.some.inj (signed.symm.trans zero)
      exact absurd minus (by decide)
  · next rest plus =>
      obtain ⟨first, numeral, written, starts, _⟩ := exists_numeral value
      rw [(List.cons.inj (plus.symm.trans written)).1.symm] at starts
      exact absurd starts (by decide)
  · rw [signed, Option.filter_some, decide_eq_true least, decide_eq_true below]
    rfl

theorem text_array (items : List Json) :
    (Json.array items).text.toList = '[' :: (itemsText items ++ [']']) := by
  simp [text, itemsText]

theorem text_object (members : List (String × Json)) :
    (Json.object members).text.toList = '\x7b' :: (membersText members ++ ['\x7d']) := by
  simp [text, membersText]

/-- The text of a value is neither skipped nor taken for the end of an array. -/
theorem Legible.begins
    {json : Json}
    (legible : json.Legible) :
    ∃ first rest, json.text.toList = first :: rest ∧
      isJsonBlank first = false ∧ first ≠ ']' := by
  have ofNumber {first : Char} (starts : startsNumber first = true) :
      isJsonBlank first = false ∧ first ≠ ']' := by
    have unmarked := not_mem_marks_of_startsNumber starts
    simp only [marks, List.mem_cons, not_or] at unmarked
    simp [isJsonBlank, unmarked]
  cases legible with
  | null => exact ⟨'n', ['u', 'l', 'l'], rfl, by decide⟩
  | boolean value =>
      cases value with
      | true => exact ⟨'t', ['r', 'u', 'e'], rfl, by decide⟩
      | false => exact ⟨'f', ['a', 'l', 's', 'e'], rfl, by decide⟩
  | integer value =>
      obtain ⟨first, numeral, written, starts, _⟩ := exists_numeral value
      exact ⟨first, numeral, written, ofNumber starts⟩
  | decimal first numeral starts =>
      exact ⟨first, numeral, String.toList_ofList, ofNumber starts⟩
  | string value => exact ⟨'"', _, toList_stringText value, by decide⟩
  | array items => exact ⟨'[', _, text_array items, by decide⟩
  | object members => exact ⟨'\x7b', _, text_object members, by decide⟩

theorem begins_itemsText
    {item : Json}
    (items : List Json)
    (legible : item.Legible) :
    ∃ first rest, itemsText (item :: items) = first :: rest ∧
      isJsonBlank first = false ∧ first ≠ ']' := by
  obtain ⟨first, rest, written, visible, further⟩ := legible.begins
  cases items with
  | nil => exact ⟨first, rest, by rw [itemsText_singleton, written], visible, further⟩
  | cons following items =>
      exact ⟨first, _, by rw [itemsText_cons, written, List.cons_append], visible, further⟩

theorem begins_membersText
    (member : String × Json)
    (members : List (String × Json)) :
    ∃ rest, membersText (member :: members) = '"' :: rest := by
  obtain ⟨name, value⟩ := member
  cases members with
  | nil => exact ⟨_, by rw [membersText_singleton, toList_stringText, List.cons_append]⟩
  | cons following members =>
      exact ⟨_, by rw [membersText_cons, toList_stringText, List.cons_append]⟩

theorem Legible.isReadBack
    {json : Json}
    (legible : json.Legible) :
    json.IsReadBack := by
  induction legible with
  | null =>
      intro depth rest _ ends
      change readValue (depth + 1) ('n' :: ['u', 'l', 'l'] ++ rest) = _
      exact readValue_word depth rfl rfl ends
  | boolean value =>
      intro depth rest _ ends
      cases value with
      | true =>
          change readValue (depth + 1) ('t' :: ['r', 'u', 'e'] ++ rest) = _
          exact readValue_word depth rfl rfl ends
      | false =>
          change readValue (depth + 1) ('f' :: ['a', 'l', 's', 'e'] ++ rest) = _
          exact readValue_word depth rfl rfl ends
  | integer value least below =>
      obtain ⟨first, numeral, written, starts, characters⟩ := exists_numeral value
      intro depth rest _ ends
      change readValue (depth + 1) (value.repr.toList ++ rest) = _
      have whole := isNumeral_repr value
      rw [written] at whole
      rw [written, readValue_numeral depth starts characters whole ends, ofNumeral, ← written,
        integerOf?_repr least below]
  | decimal first numeral starts characters whole unfit =>
      intro depth rest _ ends
      rw [text, String.toList_ofList, readValue_numeral depth starts characters whole ends,
        ofNumeral, unfit]
  | string value =>
      intro depth rest _ _
      exact readValue_stringText depth value rest
  | array items each inductionHypothesis =>
      intro depth rest enough _
      rw [text_array] at enough ⊢
      cases items with
      | nil => rfl
      | cons item items =>
          obtain ⟨first, others, written, visible, further⟩ :=
            begins_itemsText items (each item List.mem_cons_self)
          simp only [List.length_cons, List.length_append, List.length_nil] at enough
          obtain ⟨depth, rfl⟩ : ∃ less, depth = less + 2 := ⟨depth - 2, by omega⟩
          have read :=
            readItems_itemsText inductionHypothesis (List.cons_ne_nil item items) depth rest
              (by omega)
          rw [List.cons_append, List.append_assoc, List.singleton_append, written,
            List.cons_append, readValue_bracket _ visible further, ← List.cons_append,
            ← written, read]
          rfl
  | object members distinct each inductionHypothesis =>
      intro depth rest enough _
      rw [text_object] at enough ⊢
      cases members with
      | nil => rfl
      | cons member members =>
          obtain ⟨others, written⟩ := begins_membersText member members
          simp only [List.length_cons, List.length_append, List.length_nil] at enough
          obtain ⟨depth, rfl⟩ : ∃ less, depth = less + 2 := ⟨depth - 2, by omega⟩
          have read :=
            readMembers_membersText inductionHypothesis (List.cons_ne_nil member members) depth
              rest (by omega)
          rw [List.cons_append, List.append_assoc, List.singleton_append, written,
            List.cons_append, readValue_brace, ← List.cons_append, ← written, read]
          simp only [Option.map_some, lastOfEach_of_nodup distinct]

/-- A value within the limits of a library is legible, and the reader has none itself. -/
theorem Portable.legible
    {depth : Nat}
    {json : Json}
    (portable : json.Portable depth) :
    json.Legible := by
  induction portable with
  | null => exact .null
  | boolean value => exact .boolean value
  | integer value least below => exact .integer value least below
  | string value => exact .string value
  | array items _ inductionHypothesis => exact .array items inductionHypothesis
  | object members distinct _ inductionHypothesis =>
      exact .object members distinct inductionHypothesis

/-- A value is read back from its text. -/
theorem read?_text
    {json : Json}
    (legible : json.Legible) :
    read? json.text = some json := by
  have read := legible.isReadBack json.text.toList.length [] (Nat.le_refl _) ends_nil
  rw [List.append_nil] at read
  rw [read?, read]
  rfl

/-- The writer and the reader of this library together. -/
def plainCodec : TextCodec where
  write := text
  read := read?

theorem readsBack_plainCodec : plainCodec.ReadsBack := fun _ portable =>
  read?_text portable.legible

end ClassStore.Exchange.Json
