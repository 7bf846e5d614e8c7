import ClassStore.Date.Notation
import ClassStore.Proofs.Date.Assignment

/-!
# Written dates

A text is read as a partial date segment by segment, and each segment is assigned as
soon as it is read.  `Written` describes the forms of a date without the reader: fields
of fixed width, each of which either has the letter x in place of every digit or is made
of digits.  A text is read exactly if it has one of the two forms, defines a segment and
assigns values that some point of civil time has.
-/

namespace ClassStore.Date.PartialDate

/-! ## Forms -/

/-- The characters of a segment, with what they assign to it. -/
inductive Field (segment : Segment) : List Char → List (Segment × Nat) → Prop where
  | opened {characters : List Char}
      (width : characters.length = segment.width)
      (letters : ∀ character ∈ characters, character = 'x' ∨ character = 'X') :
      Field segment characters []
  | defined {characters : List Char}
      (width : characters.length = segment.width)
      (digits : ∀ character ∈ characters, character.isDigit = true) :
      Field segment characters [(segment, Text.digitsValue characters)]

/--
The characters are fields for the given segments, with what they assign.

In front of a field stands one of the given separators, if there are any.
-/
inductive Written : List (Segment × List Char) → List Char → List (Segment × Nat) → Prop where
  | done : Written [] [] []
  | first {segment : Segment} {form : List (Segment × List Char)}
      {field rest : List Char} {entries others : List (Segment × Nat)}
      (isField : Field segment field entries)
      (written : Written form rest others) :
      Written ((segment, []) :: form) (field ++ rest) (entries ++ others)
  | behind {segment : Segment} {separators : List Char} {form : List (Segment × List Char)}
      {separator : Char} {field rest : List Char} {entries others : List (Segment × Nat)}
      (isSeparator : separator ∈ separators)
      (isField : Field segment field entries)
      (written : Written form rest others) :
      Written ((segment, separators) :: form) (separator :: (field ++ rest)) (entries ++ others)

/-- The form of a day: year, month and day with hyphens between them. -/
def dayForm : List (Segment × List Char) :=
  [(.year, []), (.month, ['-']), (.day, ['-'])]

/-- The form of a day and a time, with a T or a blank between them. -/
def momentForm : List (Segment × List Char) :=
  dayForm ++ [(.hour, ['T', ' ']), (.minute, [':']), (.second, [':'])]

/-- The number of characters that a form has. -/
def formLength : List (Segment × List Char) → Nat
  | [] => 0
  | (segment, separators) :: form =>
      (if separators.isEmpty then 0 else 1) + segment.width + formLength form

theorem Field.length_eq
    {segment : Segment}
    {characters : List Char}
    {entries : List (Segment × Nat)}
    (isField : Field segment characters entries) :
    characters.length = segment.width := by
  cases isField with
  | opened width => exact width
  | defined width => exact width

theorem Field.sublist
    {segment : Segment}
    {characters : List Char}
    {entries : List (Segment × Nat)}
    (isField : Field segment characters entries) :
    (entries.map Prod.fst).Sublist [segment] := by
  cases isField with
  | opened => exact List.nil_sublist _
  | defined => exact List.Sublist.refl _

theorem Written.length_eq
    {form : List (Segment × List Char)}
    {characters : List Char}
    {entries : List (Segment × Nat)}
    (written : Written form characters entries) :
    characters.length = formLength form := by
  induction written with
  | done => rfl
  | first isField _ inductionHypothesis =>
      simp [formLength, isField.length_eq, inductionHypothesis]
  | behind isSeparator isField _ inductionHypothesis =>
      simp [formLength, isField.length_eq, inductionHypothesis, List.ne_nil_of_mem isSeparator]
      omega

theorem Written.sublist
    {form : List (Segment × List Char)}
    {characters : List Char}
    {entries : List (Segment × Nat)}
    (written : Written form characters entries) :
    (entries.map Prod.fst).Sublist (form.map Prod.fst) := by
  induction written with
  | done => exact List.Sublist.refl _
  | first isField _ inductionHypothesis =>
      rw [List.map_append]
      exact isField.sublist.append inductionHypothesis
  | behind _ isField _ inductionHypothesis =>
      rw [List.map_append]
      exact isField.sublist.append inductionHypothesis

/-! ## Reading -/

theorem width_pos (segment : Segment) : 0 < segment.width := by
  cases segment <;> decide

/-- Some characters stand for a number exactly if all of them are digits. -/
theorem unsigned?_eq_some_iff
    {characters : List Char}
    (nonempty : characters ≠ [])
    {value : Nat} :
    Text.unsigned? characters = some value ↔
      (∀ character ∈ characters, character.isDigit = true) ∧
        value = Text.digitsValue characters := by
  rw [eq_comm (a := value)]
  simp [Text.unsigned?, nonempty]

/-- A field is read by assigning what its characters stand for. -/
theorem readField_eq_some_iff
    {segment : Segment}
    {characters : List Char}
    (width : characters.length = segment.width)
    {date after : PartialDate} :
    date.readField segment characters = some after ↔
      ∃ entries, Field segment characters entries ∧ assignAll? entries date = some after := by
  have nonempty : characters ≠ [] := by
    rintro rfl
    exact absurd width (Nat.ne_of_lt (width_pos segment))
  rw [readField]
  split
  · next letters =>
      have allLetters : ∀ character ∈ characters, character = 'x' ∨ character = 'X' := by
        simpa using letters
      constructor
      · rintro ⟨⟩
        exact ⟨[], .opened width allLetters, rfl⟩
      · rintro ⟨entries, isField, assigned⟩
        cases isField with
        | opened => exact assigned
        | defined _ digits =>
            -- A field of digits is no field of letters, because it is not empty.
            obtain ⟨character, isMember⟩ := List.exists_mem_of_ne_nil characters nonempty
            have isDigit := digits character isMember
            rcases allLetters character isMember with rfl | rfl
            · exact absurd isDigit (by decide)
            · exact absurd isDigit (by decide)
  · next noLetters =>
      rw [Option.bind_eq_some_iff]
      simp only [unsigned?_eq_some_iff nonempty]
      constructor
      · rintro ⟨_, ⟨digits, rfl⟩, assigned⟩
        exact ⟨_, .defined width digits, by simp [assignAll?, assigned]⟩
      · rintro ⟨entries, isField, assigned⟩
        cases isField with
        | opened _ letters => exact absurd (by simpa using letters) noLetters
        | defined _ digits => exact ⟨_, ⟨digits, rfl⟩, by simpa [assignAll?] using assigned⟩

/-- The reader of a form reads exactly what is written in it, if the length is right. -/
def ReadsForm (form : List (Segment × List Char)) : Prop :=
  ∀ characters date after,
    characters.length = formLength form →
      (readFields form date characters = some after ↔
        ∃ entries, Written form characters entries ∧ assignAll? entries date = some after)

/-- A field and what follows it are read one after the other. -/
theorem readField_bind_eq_some_iff
    {form : List (Segment × List Char)}
    (reads : ReadsForm form)
    {segment : Segment}
    {characters : List Char}
    (length : characters.length = segment.width + formLength form)
    {date after : PartialDate} :
    ((date.readField segment (characters.take segment.width)).bind fun date =>
        readFields form date (characters.drop segment.width)) = some after ↔
      ∃ field rest entries others,
        characters = field ++ rest ∧
        Field segment field entries ∧
        Written form rest others ∧
        assignAll? (entries ++ others) date = some after := by
  have fieldLength : (characters.take segment.width).length = segment.width := by
    rw [List.length_take]
    omega
  have restLength : (characters.drop segment.width).length = formLength form := by
    rw [List.length_drop]
    omega
  constructor
  · intro read
    obtain ⟨middle, fieldRead, restRead⟩ := Option.bind_eq_some_iff.mp read
    obtain ⟨entries, isField, assigned⟩ := (readField_eq_some_iff fieldLength).mp fieldRead
    obtain ⟨others, written, othersAssigned⟩ := (reads _ _ _ restLength).mp restRead
    refine ⟨_, _, entries, others, (List.take_append_drop _ _).symm, isField, written, ?_⟩
    rw [assignAll?_append, assigned, Option.bind_some, othersAssigned]
  · rintro ⟨field, rest, entries, others, rfl, isField, written, assigned⟩
    have width := isField.length_eq
    rw [assignAll?_append] at assigned
    obtain ⟨middle, entriesAssigned, othersAssigned⟩ := Option.bind_eq_some_iff.mp assigned
    rw [List.take_left' width, List.drop_left' width,
      (readField_eq_some_iff width).mpr ⟨entries, isField, entriesAssigned⟩, Option.bind_some]
    exact (reads _ _ _ written.length_eq).mpr ⟨others, written, othersAssigned⟩

/-- A form that begins with a field is read if the rest of it is. -/
theorem ReadsForm.first
    {form : List (Segment × List Char)}
    (reads : ReadsForm form)
    (segment : Segment) :
    ReadsForm ((segment, []) :: form) := by
  intro characters date after length
  have behind : characters.length = segment.width + formLength form := by
    rw [length, formLength]
    exact congrArg (· + formLength form) (Nat.zero_add _)
  refine (readField_bind_eq_some_iff reads behind).trans ⟨?_, ?_⟩
  · rintro ⟨field, rest, entries, others, rfl, isField, written, assigned⟩
    exact ⟨entries ++ others, .first isField written, assigned⟩
  · rintro ⟨entries, written, assigned⟩
    cases written with
    | first isField written => exact ⟨_, _, _, _, rfl, isField, written, assigned⟩
    | behind isSeparator => cases isSeparator

/-- A form that begins with a separator is read if the rest of it is. -/
theorem ReadsForm.behind
    {form : List (Segment × List Char)}
    (reads : ReadsForm form)
    (segment : Segment)
    (allowed : Char)
    (separators : List Char) :
    ReadsForm ((segment, allowed :: separators) :: form) := by
  intro characters date after length
  have length : characters.length = 1 + segment.width + formLength form := length
  cases characters with
  | nil =>
      rw [List.length_nil] at length
      omega
  | cons character characters =>
      rw [List.length_cons] at length
      have behind : characters.length = segment.width + formLength form := by omega
      by_cases isSeparator : character ∈ allowed :: separators
      · have taken :
            readFields ((segment, allowed :: separators) :: form) date
                (character :: characters) =
              (date.readField segment (characters.take segment.width)).bind fun date =>
                readFields form date (characters.drop segment.width) := by
          rw [readFields, dropSeparator]
          simp [isSeparator]
        rw [taken]
        refine (readField_bind_eq_some_iff reads behind).trans ⟨?_, ?_⟩
        · rintro ⟨field, rest, entries, others, rfl, isField, written, assigned⟩
          exact ⟨entries ++ others, .behind isSeparator isField written, assigned⟩
        · rintro ⟨entries, written, assigned⟩
          cases written with
          | behind _ isField written => exact ⟨_, _, _, _, rfl, isField, written, assigned⟩
      · constructor
        · intro read
          rw [readFields, dropSeparator] at read
          simp [isSeparator] at read
        · rintro ⟨entries, written, _⟩
          cases written with
          | behind isAllowed => exact absurd isAllowed isSeparator

theorem readsForm (form : List (Segment × List Char)) : ReadsForm form := by
  induction form with
  | nil =>
      intro characters date after length
      cases List.length_eq_zero_iff.mp length
      constructor
      · rintro ⟨⟩
        exact ⟨[], .done, rfl⟩
      · rintro ⟨entries, written, assigned⟩
        cases written
        exact assigned
  | cons part form inductionHypothesis =>
      rcases part with ⟨segment, separators⟩
      cases separators with
      | nil => exact inductionHypothesis.first segment
      | cons allowed separators => exact inductionHypothesis.behind segment allowed separators

theorem layoutOfLength_eq_some_iff
    {length : Nat}
    {form : List (Segment × List Char)} :
    layoutOfLength length = some form ↔
      length = formLength form ∧ (form = dayForm ∨ form = momentForm) := by
  have day : formLength dayForm = 10 := by decide
  have moment : formLength momentForm = 19 := by decide
  constructor
  · intro isLayout
    rw [layoutOfLength] at isLayout
    split at isLayout
    · next isDay =>
        cases isLayout
        exact ⟨isDay.trans day.symm, .inl rfl⟩
    · split at isLayout
      · next isMoment =>
          cases isLayout
          exact ⟨isMoment.trans moment.symm, .inr rfl⟩
      · cases isLayout
  · rintro ⟨rfl, rfl | rfl⟩
    · rw [day]
      rfl
    · rw [moment]
      rfl

/-- What a text in one of the two forms assigns, each segment at most once. -/
theorem Written.nodup
    {form : List (Segment × List Char)}
    (isForm : form = dayForm ∨ form = momentForm)
    {characters : List Char}
    {entries : List (Segment × Nat)}
    (written : Written form characters entries) :
    (entries.map Prod.fst).Nodup := by
  apply written.sublist.nodup
  rcases isForm with rfl | rfl <;> decide

/-- A date defines a segment exactly if some value was assigned. -/
theorem isEmpty_segments_setAll
    {entries : List (Segment × Nat)}
    (distinct : (entries.map Prod.fst).Nodup) :
    (setAll entries empty).segments.isEmpty = entries.isEmpty := by
  cases entries with
  | nil => rfl
  | cons entry entries =>
      rcases entry with ⟨segment, value⟩
      have defined : (setAll ((segment, value) :: entries) empty).get? segment = some value :=
        get?_setAll_of_mem distinct List.mem_cons_self empty
      have contained :
          (setAll ((segment, value) :: entries) empty).segments.contains segment = true := by
        rw [contains_segments, defined]
        rfl
      have isListed : segment ∈ (setAll ((segment, value) :: entries) empty).segments.toList :=
        List.mem_filter.mpr ⟨by cases segment <;> decide, contained⟩
      rw [SegmentSet.isEmpty, List.isEmpty_eq_false_iff.mpr (List.ne_nil_of_mem isListed)]
      rfl

/-- A text is read exactly if it is written in one of the two forms and assigns something. -/
theorem read?_eq_some_iff
    {text : String}
    {date : PartialDate} :
    read? text = some date ↔
      ∃ entries,
        (Written dayForm text.toList entries ∨ Written momentForm text.toList entries) ∧
        entries ≠ [] ∧
        assignAll? entries empty = some date := by
  constructor
  · intro read
    obtain ⟨form, isForm, others⟩ := Option.bind_eq_some_iff.mp read
    obtain ⟨after, fieldsRead, defined⟩ := Option.bind_eq_some_iff.mp others
    obtain ⟨length, kinds⟩ := layoutOfLength_eq_some_iff.mp isForm
    obtain ⟨entries, written, assigned⟩ := (readsForm form _ _ _ length).mp fieldsRead
    have distinct := written.nodup kinds
    split at defined
    · cases defined
    · next nonempty =>
        cases defined
        refine ⟨entries, ?_, ?_, assigned⟩
        · rcases kinds with rfl | rfl
          · exact .inl written
          · exact .inr written
        · rintro rfl
          cases assigned
          exact nonempty rfl
  · rintro ⟨entries, kinds, nonempty, assigned⟩
    obtain ⟨form, isForm, written⟩ :
        ∃ form, (form = dayForm ∨ form = momentForm) ∧ Written form text.toList entries := by
      rcases kinds with written | written
      · exact ⟨_, .inl rfl, written⟩
      · exact ⟨_, .inr rfl, written⟩
    have fieldsRead := (readsForm form _ _ _ written.length_eq).mpr ⟨entries, written, assigned⟩
    have length := layoutOfLength_eq_some_iff.mpr ⟨written.length_eq, isForm⟩
    have defined : date.segments.isEmpty = false := by
      rw [((assignAll?_eq_some_iff (written.nodup isForm)).mp assigned).1,
        isEmpty_segments_setAll (written.nodup isForm)]
      simpa using nonempty
    simp [read?, length, fieldsRead, defined]

/-- A date that is read has some segment, and some point of civil time fits it. -/
theorem exists_fits_of_read?
    {text : String}
    {date : PartialDate}
    (read : read? text = some date) :
    (∃ segment value, date.get? segment = some value) ∧
      ∃ moment : DateTime, moment.IsCivil ∧ date.Fits moment := by
  obtain ⟨entries, kinds, nonempty, assigned⟩ := read?_eq_some_iff.mp read
  have distinct : (entries.map Prod.fst).Nodup := by
    rcases kinds with written | written
    · exact written.nodup (.inl rfl)
    · exact written.nodup (.inr rfl)
  obtain ⟨rfl, moment, isCivil, agrees⟩ := (assignAll?_eq_some_iff distinct).mp assigned
  obtain ⟨⟨segment, value⟩, isEntry⟩ := List.exists_mem_of_ne_nil entries nonempty
  exact ⟨⟨segment, value, get?_setAll_of_mem distinct isEntry empty⟩,
    moment, isCivil, (fits_setAll_iff distinct).mpr agrees⟩

/--
A partial date is accepted exactly if some real date fits it.

Values for different segments can be assigned one after the other, in any order, if and
only if some point of civil time in the years 0 to 9999 has all of them.  Every order
then gives the same date, which defines exactly these values.  A text is read if and only
if it is a day or a day with a time, in which every field is all letters x or all digits,
some field is made of digits, and the values of these fields can be assigned; the date
that is read is the one that is assigned.
-/
theorem accepted_iff_civil :
    (∀ entries : List (Segment × Nat), (entries.map Prod.fst).Nodup →
      ((∃ date, assignAll? entries empty = some date) ↔
        ∃ moment : DateTime,
          moment.IsCivil ∧ ∀ entry ∈ entries, moment.valueOf entry.1 = entry.2) ∧
      (∀ others : List (Segment × Nat), others.Perm entries →
        assignAll? others empty = assignAll? entries empty) ∧
      ∀ date, assignAll? entries empty = some date →
        ∀ segment value, date.get? segment = some value ↔ (segment, value) ∈ entries) ∧
    ∀ text date,
      read? text = some date ↔
        ∃ entries,
          (Written dayForm text.toList entries ∨ Written momentForm text.toList entries) ∧
          entries ≠ [] ∧
          assignAll? entries empty = some date := by
  refine ⟨fun entries distinct => ⟨?_, ?_, ?_⟩, fun text date => read?_eq_some_iff⟩
  · simp only [assignAll?_eq_some_iff distinct, exists_eq_left]
  · exact fun others perm => assignAll?_empty_perm distinct perm
  · intro date assigned segment value
    rw [((assignAll?_eq_some_iff distinct).mp assigned).1]
    exact get?_setAll_empty_eq_some_iff distinct

/-- The leap day, day first. -/
def leapDay : List (Segment × Nat) :=
  [(.day, 29), (.month, 2)]

/-- The leap day is a day of some year, but not of the year 2023, and is read with the year open. -/
theorem leapDay_accepted_without_year :
    (∃ moment : DateTime,
      moment.IsCivil ∧ ∀ entry ∈ leapDay, moment.valueOf entry.1 = entry.2) ∧
    (¬∃ moment : DateTime,
      moment.IsCivil ∧ ∀ entry ∈ leapDay ++ [(.year, 2023)], moment.valueOf entry.1 = entry.2) ∧
    ∃ entries,
      Written momentForm "xxxx-02-29 XX:xx:xx".toList entries ∧
      assignAll? entries empty = some ⟨none, some 2, some 29, none, none, none⟩ := by
  obtain ⟨assigning, reading⟩ := accepted_iff_civil
  refine ⟨(assigning leapDay (by decide)).1.mp ⟨_, rfl⟩, fun isInYear => ?_, ?_⟩
  · obtain ⟨date, assigned⟩ :=
      (assigning (leapDay ++ [(.year, 2023)]) (by decide)).1.mpr isInYear
    have refused : assignAll? (leapDay ++ [(.year, 2023)]) empty = none := by
      decide
    rw [refused] at assigned
    cases assigned
  · have read :
        read? "xxxx-02-29 XX:xx:xx" = some ⟨none, some 2, some 29, none, none, none⟩ := by
      decide +kernel
    obtain ⟨entries, written | written, _, assigned⟩ := (reading _ _).mp read
    · exact absurd written.length_eq (by decide)
    · exact ⟨entries, written, assigned⟩

end ClassStore.Date.PartialDate
