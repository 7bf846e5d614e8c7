import ClassStore.Proofs.Date.Reachable
import ClassStore.Proofs.Text.Numeral

/-!
# Written dates that are read back

The written form of a date has a field of fixed width for every segment as long as each
value fits into its field (`IsAligned`).  Then the form assigns exactly the defined
segments, so that it is read back if there is any.  A year of more than four digits
makes the form too long to be read.

Texts that are read as one date differ only in the case of the letters x, in what stands
between day and time, and in whether a time that is open is written at all.  The written
form of the date is their normal form.
-/

namespace ClassStore.Date.PartialDate

/-! ## Characters of the written form -/

/-- The characters of some fields of a date, with the first separator in front of each. -/
def formText (date : PartialDate) (form : List (Segment × List Char)) : List Char :=
  form.flatMap fun part => part.2.take 1 ++ (date.segmentNotation part.1).toList

theorem formText_cons
    (date : PartialDate)
    (segment : Segment)
    (separators : List Char)
    (form : List (Segment × List Char)) :
    date.formText ((segment, separators) :: form) =
      separators.take 1 ++ ((date.segmentNotation segment).toList ++ date.formText form) := by
  rw [formText, List.flatMap_cons, List.append_assoc]
  rfl

theorem formText_append
    (date : PartialDate)
    (front back : List (Segment × List Char)) :
    date.formText (front ++ back) = date.formText front ++ date.formText back :=
  List.flatMap_append

theorem toList_text (date : PartialDate) : date.text.toList = date.formText momentForm := by
  rw [text, String.toList_join, List.flatMap_map]
  simp only [String.toList_append, String.toList_ofList]
  rfl

theorem toList_segmentNotation_of_open
    {date : PartialDate}
    {segment : Segment}
    (isOpen : date.get? segment = none) :
    (date.segmentNotation segment).toList = List.replicate segment.width 'x' := by
  rw [segmentNotation, fieldText, isOpen, Option.map_none, Option.getD_none, String.toList_ofList]

theorem segmentNotation_of_defined
    {date : PartialDate}
    {segment : Segment}
    {value : Nat}
    (defined : date.get? segment = some value) :
    date.segmentNotation segment = Text.padded segment.width value := by
  rw [segmentNotation, fieldText, defined, Option.map_some, Option.getD_some]

/-- A field has at least its width. -/
theorem le_length_segmentNotation (date : PartialDate) (segment : Segment) :
    segment.width ≤ (date.segmentNotation segment).toList.length := by
  cases defined : date.get? segment with
  | none =>
      rw [toList_segmentNotation_of_open defined, List.length_replicate]
  | some value =>
      rw [segmentNotation_of_defined defined]
      exact Text.le_length_padded _ _

theorem isDigit_or_eq_of_mem_segmentNotation
    {date : PartialDate}
    {segment : Segment}
    {character : Char}
    (isMember : character ∈ (date.segmentNotation segment).toList) :
    character.isDigit = true ∨ character = 'x' := by
  cases defined : date.get? segment with
  | none =>
      rw [toList_segmentNotation_of_open defined] at isMember
      exact .inr (List.eq_of_mem_replicate isMember)
  | some value =>
      rw [segmentNotation_of_defined defined] at isMember
      exact .inl (Text.isDigit_of_mem_padded isMember)

/-! ## Aligned dates -/

/-- Every defined segment can be written with the digits of its field. -/
def IsAligned (date : PartialDate) : Prop :=
  ∀ segment value, date.get? segment = some value → value < 10 ^ segment.width

/-- What a point of time has in a segment needs no more digits than the field, the year apart. -/
theorem countOf_lt_of_isReal
    {moment : DateTime}
    (isReal : moment.IsReal)
    {segment : Segment}
    (notYear : segment ≠ .year) :
    moment.countOf segment < 10 ^ segment.width := by
  obtain ⟨isDay, isTime⟩ := DateTime.isValid_wholeSecond_iff.mp isReal.isValid
  have month := month_of_isCalendarDay isDay
  have day := (isCalendarDay_iff.mp isDay).2
  have longest := daysInMonth_le moment.year moment.month
  simp only [isClockTime, Bool.and_eq_true, decide_eq_true_eq] at isTime
  cases segment with
  | year => exact absurd rfl notYear
  | month | day | hour | minute | second =>
      simp only [DateTime.countOf, DateTime.valueOf, Segment.width]
      omega

/-- In the years 0 to 9999 the year needs no more digits than its field either. -/
theorem countOf_lt_of_isCivil
    {moment : DateTime}
    (isCivil : moment.IsCivil)
    (segment : Segment) :
    moment.countOf segment < 10 ^ segment.width := by
  by_cases isYear : segment = .year
  · have year := isCivil.fourDigits
    simp only [isYear, DateTime.countOf, DateTime.valueOf, Segment.width]
    omega
  · exact countOf_lt_of_isReal isCivil.isReal isYear

theorem countOf_of_fits
    {date : PartialDate}
    {moment : DateTime}
    (fits : date.Fits moment)
    {segment : Segment}
    {value : Nat}
    (defined : date.get? segment = some value) :
    moment.countOf segment = value := by
  rw [DateTime.countOf, fits segment value defined, Int.toNat_natCast]

theorem isAligned_of_fits
    {date : PartialDate}
    {moment : DateTime}
    (isCivil : moment.IsCivil)
    (fits : date.Fits moment) :
    date.IsAligned := by
  intro segment value defined
  rw [← countOf_of_fits fits defined]
  exact countOf_lt_of_isCivil isCivil segment

/-! ## Reading what is written -/

/-- Which of the segments are defined, with their values. -/
def entries (date : PartialDate) (segments : List Segment) : List (Segment × Nat) :=
  segments.flatMap fun segment => ((date.get? segment).map (Prod.mk segment)).toList

theorem entries_cons (date : PartialDate) (segment : Segment) (segments : List Segment) :
    date.entries (segment :: segments) =
      ((date.get? segment).map (Prod.mk segment)).toList ++ date.entries segments :=
  List.flatMap_cons

theorem mem_entries
    {date : PartialDate}
    {segments : List Segment}
    {segment : Segment}
    {value : Nat} :
    (segment, value) ∈ date.entries segments ↔
      segment ∈ segments ∧ date.get? segment = some value := by
  simp [entries]

theorem field_segmentNotation
    {date : PartialDate}
    (aligned : date.IsAligned)
    (segment : Segment) :
    Field segment (date.segmentNotation segment).toList
      ((date.get? segment).map (Prod.mk segment)).toList := by
  cases defined : date.get? segment with
  | none =>
      rw [toList_segmentNotation_of_open defined]
      exact .opened List.length_replicate fun character isMember =>
        .inl (List.eq_of_mem_replicate isMember)
  | some value =>
      have length := Text.length_padded_of_lt (width_pos segment) (aligned segment value defined)
      have isField : Field segment _ _ := .defined length fun _ => Text.isDigit_of_mem_padded
      rw [Text.digitsValue_padded] at isField
      rw [segmentNotation_of_defined defined]
      exact isField

/-- An aligned date is written in any form, with the defined segments of the form. -/
theorem written_formText
    {date : PartialDate}
    (aligned : date.IsAligned)
    (form : List (Segment × List Char)) :
    Written form (date.formText form) (date.entries (form.map Prod.fst)) := by
  induction form with
  | nil => exact .done
  | cons part form inductionHypothesis =>
      rcases part with ⟨segment, separators⟩
      have isField := field_segmentNotation aligned segment
      rw [formText_cons, List.map_cons, entries_cons]
      cases separators with
      | nil =>
          rw [List.take_nil, List.nil_append]
          exact .first isField inductionHypothesis
      | cons separator separators =>
          rw [List.take_succ_cons, List.take_zero, List.singleton_append]
          exact .behind List.mem_cons_self isField inductionHypothesis

theorem nodup_entries
    {segments : List Segment}
    (distinct : segments.Nodup)
    (date : PartialDate) :
    ((date.entries segments).map Prod.fst).Nodup := by
  have sublist : ((date.entries segments).map Prod.fst).Sublist segments := by
    induction segments with
    | nil => exact List.Sublist.refl _
    | cons segment segments inductionHypothesis =>
        rw [entries_cons, List.map_append]
        have others := inductionHypothesis distinct.of_cons
        cases date.get? segment with
        | none => exact others.cons segment
        | some value => exact others.cons_cons segment
  exact sublist.nodup distinct

/-- A date is made of its defined segments. -/
theorem setAll_entries (date : PartialDate) : setAll (date.entries Segment.all) empty = date := by
  have distinct := nodup_entries (by decide : Segment.all.Nodup) date
  apply ext_get?
  intro segment
  apply Option.ext
  intro value
  have isSegment : segment ∈ Segment.all := by cases segment <;> decide
  rw [get?_setAll_empty_eq_some_iff distinct, mem_entries, and_iff_right isSegment]

/-- The written form of a date that some point of civil time fits is read, unless it is empty. -/
theorem read?_text_of_fits
    {date : PartialDate}
    {moment : DateTime}
    (isCivil : moment.IsCivil)
    (fits : date.Fits moment)
    {segment : Segment}
    {value : Nat}
    (defined : date.get? segment = some value) :
    read? date.text = some date := by
  have written : Written momentForm (date.formText momentForm) (date.entries Segment.all) :=
    written_formText (isAligned_of_fits isCivil fits) momentForm
  have isListed : (segment, value) ∈ date.entries Segment.all :=
    mem_entries.mpr ⟨by cases segment <;> decide, defined⟩
  rw [← toList_text] at written
  refine read?_eq_some_iff.mpr ⟨_, .inr written, List.ne_nil_of_mem isListed, ?_⟩
  refine (assignAll?_eq_some_iff (written.nodup (.inr rfl))).mpr
    ⟨(setAll_entries date).symm, moment, isCivil, ?_⟩
  rintro ⟨assigned, assignedValue⟩ isEntry
  exact fits assigned assignedValue (mem_entries.mp isEntry).2

/-- A date with a year of more than four digits is written with too many characters. -/
theorem read?_text_of_year
    {date : PartialDate}
    {year : Nat}
    (defined : date.year = some year)
    (long : 9999 < year) :
    read? date.text = none := by
  have yearLength : 4 < (date.segmentNotation .year).toList.length := by
    have isDefined : date.get? .year = some year := defined
    rw [segmentNotation_of_defined isDefined]
    exact Text.lt_length_padded (by decide) long
  have month := le_length_segmentNotation date .month
  have day := le_length_segmentNotation date .day
  have hour := le_length_segmentNotation date .hour
  have minute := le_length_segmentNotation date .minute
  have second := le_length_segmentNotation date .second
  have length : 19 < date.text.toList.length := by
    rw [toList_text]
    simp only [formText, momentForm, dayForm, List.cons_append, List.nil_append, List.flatMap_cons,
      List.flatMap_nil, List.length_append, List.take_nil, List.length_nil, List.take_succ_cons,
      List.take_zero, List.length_cons]
    simp only [Segment.width] at month day hour minute second
    omega
  rw [read?, layoutOfLength, if_neg (by omega), if_neg (by omega)]
  rfl

theorem read?_text_empty : read? empty.text = none := by
  decide +kernel

/-! ## Normal form -/

/-- A letter x is small, and a T stands between day and time. -/
def normalCharacter : Char → Char
  | 'X' => 'x'
  | ' ' => 'T'
  | character => character

/-- The text with normal characters, and with an open time if it ends after the day. -/
def normalForm (text : String) : String :=
  String.ofList (text.toList.map normalCharacter ++
    if text.toList.length = 10 then "Txx:xx:xx".toList else [])

/-- Of the given segments, the date has those that are assigned, with their values. -/
def Defines (date : PartialDate) (segments : List Segment) (entries : List (Segment × Nat)) :
    Prop :=
  ∀ segment ∈ segments, ∀ value,
    date.get? segment = some value ↔ (segment, value) ∈ entries

/-- What the first segment is assigned and what the others are can be told apart. -/
theorem Defines.split
    {date : PartialDate}
    {segment : Segment}
    {segments : List Segment}
    {entries others : List (Segment × Nat)}
    (defines : date.Defines (segment :: segments) (entries ++ others))
    (distinct : (segment :: segments).Nodup)
    (front : (entries.map Prod.fst).Sublist [segment])
    (back : (others.map Prod.fst).Sublist segments) :
    (∀ value, date.get? segment = some value ↔ (segment, value) ∈ entries) ∧
      date.Defines segments others := by
  have notBehind (value : Nat) : (segment, value) ∉ others := fun isOther =>
    (List.nodup_cons.mp distinct).1 (back.subset (List.mem_map_of_mem isOther))
  have onlyFirst {other : Segment} (isLater : other ∈ segments) (value : Nat) :
      (other, value) ∉ entries := by
    intro isEntry
    have same : other = segment :=
      List.mem_singleton.mp (front.subset (List.mem_map_of_mem isEntry))
    rw [same] at isLater
    exact (List.nodup_cons.mp distinct).1 isLater
  constructor
  · intro value
    rw [defines segment List.mem_cons_self value, List.mem_append, or_iff_left (notBehind value)]
  · intro other isLater value
    rw [defines other (List.mem_cons_of_mem _ isLater) value, List.mem_append,
      or_iff_right (onlyFirst isLater value)]

theorem normalCharacter_of_isDigit
    {character : Char}
    (isDigit : character.isDigit = true) :
    normalCharacter character = character := by
  rw [normalCharacter.eq_def]
  split
  · exact absurd isDigit (by decide)
  · exact absurd isDigit (by decide)
  · rfl

/-- A field is written again with normal characters. -/
theorem toList_segmentNotation_of_field
    {date : PartialDate}
    {segment : Segment}
    {characters : List Char}
    {entries : List (Segment × Nat)}
    (isField : Field segment characters entries)
    (defines : ∀ value, date.get? segment = some value ↔ (segment, value) ∈ entries) :
    (date.segmentNotation segment).toList = characters.map normalCharacter := by
  cases isField with
  | opened width letters =>
      have isOpen : date.get? segment = none :=
        Option.eq_none_iff_forall_ne_some.mpr fun value defined => nomatch (defines value).mp defined
      rw [toList_segmentNotation_of_open isOpen, eq_comm, List.eq_replicate_iff]
      refine ⟨by rw [List.length_map, width], fun character isMember => ?_⟩
      obtain ⟨letter, isLetter, rfl⟩ := List.mem_map.mp isMember
      rcases letters letter isLetter with rfl | rfl <;> rfl
  | defined width digits =>
      have defined := (defines (Text.digitsValue characters)).mpr (List.mem_singleton.mpr rfl)
      have nonempty : characters ≠ [] := by
        rintro rfl
        exact absurd width (Nat.ne_of_lt (width_pos segment))
      have unchanged : characters.map normalCharacter = characters :=
        (List.map_congr_left fun digit isMember =>
          normalCharacter_of_isDigit (digits digit isMember)).trans (List.map_id _)
      rw [segmentNotation_of_defined defined, ← width, unchanged]
      exact Text.toList_padded_digitsValue nonempty digits

/-- What is read from a form is written again with normal characters. -/
theorem formText_of_written
    {date : PartialDate}
    {form : List (Segment × List Char)}
    {characters : List Char}
    {entries : List (Segment × Nat)}
    (written : Written form characters entries)
    (distinct : (form.map Prod.fst).Nodup)
    (canonical : ∀ part ∈ form, ∀ separator ∈ part.2,
      part.2.take 1 = [normalCharacter separator])
    (defines : date.Defines (form.map Prod.fst) entries) :
    date.formText form = characters.map normalCharacter := by
  induction written with
  | done => rfl
  | first isField written inductionHypothesis =>
      obtain ⟨first, others⟩ := defines.split distinct isField.sublist written.sublist
      rw [formText_cons, List.map_append, toList_segmentNotation_of_field isField first,
        inductionHypothesis distinct.of_cons
          (fun part isLater => canonical part (List.mem_cons_of_mem _ isLater)) others]
      rfl
  | behind isSeparator isField written inductionHypothesis =>
      obtain ⟨first, others⟩ := defines.split distinct isField.sublist written.sublist
      rw [formText_cons, List.map_cons, List.map_append,
        toList_segmentNotation_of_field isField first,
        inductionHypothesis distinct.of_cons
          (fun part isLater => canonical part (List.mem_cons_of_mem _ isLater)) others,
        canonical _ List.mem_cons_self _ isSeparator]
      rfl

theorem canonical_momentForm :
    ∀ part ∈ momentForm, ∀ separator ∈ part.2, part.2.take 1 = [normalCharacter separator] := by
  have checked : (momentForm.all fun part => part.2.all fun separator =>
      part.2.take 1 == [normalCharacter separator]) = true := by
    decide
  simpa only [List.all_eq_true, beq_iff_eq] using checked

/-- The fields of a time. -/
def timeForm : List (Segment × List Char) :=
  momentForm.drop 3

theorem formText_timeForm_of_open
    {date : PartialDate}
    (isOpen : ∀ segment ∈ timeForm.map Prod.fst, date.get? segment = none) :
    date.formText timeForm = "Txx:xx:xx".toList := by
  have hour := toList_segmentNotation_of_open (isOpen .hour (by decide))
  have minute := toList_segmentNotation_of_open (isOpen .minute (by decide))
  have second := toList_segmentNotation_of_open (isOpen .second (by decide))
  simp only [formText, timeForm, momentForm, dayForm, List.cons_append, List.nil_append,
    List.drop_succ_cons, List.drop_zero, List.flatMap_cons, List.flatMap_nil, hour, minute, second]
  rfl

/-- The written form of a date that is read is the normal form of the text. -/
theorem text_of_read?
    {text : String}
    {date : PartialDate}
    (read : read? text = some date) :
    date.text = normalForm text := by
  obtain ⟨entries, kinds, _, assigned⟩ := read?_eq_some_iff.mp read
  have defines
      (distinct : (entries.map Prod.fst).Nodup)
      (segments : List Segment) :
      date.Defines segments entries := by
    intro segment _ value
    rw [((assignAll?_eq_some_iff distinct).mp assigned).1]
    exact get?_setAll_empty_eq_some_iff distinct
  apply String.toList_injective
  rw [toList_text, normalForm, String.toList_ofList]
  rcases kinds with written | written
  · have defines := defines (written.nodup (.inl rfl))
    have day := formText_of_written written (by decide)
      (fun part isPart => canonical_momentForm part (List.mem_append_left _ isPart)) (defines _)
    have time : date.formText timeForm = "Txx:xx:xx".toList := by
      refine formText_timeForm_of_open fun segment isTime => ?_
      rw [Option.eq_none_iff_forall_ne_some]
      intro value defined
      have isEntry := (defines [segment] segment List.mem_cons_self value).mp defined
      have isDay : segment ∈ dayForm.map Prod.fst :=
        written.sublist.subset (List.mem_map_of_mem isEntry)
      have apart : ∀ segment ∈ timeForm.map Prod.fst, segment ∉ dayForm.map Prod.fst := by
        decide
      exact apart segment isTime isDay
    have length : text.toList.length = 10 := written.length_eq
    rw [if_pos length, ← day, ← time]
    exact formText_append date dayForm timeForm
  · have length : text.toList.length = 19 := written.length_eq
    rw [if_neg (by omega), List.append_nil]
    exact formText_of_written written (by decide) canonical_momentForm
      (defines (written.nodup (.inr rfl)) _)

/-! ## Bytes -/

theorem utf8ByteSize_ofList
    {characters : List Char}
    (single : ∀ character ∈ characters, character.utf8Size = 1) :
    (String.ofList characters).utf8ByteSize = characters.length := by
  induction characters with
  | nil => rfl
  | cons character characters inductionHypothesis =>
      rw [List.forall_mem_cons] at single
      have parts : String.ofList (character :: characters) =
          String.singleton character ++ String.ofList characters := by
        apply String.toList_injective
        simp
      rw [parts, String.utf8ByteSize_append, String.utf8ByteSize_singleton, single.1,
        inductionHypothesis single.2, List.length_cons, Nat.add_comm]

/-- Every character of a written form is a single byte. -/
theorem utf8Size_of_mem_text
    {date : PartialDate}
    {character : Char}
    (isMember : character ∈ date.text.toList) :
    character.utf8Size = 1 := by
  rw [toList_text, formText, List.mem_flatMap] at isMember
  obtain ⟨part, isPart, isMember⟩ := isMember
  rcases List.mem_append.mp isMember with isSeparator | isNotation
  · have separators : (momentForm.all fun part => (part.2.take 1).all fun separator =>
        separator.utf8Size == 1) = true := by
      decide
    simp only [List.all_eq_true, beq_iff_eq] at separators
    exact separators part isPart character isSeparator
  · rcases isDigit_or_eq_of_mem_segmentNotation isNotation with isDigit | rfl
    · have bound : character.toNat ≤ 57 := (Char.isDigit_iff_toNat.mp isDigit).2
      rw [Char.utf8Size_eq_one_iff]
      exact Nat.le_trans bound (by decide)
    · rfl

/--
Written dates are read back.

The written form of a date that comes about in any way is read as that date if and only
if some segment is defined and the year, where it is defined, has at most four digits;
otherwise it is not read at all.  The written form of a date that is read from a text is
the normal form of the text; it has nineteen bytes and is read as the same date.
-/
theorem written_dates_read_back :
    (∀ date : PartialDate, date.Reachable →
      (read? date.text = some date ↔
        (∃ segment value, date.get? segment = some value) ∧
          ∀ year ∈ date.year, year ≤ 9999) ∧
      (read? date.text ≠ some date → read? date.text = none)) ∧
    ∀ text date, read? text = some date →
      date.text = normalForm text ∧
      date.text.utf8ByteSize = 19 ∧
      read? date.text = some date := by
  refine ⟨fun date reachable => ?_, fun text date read => ?_⟩
  · by_cases fourDigits : ∀ year ∈ date.year, year ≤ 9999
    · by_cases nonempty : ∃ segment value, date.get? segment = some value
      · obtain ⟨segment, value, defined⟩ := nonempty
        obtain ⟨moment, isCivil, fits⟩ := reachable.exists_isCivil fourDigits
        have read := read?_text_of_fits isCivil fits defined
        exact ⟨⟨fun _ => ⟨⟨segment, value, defined⟩, fourDigits⟩, fun _ => read⟩,
          fun failed => absurd read failed⟩
      · have isEmpty : date = empty := by
          apply ext_get?
          intro segment
          rw [get?_empty, Option.eq_none_iff_forall_ne_some]
          exact fun value defined => nonempty ⟨segment, value, defined⟩
        rw [isEmpty] at nonempty ⊢
        exact ⟨⟨fun read => (nomatch read?_text_empty.symm.trans read),
          fun holds => absurd holds.1 nonempty⟩, fun _ => read?_text_empty⟩
    · simp only [not_forall, Nat.not_le] at fourDigits
      obtain ⟨year, defined, long⟩ := fourDigits
      have refused := read?_text_of_year defined long
      refine ⟨⟨fun read => (nomatch refused.symm.trans read), fun holds => ?_⟩, fun _ => refused⟩
      exact absurd (holds.2 year defined) (Nat.not_le.mpr long)
  · obtain ⟨⟨segment, value, defined⟩, moment, isCivil, fits⟩ := exists_fits_of_read? read
    have length : date.text.toList.length = 19 := by
      rw [toList_text]
      exact (written_formText (isAligned_of_fits isCivil fits) momentForm).length_eq
    have single : ∀ character ∈ date.text.toList, character.utf8Size = 1 :=
      fun _ => utf8Size_of_mem_text
    have bytes := utf8ByteSize_ofList single
    rw [String.ofList_toList, length] at bytes
    exact ⟨text_of_read? read, bytes, read?_text_of_fits isCivil fits defined⟩

/-- A day with a capital X is written in its normal form; a date of the year 10000 is not read. -/
theorem mayDay_read_back :
    read? "xxXX-05-01" = some ⟨none, some 5, some 1, none, none, none⟩ ∧
    normalForm "xxXX-05-01" = "xxxx-05-01Txx:xx:xx" ∧
    text ⟨none, some 5, some 1, none, none, none⟩ = normalForm "xxXX-05-01" ∧
    (ofDateTime ⟨10000, 1, 1, 0, 0, 0, 0⟩).Reachable ∧
    read? (ofDateTime ⟨10000, 1, 1, 0, 0, 0, 0⟩).text = none := by
  obtain ⟨histories, texts⟩ := written_dates_read_back
  have read : read? "xxXX-05-01" = some ⟨none, some 5, some 1, none, none, none⟩ := by
    decide +kernel
  have reachable : (ofDateTime ⟨10000, 1, 1, 0, 0, 0, 0⟩).Reachable :=
    .converted ⟨by decide, by decide⟩
  have tooLong : ¬∀ year ∈ (ofDateTime ⟨10000, 1, 1, 0, 0, 0, 0⟩).year, year ≤ 9999 := by
    decide
  obtain ⟨readBack, refused⟩ := histories _ reachable
  exact ⟨read, by decide +kernel, (texts _ _ read).1, reachable,
    refused fun back => tooLong (readBack.mp back).2⟩

end ClassStore.Date.PartialDate
