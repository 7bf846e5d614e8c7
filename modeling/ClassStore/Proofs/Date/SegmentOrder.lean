import ClassStore.Proofs.Date.RoundTrip

/-!
# Order of partial dates

The defined segments of a partial date are written one after the other, each with its
full width.  Such texts are compared in place of the dates.  This is sound because no
segment outgrows its width: a year of more than four digits only comes with all
segments, and a date with all segments is not compared in this way.
-/

namespace ClassStore.Date

namespace DateTime

/-- Some segments of a point of civil time with their full widths, one after the other. -/
def segmentText (segments : SegmentSet) (moment : DateTime) : String :=
  String.join (segments.toList.map fun segment =>
    Text.padded segment.width (moment.countOf segment))

/-- The fraction of the second is not written. -/
theorem segmentText_wholeSecond (segments : SegmentSet) (moment : DateTime) :
    moment.wholeSecond.segmentText segments = moment.segmentText segments := by
  simp only [segmentText, countOf, valueOf_wholeSecond]

end DateTime

namespace PartialDate

/-- The values of the defined segments, from the year down to the second. -/
def definedValues (date : PartialDate) : List Nat :=
  Segment.all.filterMap date.get?

/-- The value of a segment that is known to be defined. -/
def valueAt (date : PartialDate) (segment : Segment) : Nat :=
  (date.get? segment).getD 0

/-- What is made of the defined segments is made of their values. -/
theorem filterMap_get?_eq_map
    {Output : Type}
    (date : PartialDate)
    (render : Segment → Nat → Output) :
    Segment.all.filterMap (fun segment => (date.get? segment).map (render segment)) =
      date.segments.toList.map fun segment => render segment (date.valueAt segment) := by
  rw [SegmentSet.toList]
  induction Segment.all with
  | nil => rfl
  | cons segment segments inductionHypothesis =>
      rw [List.filterMap_cons, List.filter_cons, contains_segments]
      cases defined : date.get? segment with
      | none => simpa using inductionHypothesis
      | some value => simpa [valueAt, defined] using inductionHypothesis

theorem definedValues_eq (date : PartialDate) :
    date.definedValues = date.segments.toList.map date.valueAt := by
  have values := filterMap_get?_eq_map date fun _ value => value
  simpa [definedValues] using values

theorem toList_segmentText (date : PartialDate) :
    date.segmentText.toList =
      Text.rowText (fun _ => []) Segment.width date.segments.toList date.valueAt := by
  have fields := filterMap_get?_eq_map date fun segment => Text.padded segment.width
  change String.toList (String.join (Segment.all.filterMap fun segment =>
    (date.get? segment).map (Text.padded segment.width))) = _
  rw [fields, String.toList_join, List.flatMap_map]
  rfl

theorem toList_segmentText_moment (segments : SegmentSet) (moment : DateTime) :
    (moment.segmentText segments).toList =
      Text.rowText (fun _ => []) Segment.width segments.toList moment.countOf := by
  rw [DateTime.segmentText, String.toList_join, List.flatMap_map]
  rfl

theorem mem_toList_segments
    {date : PartialDate}
    {segment : Segment} :
    segment ∈ date.segments.toList ↔ ∃ value, date.get? segment = some value := by
  have isSegment : segment ∈ Segment.all := by cases segment <;> decide
  rw [SegmentSet.toList, List.mem_filter, and_iff_right isSegment, contains_segments,
    Option.isSome_iff_exists]

theorem valueAt_of_defined
    {date : PartialDate}
    {segment : Segment}
    {value : Nat}
    (defined : date.get? segment = some value) :
    date.valueAt segment = value := by
  rw [valueAt, defined, Option.getD_some]

/-- An aligned date has the widths of its segments. -/
theorem IsAligned.valueAt_lt
    {date : PartialDate}
    (aligned : date.IsAligned)
    {segment : Segment}
    (isMember : segment ∈ date.segments.toList) :
    date.valueAt segment < 10 ^ segment.width := by
  obtain ⟨value, defined⟩ := mem_toList_segments.mp isMember
  rw [valueAt_of_defined defined]
  exact aligned segment value defined

/-- Aligned dates with the same segments are ordered by their values. -/
theorem compare_segmentText
    {date other : PartialDate}
    (aligned : date.IsAligned)
    (otherAligned : other.IsAligned)
    (same : date.segments = other.segments) :
    compare date.segmentText other.segmentText =
      compare date.definedValues other.definedValues := by
  rw [Text.compare_toList, toList_segmentText, toList_segmentText, definedValues_eq,
    definedValues_eq, ← same]
  refine Text.compare_rowText _ _ (fun segment _ => width_pos segment)
    (fun segment isMember => aligned.valueAt_lt isMember) fun segment isMember => ?_
  rw [same] at isMember
  exact otherAligned.valueAt_lt isMember

/-- A date is known from its segments and their values. -/
theorem eq_of_definedValues_eq
    {date other : PartialDate}
    (same : date.segments = other.segments)
    (values : date.definedValues = other.definedValues) :
    date = other := by
  rw [definedValues_eq, definedValues_eq, ← same, List.map_inj_left] at values
  apply ext_get?
  intro segment
  have sameDefined : (date.get? segment).isSome = (other.get? segment).isSome := by
    rw [← contains_segments, ← contains_segments, same]
  cases defined : date.get? segment with
  | none =>
      rw [defined] at sameDefined
      exact (Option.isNone_iff_eq_none.mp (by simpa using sameDefined.symm)).symm
  | some value =>
      rw [defined] at sameDefined
      obtain ⟨otherValue, otherDefined⟩ := Option.isSome_iff_exists.mp sameDefined.symm
      have agrees := values segment (mem_toList_segments.mpr ⟨value, defined⟩)
      rw [valueAt_of_defined defined, valueAt_of_defined otherDefined] at agrees
      rw [otherDefined, agrees]

/-- A point of civil time has the text of the segments if and only if it has the segments. -/
theorem segmentText_eq_iff_fits
    {date : PartialDate}
    (aligned : date.IsAligned)
    {moment : DateTime}
    (isCivil : moment.IsCivil) :
    moment.segmentText date.segments = date.segmentText ↔ date.Fits moment := by
  have compared :
      compare (moment.segmentText date.segments) date.segmentText =
        compare (date.segments.toList.map moment.countOf)
          (date.segments.toList.map date.valueAt) := by
    rw [Text.compare_toList, toList_segmentText, toList_segmentText_moment]
    exact Text.compare_rowText _ _ (fun segment _ => width_pos segment)
      (fun segment _ => countOf_lt_of_isCivil isCivil segment)
      fun segment isMember => aligned.valueAt_lt isMember
  rw [← Std.LawfulEqOrd.compare_eq_iff_eq, compared, Std.LawfulEqOrd.compare_eq_iff_eq,
    List.map_inj_left]
  constructor
  · intro agrees segment value defined
    have same := agrees segment (mem_toList_segments.mpr ⟨value, defined⟩)
    rw [valueAt_of_defined defined] at same
    rw [DateTime.valueOf_eq_countOf isCivil.notNegative, same]
  · intro fits segment isMember
    obtain ⟨value, defined⟩ := mem_toList_segments.mp isMember
    rw [valueAt_of_defined defined, countOf_of_fits fits defined]

/-- A date with an open segment has no year of more than four digits. -/
theorem Reachable.isAligned_of_incomplete
    {date : PartialDate}
    (reachable : date.Reachable)
    (incomplete : date.isComplete = false) :
    date.IsAligned := by
  obtain ⟨moment, isCivil, fits⟩ := reachable.exists_isCivil_of_incomplete incomplete
  exact isAligned_of_fits isCivil fits

/--
Texts of partial dates are ordered like the dates.

Dates that come about in any way, that lack a segment and have the same segments are
compared by their texts as they are by their values from the year down to the second;
the texts are equal only if the dates are.  A point of civil time in the years 0 to 9999
has the same text, in the segments of such a date, exactly if it has the same values.
-/
theorem segment_texts_ordered :
    (∀ date other : PartialDate, date.Reachable → other.Reachable →
      date.isComplete = false → other.isComplete = false → date.segments = other.segments →
      compare date.segmentText other.segmentText =
          compare date.definedValues other.definedValues ∧
        (date.segmentText = other.segmentText ↔ date = other)) ∧
    ∀ (date : PartialDate) (moment : DateTime), date.Reachable → date.isComplete = false →
      moment.IsReal → 0 ≤ moment.year → moment.year ≤ 9999 →
      (moment.segmentText date.segments = date.segmentText ↔ date.Fits moment) := by
  refine ⟨fun date other reachable otherReachable incomplete otherIncomplete same => ?_,
    fun date moment reachable incomplete isReal notNegative fourDigits => ?_⟩
  · have aligned := reachable.isAligned_of_incomplete incomplete
    have otherAligned := otherReachable.isAligned_of_incomplete otherIncomplete
    have compared := compare_segmentText aligned otherAligned same
    refine ⟨compared, fun equal => ?_, congrArg segmentText⟩
    rw [equal, Std.ReflOrd.compare_self] at compared
    exact eq_of_definedValues_eq same (Std.LawfulEqOrd.eq_of_compare compared.symm)
  · have isCivil := isReal.isCivil_wholeSecond notNegative fourDigits
    have agrees := segmentText_eq_iff_fits (reachable.isAligned_of_incomplete incomplete) isCivil
    rwa [DateTime.segmentText_wholeSecond, fits_wholeSecond_iff] at agrees

/-- The tenth of May of any year. -/
def tenthOfMay : PartialDate :=
  ⟨none, some 5, some 10, none, none, none⟩

/-- The second of November of any year. -/
def secondOfNovember : PartialDate :=
  ⟨none, some 11, some 2, none, none, none⟩

/-- The tenth of May comes before the second of November, and has its text in every year. -/
theorem tenthOfMay_before_secondOfNovember :
    tenthOfMay.Reachable ∧
    secondOfNovember.Reachable ∧
    compare tenthOfMay.segmentText secondOfNovember.segmentText = .lt ∧
    tenthOfMay.segmentText ≠ secondOfNovember.segmentText ∧
    DateTime.segmentText tenthOfMay.segments ⟨2024, 5, 10, 23, 59, 59, 0⟩ =
      tenthOfMay.segmentText := by
  obtain ⟨ordered, agrees⟩ := segment_texts_ordered
  have reachable : tenthOfMay.Reachable :=
    .read (by decide +kernel : read? "xxxx-05-10" = some tenthOfMay)
  have november : Reachable ⟨none, some 11, none, none, none, none⟩ :=
    .assigned .empty (rfl : empty.assign? .month 11 = some _)
  have otherReachable : secondOfNovember.Reachable :=
    .assigned november (rfl : assign? _ .day 2 = some secondOfNovember)
  obtain ⟨compared, equal⟩ := ordered _ _ reachable otherReachable rfl rfl rfl
  refine ⟨reachable, otherReachable, compared, fun same => ?_, ?_⟩
  · exact absurd (equal.mp same) (by decide)
  · refine (agrees _ _ reachable rfl ⟨by decide, by decide⟩ (by decide) (by decide)).mpr ?_
    intro segment value defined
    cases segment <;> cases defined <;> rfl

end PartialDate

end ClassStore.Date
