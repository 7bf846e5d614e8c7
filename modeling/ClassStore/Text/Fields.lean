/-!
# Fields of a text

Splitting at a separator, and dropping what a text begins with.
-/

namespace ClassStore.Text

/-- The fields between the separators; there is always at least one. -/
def fieldsFrom (separator : Char) (current : List Char) : List Char → List (List Char)
  | [] => [current.reverse]
  | character :: rest =>
      if character = separator then
        current.reverse :: fieldsFrom separator [] rest
      else
        fieldsFrom separator (character :: current) rest

/-- Splits a text at every occurrence of the separator. -/
def fields (separator : Char) (text : String) : List String :=
  (fieldsFrom separator [] text.toList).map String.ofList

theorem fieldsFrom_append
    {separator : Char}
    {field : List Char}
    (whole : separator ∉ field)
    (current rest : List Char) :
    fieldsFrom separator current (field ++ separator :: rest) =
      (current.reverse ++ field) :: fieldsFrom separator [] rest := by
  induction field generalizing current with
  | nil => simp [fieldsFrom]
  | cons character field inductionHypothesis =>
      rw [List.mem_cons, not_or] at whole
      have other : character ≠ separator := fun same => whole.1 same.symm
      simp [fieldsFrom, other, inductionHypothesis whole.2]

theorem fieldsFrom_of_not_mem
    {separator : Char}
    {field : List Char}
    (whole : separator ∉ field)
    (current : List Char) :
    fieldsFrom separator current field = [current.reverse ++ field] := by
  induction field generalizing current with
  | nil => simp [fieldsFrom]
  | cons character field inductionHypothesis =>
      rw [List.mem_cons, not_or] at whole
      have other : character ≠ separator := fun same => whole.1 same.symm
      simp [fieldsFrom, other, inductionHypothesis whole.2]

/-- Splitting gives back the fields that a text was put together from. -/
theorem fields_intercalate
    {separator : Char}
    {texts : List String}
    (nonempty : texts ≠ [])
    (whole : ∀ text ∈ texts, separator ∉ text.toList) :
    fields separator (String.intercalate (String.singleton separator) texts) = texts := by
  induction texts with
  | nil => exact absurd rfl nonempty
  | cons text texts inductionHypothesis =>
      have first : separator ∉ text.toList := whole text List.mem_cons_self
      cases texts with
      | nil => simp [fields, fieldsFrom_of_not_mem first]
      | cons following texts =>
          have others := inductionHypothesis (by simp) fun other member =>
            whole other (List.mem_cons_of_mem _ member)
          rw [fields] at others ⊢
          rw [String.intercalate_cons_cons, String.toList_append, String.toList_append,
            String.toList_singleton, List.append_assoc, List.singleton_append,
            fieldsFrom_append first, List.map_cons, others]
          simp

/-- Drops the given text from the front as often as it stands there. -/
def dropRepeated (front : List Char) : Nat → List Char → List Char
  | 0, characters => characters
  | times + 1, characters =>
      if front.isPrefixOf characters then
        dropRepeated front times (characters.drop front.length)
      else
        characters

/-- The text without any of the leading repetitions of `front`. -/
def withoutLeading (front text : String) : String :=
  String.ofList (dropRepeated front.toList text.toList.length text.toList)

theorem dropRepeated_of_not_isPrefixOf
    {front characters : List Char}
    (absent : ¬ front <+: characters)
    (times : Nat) :
    dropRepeated front times characters = characters := by
  cases times with
  | zero => rfl
  | succ times =>
      exact if_neg fun isPrefix => absent (List.isPrefixOf_iff_prefix.mp isPrefix)

/-- Where the front is not empty, the length of the text is often enough. -/
theorem dropRepeated_of_length_le
    {front : List Char}
    (nonempty : front ≠ [])
    {times others : Nat}
    {characters : List Char}
    (enough : characters.length ≤ times)
    (othersEnough : characters.length ≤ others) :
    dropRepeated front times characters = dropRepeated front others characters := by
  induction times generalizing others characters with
  | zero =>
      rw [List.length_eq_zero_iff.mp (Nat.le_zero.mp enough), dropRepeated]
      exact (dropRepeated_of_not_isPrefixOf (by simpa using nonempty) others).symm
  | succ times inductionHypothesis =>
      cases others with
      | zero =>
          rw [List.length_eq_zero_iff.mp (Nat.le_zero.mp othersEnough)]
          exact dropRepeated_of_not_isPrefixOf (by simpa using nonempty) _
      | succ others =>
          have positive := List.length_pos_iff.mpr nonempty
          have dropped := @List.length_drop _ front.length characters
          rw [dropRepeated, dropRepeated,
            @inductionHypothesis others _ (by omega) (by omega)]

/-- What is left does not begin with the front. -/
theorem not_prefix_dropRepeated
    {front : List Char}
    (nonempty : front ≠ [])
    {times : Nat}
    {characters : List Char}
    (enough : characters.length ≤ times) :
    ¬ front <+: dropRepeated front times characters := by
  induction times generalizing characters with
  | zero =>
      rw [List.length_eq_zero_iff.mp (Nat.le_zero.mp enough), dropRepeated, List.prefix_nil]
      exact nonempty
  | succ times inductionHypothesis =>
      rw [dropRepeated]
      split
      · have positive := List.length_pos_iff.mpr nonempty
        have dropped := @List.length_drop _ front.length characters
        exact inductionHypothesis (by omega)
      · next absent => exact fun isPrefix => absent (List.isPrefixOf_iff_prefix.mpr isPrefix)

theorem not_prefix_withoutLeading
    {front : String}
    (nonempty : front.toList ≠ [])
    (text : String) :
    ¬ front.toList <+: (withoutLeading front text).toList := by
  rw [withoutLeading, String.toList_ofList]
  exact not_prefix_dropRepeated nonempty (Nat.le_refl _)

/-- A leading text is dropped together with the repetitions behind it. -/
theorem withoutLeading_append
    {front : String}
    (nonempty : front.toList ≠ [])
    (text : String) :
    withoutLeading front (front ++ text) = withoutLeading front text := by
  have isPrefix : front.toList.isPrefixOf (front.toList ++ text.toList) = true :=
    List.isPrefixOf_iff_prefix.mpr (List.prefix_append _ _)
  have positive : front.toList.length ≠ 0 := fun none => nonempty (List.length_eq_zero_iff.mp none)
  rcases Nat.exists_eq_succ_of_ne_zero positive with ⟨times, size⟩
  rw [withoutLeading, withoutLeading, String.toList_append, List.length_append, size,
    Nat.succ_add, dropRepeated, if_pos isPrefix, List.drop_left,
    dropRepeated_of_length_le nonempty (Nat.le_add_left _ _) (Nat.le_refl _)]

end ClassStore.Text
