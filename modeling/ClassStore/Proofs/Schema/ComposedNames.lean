import ClassStore.Text.Fields
import Mathlib.Data.List.Infix

/-!
# Composed names

Names of a schema are put together from parts with an underscore in between.  A
part may hold underscores itself, so two composed names with different parts can be
the same.  `composed_eq_iff` says when they are: one front goes on behind the other
one, and what follows there is in front of the back of the other name.
-/

namespace ClassStore.Schema

/-- The two parts with an underscore in between. -/
def composed (front back : String) : String :=
  front ++ "_" ++ back

theorem toList_composed (front back : String) :
    (composed front back).toList = front.toList ++ '_' :: back.toList := by
  simp [composed]

theorem composed_assoc (front middle back : String) :
    composed (composed front middle) back = composed front (composed middle back) := by
  simp only [composed, String.append_assoc]

/-- A text behind a word with its underscore is composed with the word. -/
theorem append_eq_composed_of_lead
    (lead word : String)
    (isLead : word ++ "_" = lead)
    (text : String) :
    lead ++ text = composed word text := by
  subst isLead
  rfl

/-- A text in front of a word with its underscore is composed with the word. -/
theorem append_eq_composed_of_trail
    (trail word : String)
    (isTrail : "_" ++ word = trail)
    (text : String) :
    text ++ trail = composed text word := by
  subst isTrail
  rw [composed, String.append_assoc]

/-- A word with its underscore, a key and a tail behind another underscore. -/
theorem lead_append_append
    (lead word : String)
    (isLead : word ++ "_" = lead)
    (key tail : String) :
    lead ++ key ++ "_" ++ tail = composed word (composed key tail) := by
  show composed (lead ++ key) tail = _
  rw [append_eq_composed_of_lead lead word isLead, composed_assoc]

theorem eq_of_composed_eq
    {front back other : String}
    (same : composed front back = composed front other) :
    back = other := by
  have lists := congrArg String.toList same
  rw [toList_composed, toList_composed] at lists
  exact String.toList_inj.mp (List.cons.inj (List.append_cancel_left lists)).2

theorem front_eq_of_composed_eq
    {front back other : String}
    (same : composed front back = composed other back) :
    front = other := by
  have lists := congrArg String.toList same
  rw [toList_composed, toList_composed] at lists
  exact String.toList_inj.mp (List.append_cancel_right lists)

theorem underscore_mem_composed (front back : String) : '_' ∈ (composed front back).toList := by
  simp [toList_composed]

/-- The front of one name goes on behind that of the other one, up to the back of the latter. -/
def GoesOn (front back otherFront otherBack : String) : Prop :=
  ∃ rest, otherFront = composed front rest ∧ back = composed rest otherBack

theorem goesOn_of_append_eq
    {front back otherFront otherBack : String}
    {between : List Char}
    (longer : otherFront.toList = front.toList ++ '_' :: between)
    (behind : back.toList = between ++ '_' :: otherBack.toList) :
    GoesOn front back otherFront otherBack := by
  refine ⟨String.ofList between, ?_, ?_⟩ <;>
    rw [← String.toList_inj, toList_composed, String.toList_ofList]
  · exact longer
  · exact behind

/-- Two composed names are the same if their parts are, or one front goes on behind the other. -/
theorem composed_eq_iff
    {front back otherFront otherBack : String} :
    composed front back = composed otherFront otherBack ↔
      (front = otherFront ∧ back = otherBack) ∨
        GoesOn front back otherFront otherBack ∨ GoesOn otherFront otherBack front back := by
  constructor
  · intro same
    have lists := congrArg String.toList same
    rw [toList_composed, toList_composed, List.append_eq_append_iff] at lists
    rcases lists with ⟨between, longer, rest⟩ | ⟨between, longer, rest⟩
    · cases between with
      | nil =>
          rw [List.append_nil] at longer
          have sameFront := String.toList_inj.mp longer.symm
          exact .inl ⟨sameFront, eq_of_composed_eq (sameFront ▸ same)⟩
      | cons character between =>
          rcases List.cons.inj rest with ⟨rfl, behind⟩
          exact .inr (.inl (goesOn_of_append_eq longer behind))
    · cases between with
      | nil =>
          rw [List.append_nil] at longer
          have sameFront := String.toList_inj.mp longer
          exact .inl ⟨sameFront, eq_of_composed_eq (sameFront ▸ same)⟩
      | cons character between =>
          rcases List.cons.inj rest with ⟨rfl, behind⟩
          exact .inr (.inr (goesOn_of_append_eq longer behind))
  · rintro (⟨rfl, rfl⟩ | ⟨rest, rfl, rfl⟩ | ⟨rest, rfl, rfl⟩)
    · rfl
    · exact (composed_assoc ..).symm
    · exact composed_assoc ..

/-! ## Words -/

/-- What begins with a word and an underscore begins with no other word and an underscore. -/
theorem word_eq_of_composed_eq
    {word other back otherBack : String}
    (plain : '_' ∉ word.toList)
    (otherPlain : '_' ∉ other.toList)
    (same : composed word back = composed other otherBack) :
    word = other := by
  rcases composed_eq_iff.mp same with ⟨same, -⟩ | ⟨rest, rfl, -⟩ | ⟨rest, rfl, -⟩
  · exact same
  · exact absurd (underscore_mem_composed _ _) otherPlain
  · exact absurd (underscore_mem_composed _ _) plain

/-- Dropping a word with its underscore from the front of a name that begins with it. -/
theorem withoutLeading_composed
    (lead word : String)
    (isLead : word ++ "_" = lead)
    (text : String) :
    Text.withoutLeading lead (composed word text) = Text.withoutLeading lead text := by
  rw [← append_eq_composed_of_lead lead word isLead]
  subst isLead
  exact Text.withoutLeading_append (by simp) text

/-! ## Endings -/

/-- The text ends with the given ending. -/
def Ends (ending text : String) : Prop :=
  ending.toList <:+ text.toList

instance (ending text : String) : Decidable (Ends ending text) :=
  inferInstanceAs (Decidable (ending.toList <:+ text.toList))

theorem Ends.append
    (front ending : String) :
    Ends ending (front ++ ending) :=
  ⟨front.toList, (String.toList_append ..).symm⟩

theorem Ends.trans
    {ending back text : String}
    (ends : Ends ending back)
    (isBack : Ends back text) :
    Ends ending text :=
  List.IsSuffix.trans ends isBack

theorem ends_composed (front back : String) : Ends back (composed front back) :=
  .append _ _

/-- None of the endings is an ending of one of the others, and none of those of one of them. -/
def EndingsApart (endings others : List String) : Prop :=
  ∀ ending ∈ endings, ∀ other ∈ others, ¬ Ends ending other ∧ ¬ Ends other ending

instance (endings others : List String) : Decidable (EndingsApart endings others) :=
  inferInstanceAs (Decidable (∀ ending ∈ endings, ∀ other ∈ others, _))

/-- Texts differ if their endings are apart. -/
theorem EndingsApart.ne
    {endings others : List String}
    (apart : EndingsApart endings others)
    {text other : String}
    (ends : ∃ ending ∈ endings, Ends ending text)
    (otherEnds : ∃ ending ∈ others, Ends ending other) :
    text ≠ other := by
  rintro rfl
  rcases ends with ⟨ending, isEnding, ends⟩
  rcases otherEnds with ⟨other, isOther, otherEnds⟩
  have differ := apart ending isEnding other isOther
  rcases List.suffix_or_suffix_of_suffix ends otherEnds with shorter | longer
  · exact differ.1 shorter
  · exact differ.2 longer

/-- An ending without underscores is kept where something is dropped up to an underscore. -/
theorem suffix_dropRepeated
    {ending word : List Char}
    (plain : '_' ∉ ending)
    (times : Nat)
    {characters : List Char}
    (ends : ending <:+ characters) :
    ending <:+ Text.dropRepeated (word ++ ['_']) times characters := by
  induction times generalizing characters with
  | zero => exact ends
  | succ times inductionHypothesis =>
      rw [Text.dropRepeated]
      split
      · next leads =>
          rcases List.isPrefixOf_iff_prefix.mp leads with ⟨rest, rfl⟩
          rw [List.drop_left]
          apply inductionHypothesis
          rcases List.suffix_or_suffix_of_suffix ends (List.suffix_append _ rest) with
            shorter | ⟨before, rfl⟩
          · exact shorter
          · -- A longer ending would hold the underscore in front of the rest.
            rcases ends with ⟨front, whole⟩
            rw [← List.append_assoc] at whole
            have lead := List.append_cancel_right whole
            cases before using List.reverseRecOn with
            | nil => exact List.suffix_rfl
            | append_singleton before last =>
                rw [← List.append_assoc] at lead
                have sameLast := (List.append_inj' lead rfl).2
                rw [List.singleton_inj] at sameLast
                subst sameLast
                exact absurd (by simp) plain
      · exact ends

theorem Ends.withoutLeading
    (lead word : String)
    (isLead : word ++ "_" = lead)
    {ending text : String}
    (plain : '_' ∉ ending.toList)
    (ends : Ends ending text) :
    Ends ending (Text.withoutLeading lead text) := by
  subst isLead
  rw [Ends, Text.withoutLeading, String.toList_ofList, String.toList_append]
  exact suffix_dropRepeated plain _ ends

end ClassStore.Schema
