import ClassStore.Query.Leaf

/-!
# Dates by their segments

Dates that are alternatives of one column are grouped by their defined segments
before they are bound.  The groups are made by adding the dates one by one; here
they are described as a whole, as the segment sets in the order in which they first
occur, each with the dates that have exactly these segments.
-/

namespace ClassStore.Query

open ClassStore.Date

/-- Dates with the same segments stand together, in the order in which the segments first occur. -/
def bySegments (dates : List PartialDate) : List PartialDate :=
  (dates.map PartialDate.segments).eraseDups.flatMap fun segments =>
    dates.filter fun date => date.segments == segments

/-- Each of the segment sets with the dates that have exactly these segments. -/
def groupsOf (keys : List SegmentSet) (dates : List PartialDate) :
    List (SegmentSet × List PartialDate) :=
  keys.map fun segments => (segments, dates.filter fun date => date.segments == segments)

theorem groupsOf_cons
    (segments : SegmentSet)
    (keys : List SegmentSet)
    (dates : List PartialDate) :
    groupsOf (segments :: keys) dates =
      (segments, dates.filter fun date => date.segments == segments) :: groupsOf keys dates :=
  rfl

theorem filter_segments_append_ne
    (dates : List PartialDate)
    {date : PartialDate}
    {segments : SegmentSet}
    (different : segments ≠ date.segments) :
    (dates ++ [date]).filter (fun date => date.segments == segments) =
      dates.filter fun date => date.segments == segments := by
  have other : (date.segments == segments) = false := by simpa using different.symm
  simp [List.filter_append, other]

/-- A date with segments of its own begins a new group. -/
theorem addToGroups_groupsOf_of_not_mem
    {keys : List SegmentSet}
    {dates : List PartialDate}
    {date : PartialDate}
    (fresh : date.segments ∉ keys)
    (absent : date.segments ∉ dates.map PartialDate.segments) :
    addToGroups date (groupsOf keys dates) =
      groupsOf (keys ++ [date.segments]) (dates ++ [date]) := by
  induction keys with
  | nil =>
      have alone : dates.filter (fun other => other.segments == date.segments) = [] := by
        rw [List.filter_eq_nil_iff]
        intro other isDate same
        exact absent (List.mem_map.mpr ⟨other, isDate, by simpa using same⟩)
      simp [groupsOf, addToGroups, List.filter_append, alone]
  | cons segments keys inductionHypothesis =>
      rw [List.mem_cons, not_or] at fresh
      have different : segments ≠ date.segments := fun same => fresh.1 same.symm
      rw [groupsOf_cons, addToGroups, if_neg different, inductionHypothesis fresh.2,
        List.cons_append, groupsOf_cons, filter_segments_append_ne dates different]

/-- A date joins the group with its segments and leaves the other groups alone. -/
theorem addToGroups_groupsOf_of_mem
    {keys : List SegmentSet}
    (distinct : keys.Nodup)
    {date : PartialDate}
    (known : date.segments ∈ keys)
    (dates : List PartialDate) :
    addToGroups date (groupsOf keys dates) = groupsOf keys (dates ++ [date]) := by
  induction keys with
  | nil => cases known
  | cons segments keys inductionHypothesis =>
      rw [List.nodup_cons] at distinct
      rw [groupsOf_cons, groupsOf_cons, addToGroups]
      split
      · next same =>
          have others : ∀ other ∈ keys, other ≠ date.segments := by
            rintro other isKey rfl
            exact distinct.1 (same ▸ isKey)
          congr 1
          · simp [List.filter_append, same]
          · apply List.map_congr_left
            intro other isKey
            rw [filter_segments_append_ne dates (others other isKey)]
      · next different =>
          have later : date.segments ∈ keys :=
            (List.mem_cons.mp known).resolve_left fun same => different same.symm
          rw [filter_segments_append_ne dates different]
          exact congrArg _ (inductionHypothesis distinct.2 later)

theorem eraseDups_append_singleton
    {Item : Type}
    [DecidableEq Item]
    (items : List Item)
    (item : Item) :
    (items ++ [item]).eraseDups =
      if item ∈ items then items.eraseDups else items.eraseDups ++ [item] := by
  rw [List.eraseDups_append]
  split
  · next known => simp [List.removeAll, known]
  · next fresh =>
      have alone : [item].removeAll items = [item] := by simp [List.removeAll, fresh]
      rw [alone]
      rfl

/-- Adding one more date to the groups of some dates gives the groups of all of them. -/
theorem addToGroups_groupsOf
    {earlier : List PartialDate}
    (distinct : (earlier.map PartialDate.segments).eraseDups.Nodup)
    (date : PartialDate) :
    addToGroups date (groupsOf (earlier.map PartialDate.segments).eraseDups earlier) =
        groupsOf ((earlier ++ [date]).map PartialDate.segments).eraseDups (earlier ++ [date]) ∧
      ((earlier ++ [date]).map PartialDate.segments).eraseDups.Nodup := by
  rw [List.map_append, List.map_singleton, eraseDups_append_singleton]
  split
  · next known =>
      exact ⟨addToGroups_groupsOf_of_mem distinct (List.mem_eraseDups.mpr known) earlier,
        distinct⟩
  · next fresh =>
      have absent := fun isKey => fresh (List.mem_eraseDups.mp isKey)
      refine ⟨addToGroups_groupsOf_of_not_mem absent fresh, ?_⟩
      rw [List.nodup_append]
      refine ⟨distinct, List.pairwise_singleton _ _, ?_⟩
      rintro key isKey _ isLast rfl
      exact absent (List.mem_singleton.mp isLast ▸ isKey)

/-- Adding dates one by one gives each segment set its dates. -/
theorem foldl_addToGroups
    (dates : List PartialDate)
    {earlier : List PartialDate}
    (distinct : (earlier.map PartialDate.segments).eraseDups.Nodup) :
    dates.foldl (fun groups date => addToGroups date groups)
        (groupsOf (earlier.map PartialDate.segments).eraseDups earlier) =
      groupsOf ((earlier ++ dates).map PartialDate.segments).eraseDups (earlier ++ dates) := by
  induction dates generalizing earlier with
  | nil => simp
  | cons date dates inductionHypothesis =>
      rcases addToGroups_groupsOf distinct date with ⟨added, stillDistinct⟩
      rw [List.foldl_cons, added, inductionHypothesis stillDistinct, List.append_assoc,
        List.singleton_append]

/-- Dates are grouped by their segments, in the order in which the segments first occur. -/
theorem groupBySegments_eq (dates : List PartialDate) :
    groupBySegments dates = groupsOf (dates.map PartialDate.segments).eraseDups dates :=
  @foldl_addToGroups dates [] List.nodup_nil

theorem bySegments_eq (dates : List PartialDate) :
    bySegments dates = (groupBySegments dates).flatMap Prod.snd := by
  rw [groupBySegments_eq, bySegments, groupsOf, List.flatMap_map]

theorem segments_eq_of_mem_groupBySegments
    {dates : List PartialDate}
    {group : SegmentSet × List PartialDate}
    (isGroup : group ∈ groupBySegments dates) :
    ∀ date ∈ group.2, date.segments = group.1 := by
  rw [groupBySegments_eq] at isGroup
  rcases List.mem_map.mp isGroup with ⟨segments, _, rfl⟩
  intro date isMember
  simpa using (List.mem_filter.mp isMember).2

theorem flatMap_addToGroups_perm
    (date : PartialDate)
    (groups : List (SegmentSet × List PartialDate)) :
    ((addToGroups date groups).flatMap Prod.snd).Perm (groups.flatMap Prod.snd ++ [date]) := by
  induction groups with
  | nil => exact .refl _
  | cons group groups inductionHypothesis =>
      rcases group with ⟨segments, dates⟩
      rw [addToGroups]
      split
      · rw [List.flatMap_cons, List.flatMap_cons, List.append_assoc, List.append_assoc]
        exact .append_left dates List.perm_append_comm
      · rw [List.flatMap_cons, List.flatMap_cons, List.append_assoc]
        exact .append_left dates inductionHypothesis

/-- Grouping dates loses none of them, and has none of them twice. -/
theorem groupBySegments_perm (dates : List PartialDate) :
    ((groupBySegments dates).flatMap Prod.snd).Perm dates := by
  have added (groups : List (SegmentSet × List PartialDate)) :
      ((dates.foldl (fun groups date => addToGroups date groups) groups).flatMap Prod.snd).Perm
        (groups.flatMap Prod.snd ++ dates) := by
    induction dates generalizing groups with
    | nil => rw [List.foldl_nil, List.append_nil]
    | cons date dates inductionHypothesis =>
        have first := (flatMap_addToGroups_perm date groups).append_right dates
        rw [List.append_assoc, List.singleton_append] at first
        exact (inductionHypothesis (addToGroups date groups)).trans first
  exact added []

end ClassStore.Query
