import ClassStore.Catalog.Dependency

/-!
# Order of dependencies

An order of classes that has been found holds every class once, behind all
classes that it needs.  One visit leaves an order of this kind if it finds one;
it reaches its target and adds none of the classes that are being visited.
-/

namespace ClassStore.Catalog

/-- What succeeds in two steps succeeds in each of them. -/
theorem exists_of_bind_eq_ok
    {Error Input Output : Type}
    {first : Except Error Input}
    {following : Input → Except Error Output}
    {output : Output}
    (outcome : (first >>= following) = .ok output) :
    ∃ input, first = .ok input ∧ following input = .ok output := by
  cases first with
  | error error => cases outcome
  | ok input => exact ⟨input, rfl, outcome⟩

theorem toOption_eq_some_iff
    {Error Output : Type}
    {outcome : Except Error Output}
    {output : Output} :
    outcome.toOption = some output ↔ outcome = .ok output := by
  cases outcome <;> simp [Except.toOption]

/-- The keys are those of different classes, each behind the classes that it needs. -/
structure Ordered (classes : List ObjectClass) (ordered : List String) : Prop where
  nodup : ordered.Nodup
  known : ∀ key ∈ ordered, (findClass? classes key).isSome
  behind :
    ∀ front key back,
      ordered = front ++ key :: back →
      ∀ objectClass,
        findClass? classes key = some objectClass →
        ∀ target ∈ objectClass.prerequisites,
          (findClass? classes target).isSome →
          target ∈ front

/-- What is true when the targets have been visited. -/
structure Visited (classes : List ObjectClass) (path targets ordered following : List String) :
    Prop where
  isOrdered : Ordered classes following
  keeps : ∀ key ∈ ordered, key ∈ following
  avoids : ∀ key ∈ path, key ∈ following → key ∈ ordered
  reaches : ∀ target ∈ targets, (findClass? classes target).isSome → target ∈ following

theorem ordered_nil (classes : List ObjectClass) : Ordered classes [] := by
  constructor
  · exact List.nodup_nil
  · simp
  · intro front key back split
    simp at split

/-- A class may follow once everything that it needs is in order. -/
theorem Ordered.concat
    {classes : List ObjectClass}
    {ordered : List String}
    {key : String}
    {objectClass : ObjectClass}
    (isOrdered : Ordered classes ordered)
    (fresh : key ∉ ordered)
    (found : findClass? classes key = some objectClass)
    (needs :
      ∀ target ∈ objectClass.prerequisites,
        (findClass? classes target).isSome →
        target ∈ ordered) :
    Ordered classes (ordered ++ [key]) := by
  constructor
  · rw [List.nodup_append]
    refine ⟨isOrdered.nodup, by simp, ?_⟩
    rintro other inOrder last isLast rfl
    rw [List.mem_singleton.mp isLast] at inOrder
    exact fresh inOrder
  · intro other inFollowing
    rcases List.mem_append.mp inFollowing with inOrder | isLast
    · exact isOrdered.known other inOrder
    · rw [List.mem_singleton.mp isLast, found]
      rfl
  · intro front other back split
    rcases List.eq_nil_or_concat back with rfl | ⟨between, last, rfl⟩
    · rcases List.append_inj' split rfl with ⟨rfl, same⟩
      intro owner foundOwner
      rw [← List.head_eq_of_cons_eq same, found] at foundOwner
      rw [← Option.some.inj foundOwner]
      exact needs
    · rw [List.concat_eq_append, ← List.cons_append, ← List.append_assoc] at split
      exact isOrdered.behind front other between (List.append_inj' split rfl).1

/-- Visits that each do what they should do so one after the other. -/
theorem visited_of_visitAll
    {classes : List ObjectClass}
    {path : List String}
    {visit : List String → String → Except CatalogError (List String)}
    (each :
      ∀ ordered target following,
        Ordered classes ordered →
        visit ordered target = .ok following →
        Visited classes path [target] ordered following)
    {targets ordered following : List String}
    (isOrdered : Ordered classes ordered)
    (visited : visitAll visit ordered targets = .ok following) :
    Visited classes path targets ordered following := by
  induction targets generalizing ordered with
  | nil =>
      cases visited
      exact ⟨isOrdered, fun _ => id, fun _ _ => id, by simp⟩
  | cons target targets inductionHypothesis =>
      rw [visitAll] at visited
      rcases exists_of_bind_eq_ok visited with ⟨between, visitedFirst, visitedOthers⟩
      have first := each ordered target between isOrdered visitedFirst
      have others := inductionHypothesis first.isOrdered visitedOthers
      constructor
      · exact others.isOrdered
      · intro key inOrder
        exact others.keeps key (first.keeps key inOrder)
      · intro key inPath inFollowing
        exact first.avoids key inPath (others.avoids key inPath inFollowing)
      · intro other isTarget known
        rcases List.mem_cons.mp isTarget with rfl | later
        · exact others.keeps other (first.reaches other List.mem_cons_self known)
        · exact others.reaches other later known

/-- A visit that succeeds keeps the order and reaches its target. -/
theorem visited_of_visitClass
    {classes : List ObjectClass}
    (depth : Nat)
    {path ordered following : List String}
    {key : String}
    (isOrdered : Ordered classes ordered)
    (visited : visitClass classes depth path ordered key = .ok following) :
    Visited classes path [key] ordered following := by
  induction depth generalizing path ordered following key with
  | zero =>
      rw [visitClass] at visited
      split at visited
      · next contained =>
          cases visited
          exact ⟨isOrdered, fun _ => id, fun _ _ => id, by simpa using fun _ => contained⟩
      · split at visited <;> cases visited
  | succ depth inductionHypothesis =>
      unfold visitClass at visited
      split at visited
      · next contained =>
          cases visited
          exact ⟨isOrdered, fun _ => id, fun _ _ => id, by simpa using fun _ => contained⟩
      · next fresh =>
          split at visited
          · cases visited
          next offPath =>
            cases found : findClass? classes key with
            | none =>
                rw [found] at visited
                cases visited
                exact ⟨isOrdered, fun _ => id, fun _ _ => id, by simp [found]⟩
            | some objectClass =>
                simp only [found] at visited
                rcases exists_of_bind_eq_ok visited with ⟨between, visitedNeeds, last⟩
                cases last
                have needed := visited_of_visitAll
                  (fun _ _ _ isOrdered visited => inductionHypothesis isOrdered visited)
                  isOrdered visitedNeeds
                have freshBetween : key ∉ between := by
                  intro inBetween
                  apply fresh
                  simpa using needed.avoids key List.mem_cons_self inBetween
                constructor
                · exact needed.isOrdered.concat freshBetween found needed.reaches
                · intro other inOrder
                  exact List.mem_append_left _ (needed.keeps other inOrder)
                · intro other inPath inFollowing
                  rcases List.mem_append.mp inFollowing with inBetween | isLast
                  · exact needed.avoids other (List.mem_cons_of_mem _ inPath) inBetween
                  · rw [List.mem_singleton.mp isLast] at inPath
                    exact absurd (by simpa using inPath) offPath
                · simp

/-- The order of dependencies holds every class, behind the classes that it needs. -/
theorem visited_of_dependencyOrder
    {classes : List ObjectClass}
    {order : List String}
    (found : dependencyOrder classes = .ok order) :
    Visited classes [] (classes.map ObjectClass.key) [] order :=
  visited_of_visitAll
    (fun _ _ _ isOrdered visited => visited_of_visitClass _ isOrdered visited)
    (ordered_nil classes) found

/-- What passes from the classes that a class needs to the class itself is true of all. -/
theorem Ordered.induction
    {classes : List ObjectClass}
    {ordered : List String}
    (isOrdered : Ordered classes ordered)
    {motive : String → Prop}
    (step :
      ∀ key objectClass,
        findClass? classes key = some objectClass →
        (∀ target ∈ objectClass.prerequisites, (findClass? classes target).isSome →
          motive target) →
        motive key)
    {key : String}
    (inOrder : key ∈ ordered)
    (known : (findClass? classes key).isSome) :
    motive key := by
  -- Induction on the number of classes in front that are known to have the property.
  have inFront : ∀ count, ∀ other ∈ ordered.take count,
      (findClass? classes other).isSome → motive other := by
    intro count
    induction count with
    | zero => simp
    | succ count inductionHypothesis =>
        intro other member knownOther
        rw [List.take_add_one] at member
        rcases List.mem_append.mp member with inFront | isLast
        · exact inductionHypothesis other inFront knownOther
        · rcases List.getElem?_eq_some_iff.mp (Option.mem_toList.mp isLast) with
            ⟨inRange, same⟩
          have split : ordered = ordered.take count ++ other :: ordered.drop (count + 1) := by
            rw [← same, ← List.drop_eq_getElem_cons inRange, List.take_append_drop]
          rcases Option.isSome_iff_exists.mp knownOther with ⟨objectClass, found⟩
          apply step other objectClass found
          intro target needed knownTarget
          exact inductionHypothesis target
            (isOrdered.behind _ other _ split objectClass found target needed knownTarget)
            knownTarget
  exact inFront ordered.length key (by rwa [List.take_length]) known

end ClassStore.Catalog
