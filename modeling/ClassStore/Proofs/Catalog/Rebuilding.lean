import ClassStore.Proofs.Catalog.Acyclic
import ClassStore.Proofs.Catalog.FixedPoints
import ClassStore.Proofs.Catalog.SameOrder
import ClassStore.Proofs.Catalog.Visibility

/-!
# Building a catalog again

The classes of a catalog can be declared again.  They pass the checks that their
declarations passed and come into the same order, so everything depends on
their resolution, one after the other (`build_again`).

As long as no class shares the identity of another one, each is resolved to itself and
its view gets the columns that it has (`Resolving.run_again`).  The first one that does
has its link already, and the catalog is refused: `rebuilt_iff_no_shared_identity`.
-/

namespace ClassStore.Catalog

/-- The class extends or mediates another one. -/
def ObjectClass.SharesIdentity (objectClass : ObjectClass) : Prop :=
  objectClass.extended.isSome ∨ objectClass.mediated.isSome

namespace ObjectClass

theorem sharesIdentity_iff {objectClass : ObjectClass} :
    objectClass.SharesIdentity ↔ objectClass.identityTarget.isSome := by
  rw [SharesIdentity, identityTarget]
  cases objectClass.extended <;> cases objectClass.mediated <;> simp

end ObjectClass

theorem ResolvedTo.sharesIdentity_iff
    {classes : List ObjectClass}
    {declared resolved : ObjectClass}
    (resolvedTo : ResolvedTo classes declared resolved) :
    resolved.SharesIdentity ↔ declared.SharesIdentity := by
  rw [ObjectClass.SharesIdentity, ObjectClass.SharesIdentity, resolvedTo.extended,
    resolvedTo.mediated]

/-! ## The checks -/

/-- Whether keys are different does not depend on anything else of the classes. -/
theorem checkKeys_congr
    {earlier : List String}
    {classes others : List ObjectClass}
    (sameKeys : others.map ObjectClass.key = classes.map ObjectClass.key) :
    checkKeys earlier others = checkKeys earlier classes := by
  induction classes generalizing earlier others with
  | nil => rw [List.map_eq_nil_iff.mp sameKeys]
  | cons first classes inductionHypothesis =>
      rcases List.map_eq_cons_iff.mp sameKeys with ⟨other, others, rfl, sameKey, sameKeys⟩
      rw [checkKeys, checkKeys, sameKey, inductionHypothesis sameKeys]

section Checks

variable
    {declared : List ObjectClass}
    {catalog : Catalog}

/-- The classes of a catalog pass the check of targets, as their declarations did. -/
theorem checkTargets_classes
    (built : Catalog.build declared = .ok catalog) :
    checkTargets (catalog.classes.map ObjectClass.key) catalog.classes = .ok () := by
  have resolvedCatalog := resolved_of_build built
  have checked := (buildSteps_of_build built).targetsChecked
  rw [resolvedCatalog.resolving.sameKeys]
  apply checkTargets_eq_ok_iff.mpr
  intro objectClass isClass
  rcases resolvedCatalog.exists_settled (find?_of_mem_classes built isClass) with
    ⟨original, isDeclared, settled⟩
  have resolvedTo := settled.resolvedTo
  have passed := checkTargets_eq_ok_iff.mp checked original (findClass?_eq_some isDeclared).1
  rcases checkTargetsOf_eq_ok_iff.mp passed with ⟨single, known⟩
  apply checkTargetsOf_eq_ok_iff.mpr
  constructor
  · rw [resolvedTo.extended, resolvedTo.mediated]
    exact single
  · intro target depends
    exact known target (resolvedTo.repeats_dependencies.mem_iff.mp depends)

/-- Building a catalog again is resolving its classes again, in their order. -/
theorem build_again
    (built : Catalog.build declared = .ok catalog) :
    Catalog.build catalog.classes =
      resolveAll catalog.classes [] catalog.order >>= fun (classes, columns) =>
        .ok ⟨classes, catalog.order, columns⟩ := by
  have resolvedCatalog := resolved_of_build built
  have steps := buildSteps_of_build built
  have keysChecked : checkKeys [] catalog.classes = .ok () :=
    (checkKeys_congr resolvedCatalog.resolving.sameKeys).trans steps.keysChecked
  have ordering := resolvedCatalog.needSame.dependencyOrder_eq_ok steps.ordering
  rw [Catalog.build, keysChecked, checkTargets_classes built, ordering]
  rfl

end Checks

/-! ## The resolution -/

/-- A class that is put in its own place changes nothing. -/
theorem replaceClass_self
    {classes : List ObjectClass}
    (distinct : (classes.map ObjectClass.key).Nodup)
    {objectClass : ObjectClass}
    (found : findClass? classes objectClass.key = some objectClass) :
    replaceClass objectClass classes = classes := by
  rw [replaceClass]
  calc
    classes.map (fun other => if other.key = objectClass.key then objectClass else other) =
        classes.map id := by
      apply List.map_congr_left
      intro other isClass
      show (if other.key = objectClass.key then objectClass else other) = other
      split
      · next sameKey =>
          have foundOther := find?_eq_some_of_mem ObjectClass.key distinct isClass
          rw [sameKey] at foundOther
          exact Option.some.inj (found.symm.trans foundOther)
      · rfl
    _ = classes := List.map_id classes

/-- Every class that is in order has come out of a resolution. -/
theorem exists_resolveClass_of_resolveAll
    {order : List String}
    {classes final : List ObjectClass}
    {columns finalColumns : List (String × List String)}
    (outcome : resolveAll classes columns order = .ok (final, finalColumns))
    {objectClass : ObjectClass}
    (inOrder : objectClass.key ∈ order)
    (found : findClass? final objectClass.key = some objectClass) :
    ∃ before declared, resolveClass before declared = .ok objectClass := by
  induction order generalizing classes columns with
  | nil => cases inOrder
  | cons key order inductionHypothesis =>
      -- If the key comes again, what it is resolved to then is what stays.
      by_cases later : objectClass.key ∈ order
      · rcases cases_resolveAll outcome with ⟨_, passed⟩ | ⟨_, _, _, _, _, resolving⟩
        · exact inductionHypothesis passed later
        · exact inductionHypothesis resolving later
      · have isFirst : objectClass.key = key := (List.mem_cons.mp inOrder).resolve_right later
        have kept : ∀ other ∈ [key], other ∉ order := by
          intro other isKey
          rw [List.mem_singleton.mp isKey, ← isFirst]
          exact later
        rcases cases_resolveAll outcome with
          ⟨unknown, passed⟩ | ⟨former, resolved, foundFormer, resolution, sameKey, resolving⟩
        · have same := agreeOn_resolveAll kept passed key (List.mem_singleton_self key)
          rw [unknown, ← isFirst, found] at same
          cases same
        · have same := agreeOn_resolveAll kept resolving key (List.mem_singleton_self key)
          have foundResolved : findClass? (replaceClass resolved classes) key = some resolved := by
            rw [← sameKey] at foundFormer ⊢
            exact findClass?_replaceClass_self (by rw [foundFormer]; rfl)
          rw [foundResolved, ← isFirst, found] at same
          cases same
          exact ⟨classes, former, resolution⟩

namespace Resolving

variable
    {declared classes final : List ObjectClass}
    {columns finalColumns : List (String × List String)}
    {keys : List String}

/-- A class that is resolved to itself stays, and its view gets the columns that it got before. -/
theorem step_again
    {key : String}
    {resolved : ObjectClass}
    (distinct : (declared.map ObjectClass.key).Nodup)
    (sameKeys : final.map ObjectClass.key = declared.map ObjectClass.key)
    (resolving : Resolving declared classes columns (keys ++ [key]))
    (found : findClass? classes key = some resolved)
    (agree : AgreeOn (keys ++ [key]) classes final)
    (fixed :
      ∀ objectClass, findClass? final key = some objectClass →
        resolveClass final objectClass = .ok objectClass)
    (earlier : List (String × List String))
    (order : List String) :
    resolveAll final earlier (key :: order) =
      resolveAll final (earlier ++ [(key, flattenColumns classes earlier resolved)]) order := by
  have inKeys : key ∈ keys ++ [key] := List.mem_append_right _ (List.mem_singleton_self key)
  have foundAgain : findClass? final key = some resolved := by
    rw [← agree key inKeys]
    exact found
  have sameLength : classes.length = final.length := by
    simpa using congrArg List.length (resolving.sameKeys.trans sameKeys.symm)
  have sameColumns : flattenColumns classes earlier resolved =
      flattenColumns final earlier resolved :=
    flattenColumns_congr agree sameLength resolving.closed (fun _ _ => rfl)
      (resolving.closed key inKeys resolved found)
  have inPlace : replaceClass resolved final = final := by
    rw [← (findClass?_eq_some foundAgain).2] at foundAgain
    exact replaceClass_self (by rw [sameKeys]; exact distinct) foundAgain
  rw [resolveAll, foundAgain]
  simp only [fixed resolved foundAgain, bind, Except.bind, inPlace, sameColumns]

/-- Classes that are resolved to themselves stay, with the columns that their views have. -/
theorem run_again
    {front back : List String}
    (isOrdered : Ordered declared (keys ++ (front ++ back)))
    (known : ∀ objectClass ∈ declared, ∀ target ∈ objectClass.prerequisites,
      (findClass? declared target).isSome)
    (distinct : (declared.map ObjectClass.key).Nodup)
    (sameKeys : final.map ObjectClass.key = declared.map ObjectClass.key)
    (fixed :
      ∀ key ∈ front, ∀ objectClass, findClass? final key = some objectClass →
        resolveClass final objectClass = .ok objectClass)
    (resolving : Resolving declared classes columns keys)
    (outcome : resolveAll classes columns (front ++ back) = .ok (final, finalColumns)) :
    ∃ between,
      resolveAll final columns (front ++ back) = resolveAll final between back ∧
      (back = [] → between = finalColumns) := by
  -- Both runs take the same keys; only the first one has classes left that are not final.
  induction front generalizing classes columns keys with
  | nil =>
      refine ⟨columns, rfl, ?_⟩
      rintro rfl
      cases outcome
      rfl
  | cons key front inductionHypothesis =>
      rcases resolving.next isOrdered known outcome with ⟨resolved, found, resolvingNext, others⟩
      have regroup : keys ++ (key :: front ++ back) = keys ++ [key] ++ (front ++ back) := by simp
      rw [regroup] at isOrdered
      have later : ∀ other ∈ keys ++ [key], other ∉ front ++ back := by
        intro other isEarlier isLater
        have distinctOrder := isOrdered.nodup
        rw [List.nodup_append] at distinctOrder
        exact distinctOrder.2.2 other isEarlier other isLater rfl
      have agree := agreeOn_resolveAll later others
      have laterFixed : ∀ other ∈ front, ∀ objectClass, findClass? final other = some objectClass →
          resolveClass final objectClass = .ok objectClass :=
        fun other isFront => fixed other (List.mem_cons_of_mem _ isFront)
      rw [List.cons_append, resolvingNext.step_again distinct sameKeys found agree
        (fixed key List.mem_cons_self)]
      exact inductionHypothesis isOrdered laterFixed resolvingNext others

end Resolving

/-! ## The first class that shares an identity -/

/-- No class under the keys extends or mediates another one. -/
def Unlinked (classes : List ObjectClass) (keys : List String) : Prop :=
  ∀ key ∈ keys, ∀ objectClass, findClass? classes key = some objectClass →
    ¬ objectClass.SharesIdentity

/-- If not all classes are unlinked, there is a first one that is not. -/
theorem unlinked_or_exists_first (classes : List ObjectClass) (keys : List String) :
    Unlinked classes keys ∨
      ∃ front objectClass back,
        keys = front ++ objectClass.key :: back ∧
        Unlinked classes front ∧
        findClass? classes objectClass.key = some objectClass ∧
        objectClass.SharesIdentity := by
  induction keys with
  | nil => exact .inl (by simp [Unlinked])
  | cons key keys inductionHypothesis =>
      by_cases shared :
          ∃ objectClass, findClass? classes key = some objectClass ∧ objectClass.SharesIdentity
      · rcases shared with ⟨objectClass, found, shares⟩
        rcases findClass?_eq_some found with ⟨_, rfl⟩
        exact .inr ⟨[], objectClass, keys, rfl, by simp [Unlinked], found, shares⟩
      · have extend : ∀ front, Unlinked classes front → Unlinked classes (key :: front) := by
          intro front unlinked other isKey objectClass found shares
          rcases List.mem_cons.mp isKey with rfl | later
          · exact shared ⟨objectClass, found, shares⟩
          · exact unlinked other later objectClass found shares
        rcases inductionHypothesis with unlinked | ⟨front, objectClass, back, rfl, unlinked, first⟩
        · exact .inl (extend keys unlinked)
        · exact .inr ⟨key :: front, objectClass, back, rfl, extend front unlinked, first⟩

section Rebuilding

variable
    {declared : List ObjectClass}
    {catalog : Catalog}

/-- Unlinked classes at the beginning of the order are passed as they are. -/
theorem resolveAll_of_unlinked
    (built : Catalog.build declared = .ok catalog)
    {front back : List String}
    (inOrder : catalog.order = front ++ back)
    (unlinked : Unlinked catalog.classes front) :
    ∃ between,
      resolveAll catalog.classes [] catalog.order = resolveAll catalog.classes between back ∧
      (back = [] → between = catalog.columns) := by
  have resolvedCatalog := resolved_of_build built
  rcases buildSteps_of_build built with ⟨keysChecked, _, _, resolution⟩
  have known : ∀ objectClass ∈ declared, ∀ target ∈ objectClass.prerequisites,
      (findClass? declared target).isSome := fun objectClass isDeclared target needed =>
    resolvedCatalog.known objectClass isDeclared target (List.mem_filter.mp needed).1
  have fixed : ∀ key ∈ front, ∀ objectClass, findClass? catalog.classes key = some objectClass →
      resolveClass catalog.classes objectClass = .ok objectClass := by
    intro key inFront objectClass found
    rcases resolvedCatalog.exists_settled found with ⟨original, isDeclared, settled⟩
    have noTarget : original.identityTarget = none := by
      have apart := unlinked key inFront objectClass found
      rw [settled.resolvedTo.sharesIdentity_iff, ObjectClass.sharesIdentity_iff] at apart
      simpa using apart
    rcases findClass?_eq_some found with ⟨_, rfl⟩
    have isOrdered : objectClass.key ∈ catalog.order := by
      rw [inOrder]
      exact List.mem_append_left _ inFront
    rcases exists_resolveClass_of_resolveAll resolution isOrdered found with ⟨_, _, resolvedFrom⟩
    exact settled.resolvedTo.resolveClass_eq_self
      (hasFittingKeys_of_resolveClass resolvedFrom) noTarget
  have isOrdered := resolvedCatalog.isOrdered
  rw [inOrder] at isOrdered resolution ⊢
  exact Resolving.run_again isOrdered known (nodup_of_checkKeys keysChecked).1
    resolvedCatalog.resolving.sameKeys fixed (resolving_nil declared) resolution

/-- The classes of a catalog are unlinked if no declaration shares an identity. -/
theorem unlinked_order_iff
    (built : Catalog.build declared = .ok catalog) :
    Unlinked catalog.classes catalog.order ↔
      ∀ objectClass ∈ declared, ¬ objectClass.SharesIdentity := by
  have resolvedCatalog := resolved_of_build built
  constructor
  · intro unlinked original isDeclared
    have distinct := (nodup_of_checkKeys (buildSteps_of_build built).keysChecked).1
    have inOrder := resolvedCatalog.complete original isDeclared
    rcases resolvedCatalog.resolving.settled original.key inOrder original
        (find?_eq_some_of_mem ObjectClass.key distinct isDeclared) with
      ⟨resolved, settled⟩
    rw [← settled.resolvedTo.sharesIdentity_iff]
    exact unlinked original.key inOrder resolved settled.found
  · intro apart key _ objectClass found
    rcases resolvedCatalog.exists_settled found with ⟨original, isDeclared, settled⟩
    rw [settled.resolvedTo.sharesIdentity_iff]
    exact apart original (findClass?_eq_some isDeclared).1

/-- A catalog without shared identities is built again as it is. -/
theorem build_again_eq_ok
    (built : Catalog.build declared = .ok catalog)
    (unlinked : Unlinked catalog.classes catalog.order) :
    Catalog.build catalog.classes = .ok catalog := by
  rcases resolveAll_of_unlinked built (List.append_nil _).symm unlinked with
    ⟨between, resolution, columns⟩
  rw [build_again built, resolution, columns rfl]
  rfl

/-- The first class that has a link is at fault, because its link is named a second time. -/
theorem build_again_eq_error
    (built : Catalog.build declared = .ok catalog)
    {front back : List String}
    {objectClass : ObjectClass}
    (inOrder : catalog.order = front ++ objectClass.key :: back)
    (unlinked : Unlinked catalog.classes front)
    (found : catalog.find? objectClass.key = some objectClass)
    (shares : objectClass.SharesIdentity) :
    ∃ link,
      objectClass.link? = some link ∧
      Catalog.build catalog.classes =
        .error (.duplicateAttribute objectClass.key link.name) := by
  rcases (resolved_of_build built).exists_settled found with ⟨original, _, settled⟩
  have resolvedTo := settled.resolvedTo
  rw [resolvedTo.sharesIdentity_iff, ObjectClass.sharesIdentity_iff] at shares
  rcases Option.isSome_iff_exists.mp shares with ⟨⟨target, relationship⟩, isTarget⟩
  rcases resolveAll_of_unlinked built inOrder unlinked with ⟨between, resolution, _⟩
  refine ⟨original.completedLink target relationship, resolvedTo.link?_eq isTarget, ?_⟩
  rw [Catalog.find?] at found
  rw [build_again built, resolution, resolveAll, found, ObjectClass.name_completedLink]
  simp only [resolvedTo.resolveClass_eq_error isTarget]
  rfl

/--
A catalog is built again from its own classes if none of them shares an identity.

It is the same catalog then: its classes, their order and the columns of their views are
what they were.  Otherwise the first class in the order of dependencies that extends or
mediates another one is at fault for its link, which it has already.
-/
theorem rebuilt_iff_no_shared_identity
    (built : Catalog.build declared = .ok catalog) :
    ((∃ again, Catalog.build catalog.classes = .ok again) ↔
      ∀ objectClass ∈ declared, ¬ objectClass.SharesIdentity) ∧
    (∀ again, Catalog.build catalog.classes = .ok again → again = catalog) ∧
    (∀ fault, Catalog.build catalog.classes = .error fault →
      ∃ front objectClass back link,
        catalog.order = front ++ objectClass.key :: back ∧
        (∀ other ∈ catalog.classes, other.key ∈ front → ¬ other.SharesIdentity) ∧
        objectClass ∈ catalog.classes ∧
        objectClass.SharesIdentity ∧
        objectClass.link? = some link ∧
        fault = .duplicateAttribute objectClass.key link.name) := by
  rw [← unlinked_order_iff built]
  rcases unlinked_or_exists_first catalog.classes catalog.order with
    unlinked | ⟨front, objectClass, back, inOrder, unlinked, found, shares⟩
  · have rebuilt := build_again_eq_ok built unlinked
    refine ⟨⟨fun _ => unlinked, fun _ => ⟨catalog, rebuilt⟩⟩, ?_, ?_⟩
    · intro again builtAgain
      exact Except.ok.inj (builtAgain.symm.trans rebuilt)
    · intro fault refused
      rw [rebuilt] at refused
      cases refused
  · rcases build_again_eq_error built inOrder unlinked found shares with ⟨link, isLink, refused⟩
    have notBuilt : ∀ again, Catalog.build catalog.classes ≠ .ok again := by
      intro again builtAgain
      rw [refused] at builtAgain
      cases builtAgain
    have inLine : objectClass.key ∈ catalog.order := by
      rw [inOrder]
      exact List.mem_append_right _ List.mem_cons_self
    refine ⟨⟨fun ⟨again, builtAgain⟩ => absurd builtAgain (notBuilt again), fun apart => ?_⟩,
      fun again builtAgain => absurd builtAgain (notBuilt again), ?_⟩
    · exact absurd shares (apart objectClass.key inLine objectClass found)
    · intro fault refusedAgain
      rw [refused] at refusedAgain
      cases refusedAgain
      refine ⟨front, objectClass, back, link, inOrder, ?_, (findClass?_eq_some found).1, shares,
        isLink, rfl⟩
      intro other isClass inFront
      exact unlinked other.key inFront other (find?_of_mem_classes built isClass)

end Rebuilding

/--
Citizens and their country are built again.  In the academy it is not the laureates, who
are declared first, that are at fault, but the authors, who come in front of them.
-/
theorem society_rebuilt_academy_refused :
    (∃ catalog,
      Catalog.build society = .ok catalog ∧ Catalog.build catalog.classes = .ok catalog) ∧
    ∃ catalog front back author link,
      Catalog.build academy = .ok catalog ∧
      Catalog.build catalog.classes = .error (.duplicateAttribute "author" "person") ∧
      catalog.order = front ++ "author" :: back ∧
      catalog.find? "author" = some author ∧
      author.link? = some link ∧
      link.name = "person" := by
  constructor
  · have accepted : (Catalog.build society).toOption.isSome = true := by decide +kernel
    rcases Option.isSome_iff_exists.mp accepted with ⟨catalog, built⟩
    rw [toOption_eq_some_iff] at built
    have apart : ∀ objectClass ∈ society, ¬ objectClass.SharesIdentity := by
      simp [society, ObjectClass.SharesIdentity, ObjectClass.declare, ObjectClass.blank]
    rcases rebuilt_iff_no_shared_identity built with ⟨succeeds, same, _⟩
    rcases succeeds.mpr apart with ⟨again, builtAgain⟩
    rw [same again builtAgain] at builtAgain
    exact ⟨catalog, built, builtAgain⟩
  · have checked : ((Catalog.build academy).toOption.any fun catalog =>
        decide (Catalog.build catalog.classes =
          .error (.duplicateAttribute "author" "person"))) = true := by
      decide +kernel
    simp only [Option.any_eq_true, toOption_eq_some_iff, decide_eq_true_eq] at checked
    rcases checked with ⟨catalog, built, refused⟩
    rcases (rebuilt_iff_no_shared_identity built).2.2 _ refused with
      ⟨front, author, back, link, inOrder, _, isClass, _, isLink, atFault⟩
    injection atFault with isAuthor isPerson
    have found := find?_of_mem_classes built isClass
    rw [← isAuthor] at inOrder found
    exact ⟨catalog, front, back, author, link, built, refused, inOrder, found, isLink,
      isPerson.symm⟩

end ClassStore.Catalog
