import ClassStore.Proofs.Catalog.Acyclic
import ClassStore.Proofs.Catalog.Columns

/-!
# Chains of a catalog

In every catalog the ancestors of a class come before the class in the order of
dependencies.  So the chain of a class begins with a root,
`ResolvedCatalog.exists_root`, and whatever the classes of a chain need comes before
the class at its end, `SettledCatalog.within_front_of_mem_chain`.
-/

namespace ClassStore.Catalog

/-- A chain ends with the class itself, behind its ancestors. -/
theorem chainOf_eq_append
    (classes : List ObjectClass)
    (objectClass : ObjectClass) :
    chainOf classes objectClass = (ancestors classes objectClass).reverse ++ [objectClass] := by
  rw [chainOf, ancestors]
  cases classes.length <;> simp [ancestry]

/-- The walk over parents ends at a class without one. -/
theorem ParentWalk.exists_root
    {classes walked : List ObjectClass}
    {objectClass : ObjectClass}
    (walk : ParentWalk classes objectClass walked) :
    ∃ root, walked.getLast? = some root ∧ root.parent = none := by
  induction walk with
  | root noParent => exact ⟨_, rfl, noParent⟩
  | child _ walk inductionHypothesis =>
      rcases inductionHypothesis with ⟨root, isLast, noParent⟩
      refine ⟨root, ?_, noParent⟩
      rw [List.getLast?_cons, isLast]
      rfl

/-- The walk over parents passes no class without one, except for the last. -/
theorem getLast?_ancestry_of_noParent
    {classes : List ObjectClass}
    {generations : Nat}
    {objectClass member : ObjectClass}
    (isMember : member ∈ ancestry classes generations objectClass)
    (noParent : member.parent = none) :
    (ancestry classes generations objectClass).getLast? = some member := by
  induction generations generalizing objectClass with
  | zero =>
      rw [List.mem_singleton.mp isMember]
      rfl
  | succ generations inductionHypothesis =>
      rw [ancestry] at isMember ⊢
      rcases List.mem_cons.mp isMember with rfl | isAncestor
      · rw [parentOf?, noParent, Option.bind_none]
        rfl
      · cases isParent : parentOf? classes objectClass with
        | none => simp [isParent] at isAncestor
        | some parent =>
            simp only [isParent] at isAncestor ⊢
            rw [List.getLast?_cons, inductionHypothesis isAncestor]
            rfl

/-- What an attribute of a class refers to, the class names. -/
theorem ResolvedTo.target_mem_dependencies
    {classes : List ObjectClass}
    {declared resolved : ObjectClass}
    (resolvedTo : ResolvedTo classes declared resolved)
    {attr : Attribute}
    (isAttribute : attr ∈ resolved.attributes)
    {reference : Reference}
    (isReference : attr.reference = some reference) :
    reference.target ∈ declared.dependencies := by
  rcases resolvedTo.cases_attribute isAttribute with
    ⟨target, relationship, isTarget, rfl⟩ | ⟨original, isDeclared, rfl⟩ | isCopy
  · rw [Attribute.reference_complete] at isReference
    cases isReference
    exact declared.within_dependencies.identityTarget target relationship isTarget
  · rw [Attribute.reference_complete] at isReference
    exact ObjectClass.mem_dependencies_iff.mpr
      (.inr ⟨original, isDeclared, reference, isReference, rfl⟩)
  · rcases mem_delegatedCopies isCopy with ⟨_, _, _, _, _, _, _, _, _, _, rfl⟩
    cases isReference

namespace ResolvedCatalog

variable
    {declared : List ObjectClass}
    {catalog : Catalog}
    (resolvedCatalog : ResolvedCatalog declared catalog)

include resolvedCatalog

/-- Every class has its place in the order of dependencies. -/
theorem exists_order_eq_append
    {key : String}
    {objectClass : ObjectClass}
    (found : catalog.find? key = some objectClass) :
    ∃ front back, catalog.order = front ++ key :: back := by
  rcases resolvedCatalog.exists_settled found with ⟨original, isDeclared, _⟩
  rcases findClass?_eq_some isDeclared with ⟨inDeclared, rfl⟩
  exact List.append_of_mem (resolvedCatalog.complete original inDeclared)

/-- What an attribute refers to is a class of the catalog. -/
theorem exists_target
    {key : String}
    {objectClass : ObjectClass}
    (found : catalog.find? key = some objectClass)
    {attr : Attribute}
    (isAttribute : attr ∈ objectClass.attributes)
    {reference : Reference}
    (isReference : attr.reference = some reference) :
    ∃ target, catalog.find? reference.target = some target := by
  rcases resolvedCatalog.exists_settled found with ⟨original, isDeclared, settled⟩
  have depends := settled.resolvedTo.target_mem_dependencies isAttribute isReference
  exact Option.isSome_iff_exists.mp (resolvedCatalog.known_iff.mpr
    (resolvedCatalog.known original (findClass?_eq_some isDeclared).1 _ depends))

section Front

variable
    {front back : List String}
    {key : String}
    (split : catalog.order = front ++ key :: back)

include split

/-- What a class needs stands in front of it. -/
theorem prerequisite_mem_front
    {original : ObjectClass}
    (isDeclared : findClass? declared key = some original)
    {target : String}
    (needed : target ∈ original.prerequisites) :
    target ∈ front := by
  have known := resolvedCatalog.known original (findClass?_eq_some isDeclared).1 target
    (List.mem_filter.mp needed).1
  exact resolvedCatalog.isOrdered.behind front key back split original isDeclared target needed
    known

theorem parent_mem_front
    {objectClass : ObjectClass}
    (found : catalog.find? key = some objectClass)
    {target : String}
    (isParent : objectClass.parent = some target) :
    target ∈ front := by
  rcases resolvedCatalog.exists_settled found with ⟨original, isDeclared, settled⟩
  rw [settled.resolvedTo.parent] at isParent
  exact resolvedCatalog.prerequisite_mem_front split isDeclared
    (settled.parent_mem_prerequisites isParent)

/-- A class stands behind all its ancestors. -/
theorem key_mem_front_of_mem_ancestors
    {objectClass ancestor : ObjectClass}
    (found : catalog.find? key = some objectClass)
    (isAncestor : ancestor ∈ ancestors catalog.classes objectClass) :
    ancestor.key ∈ front := by
  rw [ancestors] at isAncestor
  generalize catalog.classes.length = generations at isAncestor
  induction generations generalizing front key back objectClass with
  | zero => simp [ancestry] at isAncestor
  | succ generations inductionHypothesis =>
      rw [ancestry, List.drop_succ_cons, List.drop_zero] at isAncestor
      cases isParent : parentOf? catalog.classes objectClass with
      | none => simp [isParent] at isAncestor
      | some parent =>
          simp only [isParent] at isAncestor
          rcases Option.bind_eq_some_iff.mp isParent with ⟨target, isTarget, foundParent⟩
          have parentInFront := resolvedCatalog.parent_mem_front split found isTarget
          rcases List.append_of_mem parentInFront with ⟨earlier, later, rfl⟩
          rw [List.append_assoc, List.cons_append] at split
          have fromParent : ancestor = parent ∨
              ancestor ∈ (ancestry catalog.classes generations parent).drop 1 := by
            cases generations <;> simpa [ancestry] using isAncestor
          rcases fromParent with rfl | isOlder
          · rw [(findClass?_eq_some foundParent).2]
            exact parentInFront
          · exact List.mem_append_left _ (inductionHypothesis split foundParent isOlder)

/-- What an attribute refers to is the class itself or stands in front of it. -/
theorem target_eq_or_mem_front
    {objectClass : ObjectClass}
    (found : catalog.find? key = some objectClass)
    {attr : Attribute}
    (isAttribute : attr ∈ objectClass.attributes)
    {reference : Reference}
    (isReference : attr.reference = some reference) :
    reference.target = key ∨ reference.target ∈ front := by
  rcases resolvedCatalog.exists_settled found with ⟨original, isDeclared, settled⟩
  have depends := settled.resolvedTo.target_mem_dependencies isAttribute isReference
  rw [← (findClass?_eq_some isDeclared).2]
  exact (ObjectClass.eq_key_or_mem_prerequisites depends).imp id
    (resolvedCatalog.prerequisite_mem_front split isDeclared)

/-- The classes of a chain stand no further behind than the class at its end. -/
theorem key_mem_front_of_mem_chain
    {target : String}
    (inFront : target ∈ front)
    {member : ObjectClass}
    (inChain : member ∈ catalog.chain target) :
    member.key ∈ front := by
  cases found : catalog.find? target with
  | none => simp [chain, found] at inChain
  | some objectClass =>
      rw [chain, found] at inChain
      rcases mem_chainOf_iff.mp inChain with rfl | isAncestor
      · rw [(findClass?_eq_some found).2]
        exact inFront
      · rcases List.append_of_mem inFront with ⟨earlier, later, rfl⟩
        rw [List.append_assoc, List.cons_append] at split
        exact List.mem_append_left _
          (resolvedCatalog.key_mem_front_of_mem_ancestors split found isAncestor)

theorem key_not_mem_front :
    key ∉ front := by
  have distinct := resolvedCatalog.isOrdered.nodup
  rw [split, List.nodup_append] at distinct
  exact fun inFront => distinct.2.2 key inFront key List.mem_cons_self rfl

end Front

/-- The walk from a class over its parents ends within as many steps as there are classes before it. -/
theorem parentWalk_ancestry_of_front
    (generations : Nat)
    {front back : List String}
    {key : String}
    (split : catalog.order = front ++ key :: back)
    {objectClass : ObjectClass}
    (found : catalog.find? key = some objectClass)
    (bound : front.length ≤ generations) :
    ParentWalk catalog.classes objectClass (ancestry catalog.classes generations objectClass) := by
  induction generations generalizing front key back objectClass with
  | zero =>
      cases isParent : objectClass.parent with
      | none => exact .root isParent
      | some target =>
          have inFront := resolvedCatalog.parent_mem_front split found isParent
          rw [List.length_eq_zero_iff.mp (Nat.le_zero.mp bound)] at inFront
          cases inFront
  | succ generations inductionHypothesis =>
      rw [ancestry]
      cases isParent : objectClass.parent with
      | none =>
          have noParent : parentOf? catalog.classes objectClass = none := by
            rw [parentOf?, isParent, Option.bind_none]
          rw [noParent]
          exact .root isParent
      | some target =>
          have inFront := resolvedCatalog.parent_mem_front split found isParent
          rcases List.append_of_mem inFront with ⟨earlier, later, rfl⟩
          rw [List.append_assoc, List.cons_append] at split
          have inOrder : target ∈ catalog.order := by
            rw [split]
            simp
          rcases Option.isSome_iff_exists.mp
              (resolvedCatalog.known_iff.mpr (resolvedCatalog.isOrdered.known target inOrder)) with
            ⟨parent, foundParent⟩
          have isParentClass : parentOf? catalog.classes objectClass = some parent := by
            rw [parentOf?, isParent, Option.bind_some]
            exact foundParent
          rw [isParentClass]
          have shorter : earlier.length ≤ generations := by
            rw [List.length_append, List.length_cons] at bound
            omega
          exact .child isParentClass (inductionHypothesis split foundParent shorter)

/-- No more keys are ordered than there are classes. -/
theorem length_order_le :
    catalog.order.length ≤ catalog.classes.length := by
  have sameLength : (catalog.classes.map ObjectClass.key).length = catalog.classes.length :=
    List.length_map _
  rw [← sameLength]
  apply (resolvedCatalog.isOrdered.nodup.subperm _).length_le
  intro key inOrder
  rw [resolvedCatalog.resolving.sameKeys, ← isSome_findClass?]
  exact resolvedCatalog.isOrdered.known key inOrder

/-- The walk from a class over its parents ends. -/
theorem parentWalk_ancestry
    {key : String}
    {objectClass : ObjectClass}
    (found : catalog.find? key = some objectClass) :
    ParentWalk catalog.classes objectClass
      (ancestry catalog.classes catalog.classes.length objectClass) := by
  rcases resolvedCatalog.exists_order_eq_append found with ⟨front, back, split⟩
  have bound : front.length ≤ catalog.classes.length := by
    have shorter := resolvedCatalog.length_order_le
    rw [split, List.length_append] at shorter
    omega
  exact resolvedCatalog.parentWalk_ancestry_of_front _ split found bound

/-- The chain of a class begins with a class that has no parent. -/
theorem exists_root
    {key : String}
    {objectClass : ObjectClass}
    (found : catalog.find? key = some objectClass) :
    ∃ root,
      catalog.root? key = some root ∧ root.parent = none ∧ root ∈ catalog.chain key := by
  rcases (resolvedCatalog.parentWalk_ancestry found).exists_root with ⟨root, isLast, noParent⟩
  have isHead : catalog.root? key = some root := by
    rw [root?, chain, found, ← isLast]
    exact List.head?_reverse
  exact ⟨root, isHead, noParent, List.mem_of_head? isHead⟩

end ResolvedCatalog

namespace SettledCatalog

variable
    {declared : List ObjectClass}
    {catalog : Catalog}
    (settledCatalog : SettledCatalog declared catalog)
    {front back : List String}
    {key : String}
    (split : catalog.order = front ++ key :: back)

include settledCatalog split

/-- Whatever a class needs stands in front of it. -/
theorem within_front
    {objectClass : ObjectClass}
    (found : catalog.find? key = some objectClass) :
    Within front objectClass := by
  rcases settledCatalog.exists_settled found with ⟨original, isDeclared, settled⟩
  apply settled.resolvedTo.within
  apply (settledCatalog.selfFree original (findClass?_eq_some isDeclared).1).within
  intro target needed
  exact settledCatalog.prerequisite_mem_front split isDeclared needed

theorem closed_front :
    Closed front catalog.classes := by
  intro earlier inFront objectClass found
  rcases List.append_of_mem inFront with ⟨first, rest, rfl⟩
  rw [List.append_assoc, List.cons_append] at split
  exact (settledCatalog.within_front split found).mono fun _ => List.mem_append_left _

/-- Whatever the classes of a chain need stands in front of the class at its end. -/
theorem within_front_of_mem_chain
    {member : ObjectClass}
    (inChain : member ∈ catalog.chain key) :
    Within front member := by
  cases found : catalog.find? key with
  | none => simp [chain, found] at inChain
  | some objectClass =>
      exact within_of_mem_ancestry (settledCatalog.closed_front split)
        (settledCatalog.within_front split found)
        ((ResolvedCatalog.mem_chain_iff found).mp inChain)

end SettledCatalog

/-- The only class without a parent in a chain is its root. -/
theorem root?_eq_of_noParent
    {catalog : Catalog}
    {key : String}
    {member : ObjectClass}
    (inChain : member ∈ catalog.chain key)
    (noParent : member.parent = none) :
    catalog.root? key = some member := by
  rw [root?]
  cases found : catalog.find? key with
  | none => simp [chain, found] at inChain
  | some objectClass =>
      rw [chain, found] at inChain ⊢
      refine List.head?_reverse.trans ?_
      exact getLast?_ancestry_of_noParent (List.mem_reverse.mp inChain) noParent

theorem chain_eq_append
    {catalog : Catalog}
    {key : String}
    {objectClass : ObjectClass}
    (found : catalog.find? key = some objectClass) :
    catalog.chain key = (ancestors catalog.classes objectClass).reverse ++ [objectClass] := by
  rw [chain, found]
  exact chainOf_eq_append _ _

theorem self_mem_chain
    {catalog : Catalog}
    {key : String}
    {objectClass : ObjectClass}
    (found : catalog.find? key = some objectClass) :
    objectClass ∈ catalog.chain key := by
  rw [chain_eq_append found]
  exact List.mem_append_right _ (List.mem_singleton_self _)

end ClassStore.Catalog
