import ClassStore.Proofs.Schema.Writes

/-!
# The number of a created object

Where no object to link to is given, an insert into the view of a class first
creates one, then inserts the rows of the chain, and links by the number that was
last given to an object of the root of the other class.  The link is part of the
last row, so the rows of all proper ancestors come in between.  They move that
number exactly if one of the ancestors shares its counter: in PostgreSQL if the
root of the other class is an ancestor, in SQLite if an ancestor has its table.
Then the class does not link to the object that it has created:
`exists_overtaken_link`.
-/

namespace ClassStore.Schema

open ClassStore.Catalog

/-! ## Counters -/

/-- The statement changes what the number is. -/
def WriteStatement.Moves (statement : WriteStatement) : Expression → Prop
  | .currentNumber sequence => statement.Draws sequence
  | .greatestNumber table => statement.AddsRowTo table
  | .lastRow => ∃ table, statement.AddsRowTo table
  | .new _ => False
  | .old _ => False
  | .newOrDefault _ _ => False
  | .newOrKept _ _ => False
  | .nextNumber _ => False

/-- A new row of the class counts as one of the root. -/
def SharesCounter (root objectClass : ObjectClass) : Backend → Prop
  | .postgres => objectClass = root
  | .sqlite => objectClass.table = root.table

theorem sharesCounter_self (root : ObjectClass) (backend : Backend) :
    SharesCounter root root backend := by
  cases backend <;> rfl

theorem SharesCounter.table_eq
    {root objectClass : ObjectClass}
    {backend : Backend}
    (shares : SharesCounter root objectClass backend) :
    objectClass.table = root.table := by
  cases backend with
  | postgres => exact congrArg ObjectClass.table shares
  | sqlite => exact shares

theorem sequenceName_inj
    {first second : ObjectClass} :
    sequenceName first = sequenceName second ↔ first.key = second.key :=
  String.append_right_inj _

namespace ClassSetting

section Draws

variable
    {setting : ClassSetting}
    {linked number : Option Expression}
    {sequence : String}
    (isLinked : linked ≠ some (.nextNumber sequence))

theorem inheritedNumber_ne_nextNumber (setting : ClassSetting) (sequence : String) :
    setting.inheritedNumber ≠ .nextNumber sequence := by
  rw [inheritedNumber]
  split <;> simp [lastNumber]

include isLinked

theorem draws_insertRow_iff
    {owner : ObjectClass} :
    (setting.insertRow linked number owner).Draws sequence ↔
      number = some (.nextNumber sequence) := by
  constructor
  · intro draws
    rcases mem_values_insertRow_iff.mp draws with isNumber | ⟨attr, _, isNext⟩
    · exact isNumber
    · rcases setting.insertedValue_eq_or linked owner attr with isNew | ⟨_, given⟩
      · exact absurd (isNew.symm.trans isNext.symm) (newValue_ne_nextNumber _ _ _)
      · exact absurd (given.trans (congrArg some isNext.symm)) isLinked
  · intro isNumber
    exact mem_values_insertRow_iff.mpr (.inl isNumber)

/-- Only the row of the root draws a number. -/
theorem exists_draws_iff
    {classes : List ObjectClass} :
    (∃ statement ∈ setting.rowsFor linked classes, statement.Draws sequence) ↔
      classes ≠ [] ∧ setting.rootNumber? = some (.nextNumber sequence) := by
  cases classes with
  | nil => simp [rowsFor]
  | cons root descendants =>
      have noDescendant : ∀ statement ∈
          descendants.map (setting.insertRow linked (some setting.inheritedNumber)),
          ¬ statement.Draws sequence := by
        intro statement isRow draws
        rcases List.mem_map.mp isRow with ⟨owner, _, rfl⟩
        have isNext := Option.some.inj ((draws_insertRow_iff isLinked).mp draws)
        exact inheritedNumber_ne_nextNumber setting sequence isNext
      rw [rowsFor, List.exists_mem_cons_iff, draws_insertRow_iff isLinked]
      constructor
      · rintro (isRoot | ⟨statement, isRow, draws⟩)
        · exact ⟨List.cons_ne_nil _ _, isRoot⟩
        · exact absurd draws (noDescendant statement isRow)
      · rintro ⟨_, isRoot⟩
        exact .inl isRoot

end Draws

end ClassSetting

/-! ## The branch that creates the linked object -/

/--
The write creates an object of the target and stores the row of the class last,
with the number by which it is linked; the rows of the ancestors come in between.
-/
structure CreatesAndLinks (setting : ClassSetting) (link : Attribute)
    (target root : ObjectClass) (creating : ViewWrite) (between : List WriteStatement)
    (storing : WriteStatement) : Prop where
  linksTo : LinksTo setting.catalog link target
  isRoot : setting.catalog.root? target.key = some root
  condition : creating.condition = some ⟨link.viewColumn, true⟩
  statements :
    creating.statements = createTarget setting.catalog target link :: between ++ [storing]
  stores : storing.AddsRowTo setting.objectClass.table
  links : ⟨link.storageColumn, lastNumber setting.backend root⟩ ∈ storing.assignments

namespace ClassSetting

section Ancestors

variable
    {declared : List ObjectClass}
    {setting : ClassSetting}
    (resolvedCatalog : ResolvedCatalog declared setting.catalog)
    (sameChain : setting.chain = setting.catalog.chain setting.objectClass.key)
    {front : List ObjectClass}
    (split : setting.chain = front ++ [setting.objectClass])
    {target root : ObjectClass}
    (isRoot : setting.catalog.root? target.key = some root)

include resolvedCatalog sameChain isRoot

/-- A class draws from the sequence of another root only if it has the same root. -/
theorem root_eq_of_sequence_eq
    {own : ObjectClass}
    (isOwn : own ∈ setting.chain.head?)
    (sameSequence : setting.sequence = sequenceName root) :
    own = root := by
  have foundOwn := resolvedCatalog.find?_of_mem_chain (sameChain ▸ List.mem_of_head? isOwn)
  have foundRoot := resolvedCatalog.find?_of_mem_chain (List.mem_of_head? isRoot)
  have isSettingRoot : setting.root = own := by
    rw [ClassSetting.root, isOwn, Option.getD_some]
  rw [sequence, isSettingRoot] at sameSequence
  rw [sequenceName_inj.mp sameSequence, foundRoot] at foundOwn
  exact (Option.some.inj foundOwn).symm

include split

/-- A row in front of the last one moves the number exactly if an ancestor shares the counter. -/
theorem exists_moves_iff
    (noParent : root.parent = none) :
    (∃ statement ∈ setting.rowsFor (some (lastNumber setting.backend root)) front,
        statement.Moves (lastNumber setting.backend root)) ↔
      ∃ ancestor ∈ front, SharesCounter root ancestor setting.backend := by
  cases isBackend : setting.backend with
  | sqlite => exact exists_addsRowTo_iff
  | postgres =>
      have number : setting.rootNumber? = some (.nextNumber setting.sequence) := by
        rw [rootNumber?, isBackend]
      refine (exists_draws_iff (by simp [lastNumber])).trans ?_
      rw [number, Option.some.injEq, Expression.nextNumber.injEq]
      constructor
      · rintro ⟨nonempty, sameSequence⟩
        rcases List.exists_cons_of_ne_nil nonempty with ⟨first, descendants, rfl⟩
        have isFirst : first ∈ setting.chain.head? := by
          rw [split]
          rfl
        exact ⟨first, List.mem_cons_self,
          root_eq_of_sequence_eq resolvedCatalog sameChain isRoot isFirst sameSequence⟩
      · rintro ⟨ancestor, isAncestor, rfl⟩
        have inChain : ancestor ∈ setting.catalog.chain setting.objectClass.key := by
          rw [← sameChain, split]
          exact List.mem_append_left _ isAncestor
        refine ⟨List.ne_nil_of_mem isAncestor, ?_⟩
        rw [sequence, root_eq sameChain (root?_eq_of_noParent inChain noParent)]

/-- A class behind the one that it is linked to does not draw from the sequence of its root. -/
theorem not_draws_last
    (found : setting.catalog.find? setting.objectClass.key = some setting.objectClass)
    {link : Attribute}
    (isLink : setting.objectClass.link? = some link)
    (linksTo : LinksTo setting.catalog link target)
    (different : target.key ≠ setting.objectClass.key) :
    ¬ (setting.insertRow (some (lastNumber setting.backend root)) (setting.numberBehind front)
        setting.objectClass).Draws (sequenceName root) := by
  rw [draws_insertRow_iff (by cases setting.backend <;> simp [lastNumber])]
  intro isNext
  cases front with
  | cons first descendants => exact inheritedNumber_ne_nextNumber _ _ (Option.some.inj isNext)
  | nil =>
      have sameSequence : setting.sequence = sequenceName root := by
        rw [numberBehind, rootNumber?] at isNext
        split at isNext
        · exact Expression.nextNumber.inj (Option.some.inj isNext)
        · cases isNext
      have isFirst : setting.objectClass ∈ setting.chain.head? := by
        rw [split]
        rfl
      have isOwn :=
        root_eq_of_sequence_eq resolvedCatalog sameChain isRoot isFirst sameSequence
      rcases resolvedCatalog.exists_order_eq_append found with ⟨earlier, later, inOrder⟩
      have inFront := (resolvedCatalog.target_eq_or_mem_front inOrder found
        (ObjectClass.mem_attributes_of_link? isLink) linksTo.refers).resolve_left different
      apply resolvedCatalog.key_not_mem_front inOrder
      rw [isOwn] at inOrder ⊢
      exact resolvedCatalog.key_mem_front_of_mem_chain inOrder inFront (List.mem_of_head? isRoot)

end Ancestors

/-- The branch that creates an object of the target creates it first and links it last. -/
theorem createsAndLinks_creatingInsert
    {setting : ClassSetting}
    {front : List ObjectClass}
    (split : setting.chain = front ++ [setting.objectClass])
    {link : Attribute}
    {target root : ObjectClass}
    (isLink : setting.objectClass.link? = some link)
    (stored : link.isStored = true)
    (linksTo : LinksTo setting.catalog link target)
    (isRoot : setting.catalog.root? target.key = some root) :
    CreatesAndLinks setting link target root (setting.creatingInsert target link)
      (setting.rowsFor (some (lastNumber setting.backend root)) front)
      (setting.insertRow (some (lastNumber setting.backend root)) (setting.numberBehind front)
        setting.objectClass) := by
  refine ⟨linksTo, isRoot, rfl, ?_, addsRowTo_insertRow_iff.mpr rfl, ?_⟩
  · rw [creatingInsert, isRoot, Option.getD_some, insertRows_eq, split, rowsFor_concat]
    rfl
  · refine mem_assignments_insertRow_iff.mpr (.inr ⟨link, ?_, ?_⟩)
    · exact List.mem_filter.mpr ⟨ObjectClass.mem_attributes_of_link? isLink, stored⟩
    · simp [insertedValue, ClassSetting.isLink, isLink]

end ClassSetting

/--
Which number a class links by when it creates the object that it is linked to.

A class that extends or mediates another one inserts in two ways.  Where no object
to link to is given, it creates one and stores its own row last; the link gets the
number that was last given to an object of the root of the other class.  The
statements in between insert the rows of the proper ancestors, so one of them adds a
row to the table of that root exactly if an ancestor has this table, and one of them
moves the number exactly if an ancestor shares its counter.  Where neither happens,
the number is still that of the new object, for the last row does not draw it either.
-/
theorem created_target_overtaken_iff
    {declared : List ObjectClass}
    {catalog : Catalog}
    (built : Catalog.build declared = .ok catalog)
    {config : Config}
    {key : String}
    {setting : ClassSetting}
    (isSetting : ClassSetting.ofKey config catalog key = .ok setting)
    {targetKey : String}
    {relationship : Relationship}
    (isTarget : setting.objectClass.identityTarget = some (targetKey, relationship)) :
    ∃ link target root creating linking between storing,
      target.key = targetKey ∧
      setting.objectClass.link? = some link ∧
      setting.inserts = .ok [creating, linking] ∧
      CreatesAndLinks setting link target root creating between storing ∧
      ((∃ statement ∈ between, statement.AddsRowTo root.table) ↔
        ∃ ancestor ∈ ancestors catalog.classes setting.objectClass,
          ancestor.table = root.table) ∧
      ((∃ statement ∈ between, statement.Moves (lastNumber setting.backend root)) ↔
        ∃ ancestor ∈ ancestors catalog.classes setting.objectClass,
          SharesCounter root ancestor setting.backend) ∧
      (target.key ≠ setting.objectClass.key → ¬ storing.Draws (sequenceName root)) := by
  have resolvedCatalog := resolved_of_build built
  rcases ClassSetting.ofKey_eq_ok isSetting with ⟨rfl, sameChain, found⟩
  cases (findClass?_eq_some found).2
  rcases resolvedCatalog.exists_link found isTarget with
    ⟨link, target, isLink, stored, linksTo, sameKey⟩
  rcases resolvedCatalog.exists_root linksTo.found with ⟨root, isRoot, noParent, _⟩
  have split := sameChain.trans (chain_eq_append found)
  have createsAndLinks :=
    ClassSetting.createsAndLinks_creatingInsert split isLink stored linksTo isRoot
  refine ⟨link, target, root, _, _, _, _, sameKey, isLink,
    ClassSetting.inserts_of_linksTo isLink linksTo, createsAndLinks, ?_, ?_, ?_⟩
  · rw [ClassSetting.exists_addsRowTo_iff]
    simp only [List.mem_reverse]
  · rw [ClassSetting.exists_moves_iff resolvedCatalog sameChain split isRoot noParent]
    simp only [List.mem_reverse]
  · exact ClassSetting.not_draws_last resolvedCatalog sameChain split isRoot found isLink linksTo

/--
A club of persons.  Members and officers are persons, and an officer extends a member;
a warden is a person too, but extends an office.
-/
def club : List ObjectClass :=
  [{ ObjectClass.declare "person" with attributes := [Attribute.declare "name" .string] },
    { ObjectClass.declare "member" with parent := some "person" },
    { ObjectClass.declare "officer" with parent := some "person", extended := some "member" },
    ObjectClass.declare "office",
    { ObjectClass.declare "warden" with parent := some "person", extended := some "office" }]

/-- Offices have a counter of their own, so a warden is linked to the office that is created. -/
theorem wardens_not_overtaken :
    ∃ catalog setting,
      Catalog.build club = .ok catalog ∧
      ClassSetting.ofKey .standard catalog "warden" = .ok setting ∧
      setting.objectClass.identityTarget = some ("office", .extending) ∧
      ∃ link target root creating linking between storing,
        target.key = "office" ∧
        setting.objectClass.link? = some link ∧
        setting.inserts = .ok [creating, linking] ∧
        CreatesAndLinks setting link target root creating between storing ∧
        ∀ statement ∈ between, ¬ statement.Moves (lastNumber setting.backend root) := by
  have checked : ((Catalog.build club).toOption.any fun catalog =>
      (ClassSetting.ofKey .standard catalog "warden").toOption.any fun setting =>
        setting.objectClass.identityTarget == some ("office", .extending) &&
          (ancestors catalog.classes setting.objectClass).all fun ancestor =>
            (setting.catalog.root? "office").all fun root => ancestor.table != root.table) =
      true := by
    decide +kernel
  simp only [Option.any_eq_true, toOption_eq_some_iff, Bool.and_eq_true, beq_iff_eq,
    List.all_eq_true, Option.all_eq_true, bne_iff_ne] at checked
  rcases checked with ⟨catalog, built, setting, isSetting, isTarget, otherTables⟩
  rcases created_target_overtaken_iff built isSetting isTarget with
    ⟨link, target, root, creating, linking, between, storing, sameKey, isLink, inserted,
      createsAndLinks, _, moved, _⟩
  refine ⟨catalog, setting, built, isSetting, isTarget, link, target, root, creating, linking,
    between, storing, sameKey, isLink, inserted, createsAndLinks, ?_⟩
  intro statement inBetween moves
  rcases moved.mp ⟨statement, inBetween, moves⟩ with ⟨ancestor, isAncestor, shares⟩
  have isRoot := createsAndLinks.isRoot
  rw [sameKey] at isRoot
  exact otherTables ancestor isAncestor root isRoot shares.table_eq

/--
Persons are counted once, so between the new member and the link of an officer the
row of the officer among the persons comes, and the officer is linked to that row.
-/
theorem exists_overtaken_link :
    ∃ catalog,
      Catalog.build club = .ok catalog ∧
      ∀ backend, ∃ setting link target root creating linking between storing,
        ClassSetting.ofKey ⟨backend, none⟩ catalog "officer" = .ok setting ∧
        setting.objectClass.identityTarget = some (target.key, .extending) ∧
        setting.objectClass.link? = some link ∧
        catalog.root? target.key = some root ∧
        setting.inserts = .ok [creating, linking] ∧
        creating.condition = some ⟨link.viewColumn, true⟩ ∧
        creating.statements = createTarget catalog target link :: between ++ [storing] ∧
        ⟨link.storageColumn, lastNumber backend root⟩ ∈ storing.assignments ∧
        (∃ statement ∈ between, statement.AddsRowTo root.table) ∧
        ∃ statement ∈ between, statement.Moves (lastNumber backend root) := by
  have checked : ((Catalog.build club).toOption.any fun catalog =>
      Backend.all.all fun backend =>
        (ClassSetting.ofKey ⟨backend, none⟩ catalog "officer").toOption.any fun setting =>
          setting.objectClass.identityTarget == some ("member", .extending) &&
            (setting.catalog.root? "member").all fun root =>
              (ancestors setting.catalog.classes setting.objectClass).contains root) = true := by
    decide +kernel
  simp only [Option.any_eq_true, toOption_eq_some_iff, Bool.and_eq_true, beq_iff_eq,
    List.all_eq_true, Option.all_eq_true, List.contains_iff_mem] at checked
  rcases checked with ⟨catalog, built, ofBackend⟩
  refine ⟨catalog, built, ?_⟩
  intro backend
  have isBackend : backend ∈ Backend.all := by
    cases backend <;> simp [Backend.all]
  rcases ofBackend backend isBackend with ⟨setting, isSetting, isTarget, isAncestor⟩
  have resolvedCatalog := resolved_of_build built
  have sameBackend : setting.backend = backend := by
    rw [ClassSetting.backend, ClassSetting.config_of_ofKey isSetting]
  rcases ClassSetting.ofKey_eq_ok isSetting with ⟨rfl, sameChain, found⟩
  rw [← (findClass?_eq_some found).2] at sameChain found
  rcases resolvedCatalog.exists_link found isTarget with
    ⟨link, target, isLink, stored, linksTo, sameKey⟩
  rcases resolvedCatalog.exists_root linksTo.found with ⟨root, isRoot, noParent, _⟩
  have split := sameChain.trans (chain_eq_append found)
  have createsAndLinks :=
    ClassSetting.createsAndLinks_creatingInsert split isLink stored linksTo isRoot
  have inFront := List.mem_reverse.mpr (isAncestor root (sameKey ▸ isRoot))
  refine ⟨setting, link, target, root, _, _, _, _, isSetting, sameKey ▸ isTarget, isLink, isRoot,
    ClassSetting.inserts_of_linksTo isLink linksTo, createsAndLinks.condition,
    createsAndLinks.statements, sameBackend ▸ createsAndLinks.links, ?_, ?_⟩
  · exact ClassSetting.exists_addsRowTo_iff.mpr ⟨root, inFront, rfl⟩
  · rw [← sameBackend, ClassSetting.exists_moves_iff resolvedCatalog sameChain split isRoot noParent]
    exact ⟨root, inFront, sharesCounter_self root _⟩

end ClassStore.Schema
