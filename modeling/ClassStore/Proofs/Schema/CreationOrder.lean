import ClassStore.Proofs.Schema.Groups
import ClassStore.Proofs.Schema.Objects
import ClassStore.Proofs.Schema.ViewItems
import ClassStore.Schema.Script

/-!
# Order of creation

The statements of a catalog are run class by class in the order of dependencies, and
for each class group by group.  What a class provides for others is its table, its
view and, for a root in PostgreSQL, its sequence.  The statements of a class use what
the classes in front of it provide, and what the groups in front have created; a
collection of its own objects uses its own table and view.  `uses_created` puts the
classes together along the order.
-/

namespace ClassStore.Schema

open ClassStore.Catalog

/-! ## What classes provide -/

/-- What other classes may use of a class has been created. -/
structure Provided (backend : Backend) (created : List SchemaObject)
    (objectClass : ObjectClass) : Prop where
  table : .relation objectClass.table ∈ created
  view : .relation objectClass.view ∈ created
  sequence :
    backend = .postgres → objectClass.parent = none →
      .sequence (sequenceName objectClass) ∈ created

/-- What the statements of a class use of other classes has been created. -/
structure Prepared (setting : ClassSetting) (created : List SchemaObject) : Prop where
  ancestors :
    ∀ member ∈ setting.chain,
      member = setting.objectClass ∨ Provided setting.backend created member
  parent :
    ∀ key parent, setting.objectClass.parent = some key →
      setting.catalog.find? key = some parent → Provided setting.backend created parent
  references :
    ∀ member ∈ setting.chain, ∀ attr ∈ member.stored, ∀ reference target,
      attr.reference = some reference → setting.catalog.find? reference.target = some target →
        Provided setting.backend created target
  members :
    ∀ attr ∈ setting.objectClass.attributes, ∀ reference target,
      attr.reference = some reference → setting.catalog.find? reference.target = some target →
        target = setting.objectClass ∨ Provided setting.backend created target
  linked :
    ∀ link, setting.objectClass.link? = some link →
      ∃ target root,
        LinksTo setting.catalog link target ∧
        Provided setting.backend created target ∧
        setting.catalog.root? target.key = some root ∧
        root.parent = none ∧
        Provided setting.backend created root

/-- The tables of the class have been created as well. -/
structure Furnished (setting : ClassSetting) (memberships : List ClassSetting.Membership)
    (created : List SchemaObject) : Prop extends Prepared setting created where
  table : .relation setting.objectClass.table ∈ created
  junctions :
    ∀ membership ∈ memberships, .relation membership.junction.table ∈ created
  sequence :
    setting.backend = .postgres → setting.isRoot = true → .sequence setting.sequence ∈ created

section Mono

variable
    {setting : ClassSetting}
    {memberships : List ClassSetting.Membership}
    {created more : List SchemaObject}
    (contained : created ⊆ more)

include contained

theorem Provided.mono
    {backend : Backend}
    {objectClass : ObjectClass}
    (provided : Provided backend created objectClass) :
    Provided backend more objectClass :=
  ⟨contained provided.table, contained provided.view,
    fun isBackend noParent => contained (provided.sequence isBackend noParent)⟩

theorem Prepared.mono
    (prepared : Prepared setting created) :
    Prepared setting more := by
  constructor
  · intro member inChain
    exact (prepared.ancestors member inChain).imp id (Provided.mono contained)
  · intro key parent isParent found
    exact (prepared.parent key parent isParent found).mono contained
  · intro member inChain attr isStored reference target isReference found
    exact (prepared.references member inChain attr isStored reference target isReference
      found).mono contained
  · intro attr isAttribute reference target isReference found
    exact (prepared.members attr isAttribute reference target isReference found).imp id
      (Provided.mono contained)
  · intro link isLink
    rcases prepared.linked link isLink with
      ⟨target, root, linksTo, ofTarget, isRoot, noParent, ofRoot⟩
    exact ⟨target, root, linksTo, ofTarget.mono contained, isRoot, noParent,
      ofRoot.mono contained⟩

theorem Furnished.mono
    (furnished : Furnished setting memberships created) :
    Furnished setting memberships more :=
  ⟨furnished.toPrepared.mono contained, contained furnished.table,
    fun membership isMembership => contained (furnished.junctions membership isMembership),
    fun isBackend isRoot => contained (furnished.sequence isBackend isRoot)⟩

end Mono

/-- What stands in front of a class prepares its statements. -/
theorem prepared_of_front
    {declared : List ObjectClass}
    {setting : ClassSetting}
    (settledCatalog : SettledCatalog declared setting.catalog)
    (sameChain : setting.chain = setting.catalog.chain setting.objectClass.key)
    (found : setting.catalog.find? setting.objectClass.key = some setting.objectClass)
    {front back : List String}
    (split : setting.catalog.order = front ++ setting.objectClass.key :: back)
    {created : List SchemaObject}
    (provided :
      ∀ key ∈ front, ∀ objectClass, setting.catalog.find? key = some objectClass →
        Provided setting.backend created objectClass) :
    Prepared setting created := by
  have resolvedCatalog := settledCatalog.toResolvedCatalog
  constructor
  · intro member inChain
    rw [sameChain] at inChain
    have foundMember := resolvedCatalog.find?_of_mem_chain inChain
    rw [chain_eq_append found] at inChain
    rcases List.mem_append.mp inChain with isAncestor | isLast
    · right
      apply provided member.key _ member foundMember
      exact resolvedCatalog.key_mem_front_of_mem_ancestors split found
        (List.mem_reverse.mp isAncestor)
    · exact .inl (List.mem_singleton.mp isLast)
  · intro key parent isParent foundParent
    exact provided key ((settledCatalog.within_front split found).parent key isParent) parent
      foundParent
  · intro member inChain attr isStored reference target isReference foundTarget
    rcases List.mem_filter.mp isStored with ⟨isAttribute, stored⟩
    have within := settledCatalog.within_front_of_mem_chain split (sameChain ▸ inChain)
    exact provided reference.target
      (within.references attr isAttribute (isReference_of_isStored stored isReference) reference
        isReference)
      target foundTarget
  -- A collection may have members of the class itself, so it need not be behind its target.
  · intro attr isAttribute reference target isReference foundTarget
    rcases resolvedCatalog.target_eq_or_mem_front split found isAttribute isReference with
      isOwn | inFront
    · rw [isOwn, found] at foundTarget
      exact .inl (Option.some.inj foundTarget).symm
    · exact .inr (provided reference.target inFront target foundTarget)
  · intro link isLink
    rcases resolvedCatalog.exists_linksTo found isLink with ⟨target, stored, linksTo⟩
    have inFront := (settledCatalog.within_front split found).references link
      (ObjectClass.mem_attributes_of_link? isLink)
      (isReference_of_isStored stored linksTo.refers) _ linksTo.refers
    rcases resolvedCatalog.exists_root linksTo.found with ⟨root, isRoot, noParent, inChain⟩
    refine ⟨target, root, linksTo, provided target.key inFront target linksTo.found, isRoot,
      noParent, ?_⟩
    exact provided root.key (resolvedCatalog.key_mem_front_of_mem_chain split inFront inChain)
      root (resolvedCatalog.find?_of_mem_chain inChain)

/-! ## Tables -/

/-- A column of numbers is filled from the sequence of the class itself, if it has one. -/
theorem uses_idColumn_subset (setting : ClassSetting) :
    setting.idColumn.uses ⊆ setting.sequenceStatements.flatMap Statement.creates := by
  rw [ClassSetting.idColumn, ClassSetting.sequenceStatements]
  cases setting.backend <;> cases setting.isRoot <;>
    simp [IdColumn.uses, Statement.creates]

theorem uses_of_mem_sequenceStatements
    {setting : ClassSetting}
    {statement : Statement}
    (isStatement : statement ∈ setting.sequenceStatements) :
    statement.uses = [] := by
  rw [ClassSetting.sequenceStatements] at isStatement
  repeat' split at isStatement
  · rw [List.mem_singleton.mp isStatement]
    rfl
  · cases isStatement
  · cases isStatement

section Tables

variable
    {setting : ClassSetting}
    {schema : ClassSchema}
    {parts : SchemaParts}
    (madeOf : MadeOf setting schema parts)
    {created : List SchemaObject}

include madeOf

/-- Tables need nothing but the sequence of the class. -/
theorem grounded_tableStatements :
    Grounded created (parts.tableStatements setting) := by
  refine Grounded.append (grounded_of_supported ?_) ⟨?_, grounded_of_supported ?_⟩
  · intro statement isSequence object isUsed
    rw [uses_of_mem_sequenceStatements isSequence] at isUsed
    cases isUsed
  · intro object isUsed
    rw [Statement.uses, (ClassSetting.table_of_eq_ok madeOf.table).2] at isUsed
    exact List.mem_append_right _ (uses_idColumn_subset setting isUsed)
  · intro statement isJunction object isUsed
    rcases List.mem_map.mp isJunction with ⟨membership, _, rfl⟩
    cases isUsed

/-- Behind its tables a class is furnished. -/
theorem Prepared.furnished
    (prepared : Prepared setting created) :
    Furnished setting parts.memberships
      (created ++ (parts.tableStatements setting).flatMap Statement.creates) := by
  refine ⟨prepared.mono (List.subset_append_left _ _), ?_, ?_, ?_⟩
  · rw [← (ClassSetting.table_of_eq_ok madeOf.table).1]
    apply List.mem_append_right
    refine List.mem_flatMap.mpr ⟨.table parts.table, ?_, List.mem_cons_self⟩
    exact List.mem_append_right _ List.mem_cons_self
  · intro membership isMembership
    apply List.mem_append_right
    refine List.mem_flatMap.mpr ⟨.junctionTable membership.junction, ?_, List.mem_cons_self⟩
    exact List.mem_append_right _ (List.mem_cons_of_mem _ (List.mem_map_of_mem isMembership))
  · intro isBackend isRoot
    apply List.mem_append_right
    refine List.mem_flatMap.mpr ⟨.sequence setting.sequence, ?_, List.mem_cons_self⟩
    apply List.mem_append_left
    rw [ClassSetting.sequenceStatements, isBackend, isRoot]
    exact List.mem_cons_self

end Tables

/-! ## Indexes, constraints and procedures -/

namespace Furnished

variable
    {setting : ClassSetting}
    {memberships : List ClassSetting.Membership}
    {created : List SchemaObject}
    (furnished : Furnished setting memberships created)

include furnished

theorem table_of_mem_chain
    {member : ObjectClass}
    (inChain : member ∈ setting.chain) :
    .relation member.table ∈ created := by
  rcases furnished.ancestors member inChain with rfl | provided
  · exact furnished.table
  · exact provided.table

/-- The sequence of a class is its own or that of a root in front of it. -/
theorem sequence_of_rooted
    (rooted : setting.Rooted)
    (isBackend : setting.backend = .postgres) :
    .sequence setting.sequence ∈ created := by
  rcases furnished.ancestors setting.root rooted.root with isOwn | provided
  · apply furnished.sequence isBackend
    rw [ClassSetting.isRoot, ← isOwn, rooted.noParent]
    rfl
  · exact provided.sequence isBackend rooted.noParent

end Furnished

section Constraints

variable
    {setting : ClassSetting}
    (rooted : setting.Rooted)
    {schema : ClassSchema}
    {parts : SchemaParts}
    (madeOf : MadeOf setting schema parts)
    {created : List SchemaObject}
    (furnished : Furnished setting parts.memberships created)

include furnished

/-- The members of a collection are of the class itself or of one in front of it. -/
theorem member_eq_or_provided
    (madeOf : MadeOf setting schema parts)
    {membership : ClassSetting.Membership}
    (isMembership : membership ∈ parts.memberships) :
    membership.member = setting.objectClass ∨
    Provided setting.backend created membership.member := by
  rcases ClassSetting.membership_of_eq_ok madeOf.memberships isMembership with
    ⟨attr, isCollection, reference, _, isReference, found⟩
  exact furnished.members attr (List.mem_filter.mp isCollection).1 reference membership.member
    isReference found

theorem supported_of_index
    {statement : Statement}
    (isStatement : statement ∈ parts.indexStatements setting) :
    statement.Supported created := by
  rcases List.mem_append.mp isStatement with ofClass | ofJunction
  · rcases List.mem_map.mp ofClass with ⟨index, isIndex, rfl⟩
    refine List.forall_mem_singleton.mpr ?_
    rw [ClassSetting.table_of_mem_indexes isIndex]
    exact furnished.table
  · rcases List.mem_flatMap.mp ofJunction with ⟨membership, isMembership, isIndex⟩
    rcases List.mem_map.mp isIndex with ⟨index, ofMembership, rfl⟩
    refine List.forall_mem_singleton.mpr ?_
    rw [ClassSetting.table_of_mem_junctionIndexes ofMembership]
    exact furnished.junctions membership isMembership

theorem supported_of_procedure
    {statement : Statement}
    (isStatement : statement ∈ parts.memberships.flatMap setting.procedureStatements) :
    statement.Supported created := by
  rcases List.mem_flatMap.mp isStatement with ⟨membership, isMembership, isProcedure⟩
  rcases List.mem_map.mp isProcedure with ⟨action, _, rfl⟩
  exact List.forall_mem_cons.mpr ⟨furnished.table,
    List.forall_mem_singleton.mpr (furnished.junctions membership isMembership)⟩

include rooted madeOf

/-- Both tables of a foreign key have been created. -/
theorem tables_of_mem_keys
    {key : ForeignKey}
    (isKey : key ∈ parts.keys setting) :
    .relation key.table ∈ created ∧ .relation key.target ∈ created := by
  rcases List.mem_append.mp isKey with ofClass | ofCollection
  · rcases List.mem_append.mp ofClass with isParentKey | isReferenceKey
    · rcases ClassSetting.parentKey_of_eq_ok madeOf.parentKeys isParentKey with
        ⟨table, parent, target, isParent, found, sameTarget⟩
      rw [table, sameTarget]
      exact ⟨furnished.table, (furnished.parent parent target isParent found).table⟩
    · rcases ClassSetting.referenceKey_of_eq_ok madeOf.referenceKeys isReferenceKey with
        ⟨table, attr, isStored, reference, target, isReference, found, sameTarget⟩
      rw [table, sameTarget]
      exact ⟨furnished.table, (furnished.references setting.objectClass rooted.self attr isStored
        reference target isReference found).table⟩
  · rcases List.mem_flatMap.mp ofCollection with ⟨membership, isMembership, isJunctionKey⟩
    have junction := furnished.junctions membership isMembership
    simp only [ClassSetting.junctionKeys, List.mem_cons, List.not_mem_nil, or_false]
      at isJunctionKey
    rcases isJunctionKey with rfl | rfl
    · exact ⟨junction, furnished.table⟩
    · refine ⟨junction, ?_⟩
      rcases member_eq_or_provided furnished madeOf isMembership with isOwn | provided
      · rw [isOwn]
        exact furnished.table
      · exact provided.table

theorem supported_of_constraint
    {statement : Statement}
    (isStatement : statement ∈ setting.constraintStatements (parts.keys setting)) :
    statement.Supported created := by
  simp only [ClassSetting.constraintStatements, List.mem_append, List.mem_flatMap, or_assoc]
    at isStatement
  rcases isStatement with isPrimary | ⟨key, isKey, ofKey⟩ | ⟨attr, _, ofOnce⟩ |
    ⟨attr, _, ofDomain⟩ | ⟨rule, isRule, ofUnique⟩
  · rw [ClassSetting.primaryKeyStatements] at isPrimary
    split at isPrimary
    · rw [List.mem_singleton.mp isPrimary]
      exact List.forall_mem_singleton.mpr furnished.table
    · cases isPrimary
  · rcases tables_of_mem_keys rooted madeOf furnished isKey with ⟨table, target⟩
    exact supported_of_foreignKey table target ofKey
  · exact supported_of_onceRule furnished.table ofOnce
  · exact supported_of_domainRule furnished.table ofDomain
  · rcases ClassSetting.tables_of_mem_softUniques isRule with ⟨table, holder, inChain, stateTable⟩
    apply supported_of_softUnique _ _ ofUnique
    · rw [table]
      exact furnished.table
    · rw [stateTable]
      exact furnished.table_of_mem_chain inChain

/-- What works on the tables of a class needs the tables of the class and of those in front. -/
theorem supported_of_rule
    {statement : Statement}
    (isStatement : statement ∈ parts.ruleStatements setting) :
    statement.Supported created := by
  simp only [SchemaParts.ruleStatements, List.mem_append, or_assoc] at isStatement
  rcases isStatement with isIndex | isConstraint | isProcedure
  · exact supported_of_index furnished isIndex
  · exact supported_of_constraint rooted madeOf furnished isConstraint
  · exact supported_of_procedure furnished isProcedure

end Constraints

/-! ## Views -/

section Views

variable
    {setting : ClassSetting}
    (rooted : setting.Rooted)
    {schema : ClassSchema}
    {parts : SchemaParts}
    (madeOf : MadeOf setting schema parts)
    {created : List SchemaObject}
    (furnished : Furnished setting parts.memberships created)

include rooted madeOf furnished

/-- The view of a class joins tables of the chain and views of classes in front of it. -/
theorem supported_view :
    (Statement.view parts.view).Supported created := by
  rcases ClassSetting.view_of_eq_ok madeOf.view with ⟨_, root, joins⟩
  refine List.forall_mem_cons.mpr ⟨?_, ?_⟩
  · rw [root]
    exact furnished.table_of_mem_chain rooted.root
  · intro object isJoined
    rcases List.mem_map.mp isJoined with ⟨join, isJoin, rfl⟩
    rcases (mem_chainJoins_iff joins).mp isJoin with
      ⟨member, inChain, ⟨_, rfl⟩ |
        ⟨attr, isStored, reference, target, isReference, found, rfl⟩⟩
    · exact furnished.table_of_mem_chain inChain
    · exact (furnished.references member inChain attr isStored reference target isReference
        found).view

theorem grounded_viewStatements :
    Grounded created parts.viewStatements := by
  refine ⟨supported_view rooted madeOf furnished, grounded_of_supported ?_⟩
  intro statement isStatement
  rcases List.mem_map.mp isStatement with ⟨membership, isMembership, rfl⟩
  refine List.forall_mem_cons.mpr ⟨?_, List.forall_mem_singleton.mpr ?_⟩
  · exact List.mem_append_left _ (furnished.junctions membership isMembership)
  · rcases member_eq_or_provided furnished madeOf isMembership with isOwn | provided
    · rw [isOwn, ← (ClassSetting.view_of_eq_ok madeOf.view).1]
      exact List.mem_append_right _ List.mem_cons_self
    · exact List.mem_append_left _ provided.view

end Views

/-! ## Writes -/

section Writes

variable
    {setting : ClassSetting}
    (rooted : setting.Rooted)
    {memberships : List ClassSetting.Membership}
    {created : List SchemaObject}
    (furnished : Furnished setting memberships created)

section Rows

include rooted furnished

/-- The numbers of rows come from the sequence of the root or from the row before. -/
theorem uses_number_subset
    {number : Option Expression}
    (isNumber : number ∈ [setting.rootNumber?, some setting.inheritedNumber]) :
    ∀ value ∈ number, value.uses ⊆ created := by
  intro value isValue
  cases isBackend : setting.backend with
  | sqlite =>
      simp only [ClassSetting.rootNumber?, ClassSetting.inheritedNumber, isBackend,
        List.mem_cons, List.not_mem_nil, or_false] at isNumber
      rcases isNumber with rfl | rfl
      · cases isValue
      · cases isValue
        exact List.nil_subset _
  | postgres =>
      have sequence := furnished.sequence_of_rooted rooted isBackend
      simp only [ClassSetting.rootNumber?, ClassSetting.inheritedNumber, isBackend,
        List.mem_cons, List.not_mem_nil, or_false] at isNumber
      rcases isNumber with rfl | rfl
      · cases isValue
        exact List.cons_subset.mpr ⟨sequence, List.nil_subset _⟩
      · cases isValue
        exact List.cons_subset.mpr ⟨sequence, List.nil_subset _⟩

theorem uses_subset_of_mem_insertRows
    {linked : Option Expression}
    (ofLinked : ∀ value ∈ linked, value.uses ⊆ created)
    {statement : WriteStatement}
    (isRow : statement ∈ setting.insertRows linked) :
    statement.uses ⊆ created := by
  rw [ClassSetting.insertRows_eq] at isRow
  rcases ClassSetting.mem_rowsFor isRow with ⟨owner, inChain, number, isNumber, rfl⟩
  exact ClassSetting.uses_insertRow_subset (furnished.table_of_mem_chain inChain)
    (uses_number_subset rooted furnished isNumber) ofLinked

end Rows

/-- The number that was last given to an object of a root comes from what the root provides. -/
theorem uses_lastNumber_subset
    {backend : Backend}
    {root : ObjectClass}
    (provided : Provided backend created root)
    (noParent : root.parent = none) :
    (lastNumber backend root).uses ⊆ created := by
  cases backend with
  | sqlite => exact List.cons_subset.mpr ⟨provided.table, List.nil_subset _⟩
  | postgres => exact List.cons_subset.mpr ⟨provided.sequence rfl noParent, List.nil_subset _⟩

/-- What is passed on to the linked class uses the view of that class. -/
theorem uses_subset_of_passesOn
    {backend : Backend}
    {catalog : Catalog}
    {target : ObjectClass}
    {link : Attribute}
    {statement : WriteStatement}
    (provided : Provided backend created target)
    (passesOn : statement.PassesOn catalog target link) :
    statement.uses ⊆ created := by
  apply uses_subset_of_columns (passesOn.relation ▸ provided.view)
  intro value isValue
  rcases passesOn.values value isValue with rfl | isAssigned
  · rfl
  · rcases List.mem_map.mp isAssigned with ⟨assignment, isAssignment, rfl⟩
    rcases passesOn.assigns assignment isAssignment with ⟨attr, _, _, isPassed⟩
    simp only [List.mem_cons, List.not_mem_nil, or_false] at isPassed
    rcases isPassed with isNew | isKept
    · rw [isNew]
      rfl
    · rw [isKept]
      rfl

variable
    (view : .relation setting.objectClass.view ∈ created)

include view

theorem supported_extra
    {statement : Statement}
    (isStatement : statement ∈ setting.extraStatements) :
    statement.Supported created := by
  rw [ClassSetting.extraStatements] at isStatement
  split at isStatement
  · rw [List.mem_singleton.mp isStatement]
    exact List.forall_mem_singleton.mpr view
  · cases isStatement
  · cases isStatement

include furnished

theorem supported_deletes :
    (Statement.write setting.deletes).Supported created := by
  apply supported_write view
  intro statement isStatement
  rcases List.mem_map.mp isStatement with ⟨owner, isOwner, rfl⟩
  exact uses_subset_of_columns
    (furnished.table_of_mem_chain (List.mem_reverse.mp isOwner))
    (List.forall_mem_singleton.mpr rfl)

theorem supported_updates
    {update : ViewWrite}
    (isUpdate : setting.updates = .ok update) :
    (Statement.write update).Supported created := by
  have rows : ∀ statement ∈ setting.updateRows, statement.uses ⊆ created := by
    intro statement isRow
    rcases List.mem_map.mp isRow with ⟨owner, isOwner, rfl⟩
    apply uses_subset_of_columns
      (furnished.table_of_mem_chain (List.mem_filter.mp isOwner).1)
    intro value isValue
    rcases List.mem_cons.mp isValue with rfl | isAssigned
    · rfl
    · rcases List.mem_map.mp isAssigned with ⟨assignment, isAssignment, rfl⟩
      rcases List.mem_map.mp isAssignment with ⟨attr, _, rfl⟩
      rfl
  cases isLink : setting.objectClass.link? with
  | none =>
      rcases ClassSetting.updates_of_noLink isLink with ⟨other, isOther, ofView, _, statements⟩
      cases isUpdate.symm.trans isOther
      apply supported_write (ofView ▸ view)
      rwa [statements]
  | some link =>
      rcases furnished.linked link isLink with ⟨target, _, linksTo, provided, _⟩
      rcases ClassSetting.updates_of_linksTo isLink linksTo with
        ⟨other, isOther, ofView, _, statements⟩
      cases isUpdate.symm.trans isOther
      apply supported_write (ofView ▸ view)
      rw [statements]
      exact List.forall_mem_append.mpr
        ⟨rows, List.forall_mem_singleton.mpr
          (uses_subset_of_passesOn provided (passesOn_updateTarget _ _ link))⟩

include rooted

theorem supported_inserts
    {inserts : List ViewWrite}
    (areInserts : setting.inserts = .ok inserts) :
    ∀ write ∈ inserts, (Statement.write write).Supported created := by
  have unlinked : ∀ statement ∈ setting.insertRows none, statement.uses ⊆ created := by
    intro statement isRow
    exact uses_subset_of_mem_insertRows rooted furnished (by simp) isRow
  cases isLink : setting.objectClass.link? with
  | none =>
      cases areInserts.symm.trans (ClassSetting.inserts_of_noLink isLink)
      exact List.forall_mem_singleton.mpr (supported_write view unlinked)
  | some link =>
      rcases furnished.linked link isLink with
        ⟨target, root, linksTo, provided, isRoot, noParent, ofRoot⟩
      cases areInserts.symm.trans (ClassSetting.inserts_of_linksTo isLink linksTo)
      have linked : ∀ statement ∈ setting.insertRows (some (lastNumber setting.backend root)),
          statement.uses ⊆ created := by
        intro statement isRow
        refine uses_subset_of_mem_insertRows rooted furnished ?_ isRow
        rintro value ⟨⟩
        exact uses_lastNumber_subset ofRoot noParent
      refine List.forall_mem_cons.mpr ⟨?_, List.forall_mem_singleton.mpr ?_⟩
      · apply supported_write view
        rw [ClassSetting.creatingInsert, isRoot, Option.getD_some]
        exact List.forall_mem_cons.mpr
          ⟨uses_subset_of_passesOn provided (passesOn_createTarget _ _ link), linked⟩
      · apply supported_write view
        exact List.forall_mem_cons.mpr
          ⟨uses_subset_of_passesOn provided (passesOn_amendTarget _ _ link), unlinked⟩

/-- What makes the view of a class writable uses relations and sequences that exist. -/
theorem supported_of_writeStatement
    {schema : ClassSchema}
    {parts : SchemaParts}
    (madeOf : MadeOf setting schema parts)
    {statement : Statement}
    (isStatement : statement ∈ parts.writeStatements setting) :
    statement.Supported created := by
  simp only [SchemaParts.writeStatements, List.mem_append, List.mem_map, List.mem_cons,
    List.not_mem_nil, or_false, or_assoc] at isStatement
  rcases isStatement with ⟨write, isInsert, rfl⟩ | rfl | rfl | isExtra
  · exact supported_inserts rooted furnished view madeOf.inserts write isInsert
  · exact supported_updates furnished view madeOf.update
  · exact supported_deletes furnished view
  · exact supported_extra view isExtra

end Writes

/-! ## Classes one after the other -/

section Classes

variable
    {setting : ClassSetting}
    (rooted : setting.Rooted)
    {schema : ClassSchema}
    {parts : SchemaParts}
    (madeOf : MadeOf setting schema parts)
    {created : List SchemaObject}
    (prepared : Prepared setting created)

include rooted madeOf prepared

/-- In the schema of a class nothing is used before it is created. -/
theorem grounded_schema :
    Grounded created schema.statements := by
  have furnished := prepared.furnished madeOf
  rw [madeOf.statements]
  apply (grounded_tableStatements madeOf).append
  -- Rules work on tables only, so the views need nothing that rules create.
  refine Grounded.append (grounded_of_supported ?_) (Grounded.mono ?_ (List.subset_append_left _ _))
  · intro statement isRule
    exact supported_of_rule rooted madeOf furnished isRule
  · apply (grounded_viewStatements rooted madeOf furnished).append
    apply grounded_of_supported
    intro statement isWrite
    refine supported_of_writeStatement rooted (furnished.mono (List.subset_append_left _ _)) ?_
      madeOf isWrite
    rw [← (ClassSetting.view_of_eq_ok madeOf.view).1]
    exact List.mem_append_right _ List.mem_cons_self

/-- Behind its schema a class provides what others may use. -/
theorem provided_schema :
    Provided setting.backend (created ++ schema.statements.flatMap Statement.creates)
      setting.objectClass := by
  have furnished := prepared.furnished madeOf
  have tables : created ++ (parts.tableStatements setting).flatMap Statement.creates ⊆
      created ++ schema.statements.flatMap Statement.creates := by
    rw [madeOf.statements, List.flatMap_append, ← List.append_assoc]
    exact List.subset_append_left _ _
  refine ⟨tables furnished.table, ?_, ?_⟩
  · rw [← (ClassSetting.view_of_eq_ok madeOf.view).1]
    apply List.mem_append_right
    refine List.mem_flatMap.mpr ⟨.view parts.view, ?_, List.mem_cons_self⟩
    rw [madeOf.statements]
    apply List.mem_append_right
    apply List.mem_append_right
    exact List.mem_append_left _ List.mem_cons_self
  · intro isBackend noParent
    have isOwn := rooted.unique setting.objectClass rooted.self noParent
    have sequence := furnished.sequence_of_rooted rooted isBackend
    rw [ClassSetting.sequence, ← isOwn] at sequence
    exact tables sequence

end Classes

/-! ## The schema of a catalog -/

section Run

variable
    {declared : List ObjectClass}
    {catalog : Catalog}
    (settledCatalog : SettledCatalog declared catalog)
    {config : Config}

include settledCatalog

/-- The schema of a class behind those that it needs is grounded, and it provides the class. -/
theorem grounded_classSchema
    {front back : List String}
    {key : String}
    (split : catalog.order = front ++ key :: back)
    {created : List SchemaObject}
    (provided :
      ∀ key ∈ front, ∀ objectClass, catalog.find? key = some objectClass →
        Provided config.backend created objectClass)
    {schema : ClassSchema}
    (outcome : classSchema config catalog key = .ok schema) :
    Grounded created schema.statements ∧
    ∀ objectClass, catalog.find? key = some objectClass →
      Provided config.backend (created ++ schema.statements.flatMap Statement.creates)
        objectClass := by
  rcases exists_of_bind_eq_ok outcome with ⟨setting, isSetting, generated⟩
  cases ClassSetting.config_of_ofKey isSetting
  rcases ClassSetting.ofKey_eq_ok isSetting with ⟨rfl, sameChain, found⟩
  have foundKey := found
  rw [← (findClass?_eq_some found).2] at split sameChain found
  have rooted := ClassSetting.rooted_of_found settledCatalog.toResolvedCatalog sameChain found
  have prepared := prepared_of_front settledCatalog sameChain found split provided
  rcases ClassSetting.exists_madeOf generated with ⟨parts, madeOf⟩
  refine ⟨grounded_schema rooted madeOf prepared, ?_⟩
  intro objectClass isClass
  cases foundKey.symm.trans isClass
  exact provided_schema rooted madeOf prepared

/-- The schemas of classes are grounded behind those of the classes in front of them. -/
theorem grounded_classSchemas
    {front keys : List String}
    (split : catalog.order = front ++ keys)
    {created : List SchemaObject}
    (provided :
      ∀ key ∈ front, ∀ objectClass, catalog.find? key = some objectClass →
        Provided config.backend created objectClass)
    {schemas : List ClassSchema}
    (outcome : classSchemas config catalog keys = .ok schemas) :
    Grounded created (schemas.flatMap ClassSchema.statements) := by
  induction keys generalizing front created schemas with
  | nil =>
      cases outcome
      trivial
  | cons key keys inductionHypothesis =>
      rcases exists_of_bind_eq_ok outcome with ⟨schema, ofKey, outcome⟩
      rcases exists_of_bind_eq_ok outcome with ⟨others, ofOthers, same⟩
      cases same
      rcases grounded_classSchema settledCatalog split provided ofKey with ⟨grounded, ofClass⟩
      have behind : catalog.order = front ++ [key] ++ keys := by
        rw [split, List.append_assoc]
        rfl
      rw [List.flatMap_cons]
      refine grounded.append (inductionHypothesis behind ?_ ofOthers)
      intro earlier isEarlier objectClass found
      rcases List.mem_append.mp isEarlier with inFront | isKey
      · exact (provided earlier inFront objectClass found).mono (List.subset_append_left _ _)
      · rw [List.mem_singleton.mp isKey] at found
        exact ofClass objectClass found

end Run

/--
What the statements of a catalog use, they use after it was created.

In a catalog of classes that do not need themselves, run the schemas of all classes
in the order of dependencies, and in each the groups in their order.  If a statement
uses a table, a view or a sequence, then one of the statements in front creates it.
-/
theorem uses_created
    {declared : List ObjectClass}
    {catalog : Catalog}
    (built : Catalog.build declared = .ok catalog)
    (selfFree : ∀ objectClass ∈ declared, SelfFree objectClass)
    {config : Config}
    {schemas : List ClassSchema}
    (generated : catalogSchema config catalog = .ok schemas)
    {front back : List Statement}
    {statement : Statement}
    (split : schemas.flatMap ClassSchema.statements = front ++ statement :: back)
    {object : SchemaObject}
    (isUsed : object ∈ statement.uses) :
    ∃ creator ∈ front, object ∈ creator.creates := by
  have settledCatalog := settled_of_build selfFree built
  have grounded : Grounded [] (schemas.flatMap ClassSchema.statements) :=
    grounded_classSchemas settledCatalog (List.nil_append _).symm nofun generated
  rw [split] at grounded
  rcases grounded.mem_or_exists_creator isUsed with isOld | created
  · cases isOld
  · exact created

/-- The view of books joins the view of authors, which is created before. -/
theorem author_view_created_for_books :
    ∃ catalog schemas front statement back,
      Catalog.build library = .ok catalog ∧
      catalogSchema .standard catalog = .ok schemas ∧
      schemas.flatMap ClassSchema.statements = front ++ statement :: back ∧
      .relation "book" ∈ statement.creates ∧
      .relation "author" ∈ statement.uses ∧
      ∃ creator ∈ front, .relation "author" ∈ creator.creates := by
  have checked : ((Catalog.build library).toOption.any fun catalog =>
      (catalogSchema .standard catalog).toOption.any fun schemas =>
        (schemas.flatMap ClassSchema.statements).any fun statement =>
          statement.creates.contains (.relation "book") &&
            statement.uses.contains (.relation "author")) = true := by
    decide +kernel
  simp only [Option.any_eq_true, toOption_eq_some_iff, List.any_eq_true, Bool.and_eq_true,
    List.contains_iff_mem] at checked
  rcases checked with
    ⟨catalog, built, schemas, generated, statement, isStatement, creates, isUsed⟩
  rcases List.append_of_mem isStatement with ⟨front, back, split⟩
  exact ⟨catalog, schemas, front, statement, back, built, generated, split, creates, isUsed,
    uses_created built
      (fun objectClass isDeclared => (wellDeclared_library objectClass isDeclared).selfFree)
      generated split isUsed⟩

end ClassStore.Schema
