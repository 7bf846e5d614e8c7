import ClassStore.Proofs.Schema.Setting
import ClassStore.Schema.View

/-!
# Items of views

The view of a class is generated from the finished catalog, while the columns of
the view have been collected when the catalog was built.  Both lists agree in
their order: `columnNames_view`.  Every item is read from the row of a class of
the chain, or from the view of another class, which is joined under the name of a
reference.
-/

namespace ClassStore.Schema

open ClassStore.Catalog

/-! ## Joins -/

/-- The name under which the view of another class is joined. -/
def Join.alias? : Join → Option String
  | .table _ => none
  | .reference _ _ name _ _ => some name

/-- The join that shows the class that an attribute of a table refers to. -/
def referenceJoin (table : String) (attr : Attribute) (target : ObjectClass) : Join :=
  .reference attr.flags.required target.view attr.name table attr.storageColumn

/-- Every class that one of the attributes refers to is a class of the catalog. -/
def TargetsKnown (catalog : Catalog) (attributes : List Attribute) : Prop :=
  ∀ attr ∈ attributes, ∀ reference, attr.reference = some reference →
    ∃ target, catalog.find? reference.target = some target

section Joins

variable
    {catalog : Catalog}
    {table rootKey : String}

theorem exists_joinsOf
    {attributes : List Attribute}
    (known : TargetsKnown catalog attributes) :
    ∃ joins, joinsOf catalog table attributes = .ok joins := by
  induction attributes with
  | nil => exact ⟨[], rfl⟩
  | cons attr attributes inductionHypothesis =>
      rcases inductionHypothesis fun other isOther =>
        known other (List.mem_cons_of_mem _ isOther) with ⟨others, rest⟩
      cases isReference : attr.reference with
      | none =>
          refine ⟨others, ?_⟩
          simp [joinsOf, joinOf, isReference, rest, bind, Except.bind]
      | some reference =>
          rcases known attr List.mem_cons_self reference isReference with ⟨target, found⟩
          refine ⟨referenceJoin table attr target :: others, ?_⟩
          simp [joinsOf, joinOf, isReference, findClass_eq_ok_iff.mpr found, rest, bind, Except.bind,
            referenceJoin]

theorem mem_joinOf_iff
    {attr : Attribute}
    {joins : List Join}
    (outcome : joinOf catalog table attr = .ok joins)
    {join : Join} :
    join ∈ joins ↔
      ∃ reference target,
        attr.reference = some reference ∧
        catalog.find? reference.target = some target ∧
        join = referenceJoin table attr target := by
  rw [joinOf] at outcome
  split at outcome
  · next noReference =>
      cases outcome
      simp [noReference]
  · next reference isReference =>
      rcases exists_of_bind_eq_ok outcome with ⟨target, lookup, same⟩
      cases same
      simp [isReference, findClass_eq_ok_iff.mp lookup, referenceJoin]

theorem mem_joinsOf_iff
    {attributes : List Attribute}
    {joins : List Join}
    (outcome : joinsOf catalog table attributes = .ok joins)
    {join : Join} :
    join ∈ joins ↔
      ∃ attr ∈ attributes, ∃ reference target,
        attr.reference = some reference ∧
        catalog.find? reference.target = some target ∧
        join = referenceJoin table attr target := by
  induction attributes generalizing joins with
  | nil =>
      cases outcome
      simp
  | cons attr attributes inductionHypothesis =>
      rw [joinsOf] at outcome
      rcases exists_of_bind_eq_ok outcome with ⟨first, ofFirst, outcome⟩
      rcases exists_of_bind_eq_ok outcome with ⟨others, ofOthers, same⟩
      cases same
      rw [List.mem_append, mem_joinOf_iff ofFirst, inductionHypothesis ofOthers,
        List.exists_mem_cons_iff]

/-- The aliases of joins are names of attributes, in their order. -/
theorem sublist_aliases_joinsOf
    {attributes : List Attribute}
    {joins : List Join}
    (outcome : joinsOf catalog table attributes = .ok joins) :
    (joins.filterMap Join.alias?).Sublist (attributes.map Attribute.name) := by
  induction attributes generalizing joins with
  | nil =>
      cases outcome
      exact List.Sublist.refl _
  | cons attr attributes inductionHypothesis =>
      rw [joinsOf] at outcome
      rcases exists_of_bind_eq_ok outcome with ⟨first, ofFirst, outcome⟩
      rcases exists_of_bind_eq_ok outcome with ⟨others, ofOthers, same⟩
      cases same
      rw [List.filterMap_append, List.map_cons]
      have rest := inductionHypothesis ofOthers
      rw [joinOf] at ofFirst
      split at ofFirst
      · cases ofFirst
        exact rest.cons _
      · rcases exists_of_bind_eq_ok ofFirst with ⟨target, _, same⟩
        cases same
        exact rest.cons_cons _

theorem exists_chainJoins
    {chain : List ObjectClass}
    (known : ∀ member ∈ chain, TargetsKnown catalog member.stored) :
    ∃ joins, chainJoins catalog rootKey chain = .ok joins := by
  induction chain with
  | nil => exact ⟨[], rfl⟩
  | cons member chain inductionHypothesis =>
      rcases inductionHypothesis fun other isOther =>
        known other (List.mem_cons_of_mem _ isOther) with ⟨others, rest⟩
      have ownJoins : ∃ joins, joinsOf catalog member.table member.stored = .ok joins :=
        exists_joinsOf (known member List.mem_cons_self)
      rcases ownJoins with ⟨references, ofMember⟩
      simp [chainJoins, ofMember, rest, bind, Except.bind]

theorem mem_chainJoins_iff
    {chain : List ObjectClass}
    {joins : List Join}
    (outcome : chainJoins catalog rootKey chain = .ok joins)
    {join : Join} :
    join ∈ joins ↔
      ∃ member ∈ chain,
        (member.key ≠ rootKey ∧ join = .table member.table) ∨
        ∃ attr ∈ member.stored, ∃ reference target,
          attr.reference = some reference ∧
          catalog.find? reference.target = some target ∧
          join = referenceJoin member.table attr target := by
  induction chain generalizing joins with
  | nil =>
      cases outcome
      simp
  | cons member chain inductionHypothesis =>
      rw [chainJoins] at outcome
      rcases exists_of_bind_eq_ok outcome with ⟨references, ofMember, outcome⟩
      rcases exists_of_bind_eq_ok outcome with ⟨others, ofOthers, same⟩
      cases same
      rw [List.mem_append, List.mem_append, mem_joinsOf_iff ofMember,
        inductionHypothesis ofOthers, List.exists_mem_cons_iff]
      by_cases isRoot : member.key = rootKey
      · simp [isRoot]
      · simp [isRoot]

theorem sublist_aliases_chainJoins
    {chain : List ObjectClass}
    {joins : List Join}
    (outcome : chainJoins catalog rootKey chain = .ok joins) :
    (joins.filterMap Join.alias?).Sublist
      ((chain.flatMap ObjectClass.attributes).map Attribute.name) := by
  induction chain generalizing joins with
  | nil =>
      cases outcome
      exact List.Sublist.refl _
  | cons member chain inductionHypothesis =>
      rw [chainJoins] at outcome
      rcases exists_of_bind_eq_ok outcome with ⟨references, ofMember, outcome⟩
      rcases exists_of_bind_eq_ok outcome with ⟨others, ofOthers, same⟩
      cases same
      have ofTables :
          (if member.key = rootKey then [] else [Join.table member.table]).filterMap
            Join.alias? = [] := by
        split <;> rfl
      rw [List.filterMap_append, List.filterMap_append, ofTables, List.nil_append,
        List.flatMap_cons, List.map_append]
      apply List.Sublist.append _ (inductionHypothesis ofOthers)
      apply (sublist_aliases_joinsOf ofMember).trans
      exact List.filter_sublist.map _

end Joins

/-! ## Items -/

theorem map_name_itemsOf
    (catalog : Catalog)
    (table : String)
    (attr : Attribute) :
    (itemsOf catalog table attr).map SelectItem.name =
      columnsOfAttribute catalog.columns attr := by
  rw [itemsOf, referenceItems, columnsOfAttribute, List.map_cons]
  cases attr.reference with
  | none => rfl
  | some reference =>
      rw [List.map_map]
      rfl

theorem map_name_chainItems
    (catalog : Catalog)
    (chain : List ObjectClass) :
    (chainItems catalog chain).map SelectItem.name =
      (chain.flatMap ObjectClass.stored).flatMap (columnsOfAttribute catalog.columns) := by
  rw [chainItems, List.map_flatMap, List.flatMap_assoc]
  congr 1
  funext member
  rw [List.map_flatMap]
  congr 1
  funext attr
  exact map_name_itemsOf catalog member.table attr

/-- The item is a column of the row that an object has in the table of a class of the chain. -/
def SelectItem.OfRow (item : SelectItem) (chain : List ObjectClass) : Prop :=
  ∃ member ∈ chain,
    item.source = member.table ∧
    (item.column = "id" ∨ ∃ attr ∈ member.stored, item.column = attr.storageColumn)

/--
The item is a column of the view of the class that an attribute of the chain refers
to, and that view is joined under the name of the attribute.
-/
def SelectItem.OfReference (item : SelectItem) (catalog : Catalog) (chain : List ObjectClass)
    (joins : List Join) : Prop :=
  ∃ member ∈ chain, ∃ attr ∈ member.stored, ∃ reference target,
    item.source = attr.name ∧
    attr.reference = some reference ∧
    catalog.find? reference.target = some target ∧
    referenceJoin member.table attr target ∈ joins ∧
    item.column ∈ catalog.viewColumns reference.target

/-- What a class shows is stored in its row or comes through one of its references. -/
theorem ofRow_or_ofReference_of_mem_chainItems
    {catalog : Catalog}
    {rootKey : String}
    {chain : List ObjectClass}
    {joins : List Join}
    (known : ∀ member ∈ chain, TargetsKnown catalog member.stored)
    (outcome : chainJoins catalog rootKey chain = .ok joins)
    {item : SelectItem}
    (isItem : item ∈ chainItems catalog chain) :
    item.OfRow chain ∨ item.OfReference catalog chain joins := by
  rcases List.mem_flatMap.mp isItem with ⟨member, inChain, ofMember⟩
  rcases List.mem_flatMap.mp ofMember with ⟨attr, isStored, ofAttribute⟩
  rcases List.mem_cons.mp ofAttribute with rfl | ofReference
  · exact .inl ⟨member, inChain, rfl, .inr ⟨attr, isStored, rfl⟩⟩
  · right
    rw [referenceItems] at ofReference
    split at ofReference
    · cases ofReference
    · next reference isReference =>
        rcases List.mem_map.mp ofReference with ⟨column, isColumn, rfl⟩
        rcases known member inChain attr isStored reference isReference with ⟨target, found⟩
        refine ⟨member, inChain, attr, isStored, reference, target, rfl, isReference, found, ?_,
          (List.mem_filter.mp isColumn).1⟩
        rw [mem_chainJoins_iff outcome]
        exact ⟨member, inChain, .inr ⟨attr, isStored, reference, target, isReference, found, rfl⟩⟩

/-! ## The view of a class -/

namespace ClassSetting

variable
    {declared : List ObjectClass}
    {catalog : Catalog}
    {setting : ClassSetting}
    {key : String}

/-- The classes that a chain refers to are classes of the catalog. -/
theorem targetsKnown_of_mem_chain
    (resolvedCatalog : ResolvedCatalog declared catalog)
    {member : ObjectClass}
    (inChain : member ∈ catalog.chain key) :
    TargetsKnown catalog member.stored := by
  intro attr isStored reference isReference
  exact resolvedCatalog.exists_target (resolvedCatalog.find?_of_mem_chain inChain)
    (List.mem_filter.mp isStored).1 isReference

/-- Views are joined under different names, which are those of attributes of the chain. -/
theorem nodup_aliases
    (resolvedCatalog : ResolvedCatalog declared catalog)
    {objectClass : ObjectClass}
    (found : catalog.find? key = some objectClass)
    {rootKey : String}
    {joins : List Join}
    (outcome : chainJoins catalog rootKey (catalog.chain key) = .ok joins) :
    (joins.filterMap Join.alias?).Nodup := by
  apply (sublist_aliases_chainJoins outcome).nodup
  have sameNames :
      (((catalog.chain key).flatMap ObjectClass.attributes).map Attribute.name).Perm
        ((attributesOn catalog key).map Attribute.name) :=
    ((List.reverse_perm _).symm.flatMap_right _).map _
  rw [sameNames.nodup_iff, attributesOn, reverse_chain found]
  apply resolvedCatalog.nodup_names_ancestry (Nat.le_refl _)
  rw [(findClass?_eq_some found).2]
  exact found

end ClassSetting

/--
The view of a class and the catalog agree on the columns of the view.

In a catalog of classes that do not need themselves every class has a view.  The
names of its items are the columns that the catalog has for the view, in the same
order.  Each item is read from the row of a class of the chain, or it is a column
of the view of the class that an attribute refers to, which is joined under the name
of the attribute; no two views are joined under one name.
-/
theorem columnNames_view
    {declared : List ObjectClass}
    {catalog : Catalog}
    (built : Catalog.build declared = .ok catalog)
    (selfFree : ∀ objectClass ∈ declared, SelfFree objectClass)
    {config : Config}
    {key : String}
    {setting : ClassSetting}
    (isSetting : ClassSetting.ofKey config catalog key = .ok setting) :
    ∃ view,
      setting.view = .ok view ∧
      view.columnNames = catalog.viewColumns key ∧
      (view.joins.filterMap Join.alias?).Nodup ∧
      ∀ item ∈ view.items, item.OfRow setting.chain ∨
        item.OfReference catalog setting.chain view.joins := by
  have settledCatalog := settled_of_build selfFree built
  have resolvedCatalog := settledCatalog.toResolvedCatalog
  rcases ClassSetting.ofKey_eq_ok isSetting with ⟨rfl, sameChain, found⟩
  have known : ∀ member ∈ setting.catalog.chain key,
      TargetsKnown setting.catalog member.stored :=
    fun member => ClassSetting.targetsKnown_of_mem_chain resolvedCatalog
  have hasJoins : ∃ joins,
      chainJoins setting.catalog setting.root.key (setting.catalog.chain key) = .ok joins :=
    exists_chainJoins known
  rcases hasJoins with ⟨joins, outcome⟩
  refine ⟨_, by rw [ClassSetting.view, sameChain, outcome]; rfl, ?_, ?_, ?_⟩
  · rw [View.columnNames, List.map_cons, map_name_chainItems,
      settledCatalog.viewColumns_eq found, flattenColumns, Catalog.chain, found]
  · exact ClassSetting.nodup_aliases resolvedCatalog found outcome
  · intro item isItem
    rcases List.mem_cons.mp isItem with rfl | ofChain
    · rcases resolvedCatalog.exists_root found with ⟨root, isRoot, _, inChain⟩
      rw [sameChain, ClassSetting.root_eq sameChain isRoot]
      exact .inl ⟨root, inChain, rfl, .inl rfl⟩
    · rw [sameChain]
      exact ofRow_or_ofReference_of_mem_chainItems known outcome ofChain

/-- The view of books shows authors and, through them, persons. -/
theorem columnNames_view_on_library :
    ∃ catalog setting view,
      Catalog.build library = .ok catalog ∧
      ClassSetting.ofKey .standard catalog "book" = .ok setting ∧
      setting.view = .ok view ∧
      view.columnNames =
        ["id", "title", "printed", "author__id", "author__person__id", "author__person__name",
          "author__pen"] ∧
      ∀ item ∈ view.items, item.OfRow setting.chain ∨
        item.OfReference catalog setting.chain view.joins := by
  have checked : ((Catalog.build library).toOption.any fun catalog =>
      (ClassSetting.ofKey .standard catalog "book").toOption.any fun _ =>
        catalog.viewColumns "book" ==
          ["id", "title", "printed", "author__id", "author__person__id", "author__person__name",
            "author__pen"]) = true := by
    decide +kernel
  simp only [Option.any_eq_true, toOption_eq_some_iff, beq_iff_eq] at checked
  rcases checked with ⟨catalog, built, setting, isSetting, columns⟩
  rcases columnNames_view built
      (fun objectClass isDeclared => (wellDeclared_library objectClass isDeclared).selfFree)
      isSetting with
    ⟨view, isView, names, _, items⟩
  exact ⟨catalog, setting, view, built, isSetting, isView, names.trans columns, items⟩

end ClassStore.Schema
