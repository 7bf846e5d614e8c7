import Mathlib.Data.List.Infix
import Mathlib.Data.List.Nodup
import ClassStore.Proofs.Catalog.Visibility

/-!
# Segments of columns

The columns of a view are joined of the names along a path of references, with two
lines between them.  A name can be read back from the front of a joined column if it
has no such separator inside and no line at its end, `eq_of_beginsWith`.  So the
columns that different attributes add to a view are different, and the columns that
one reference adds are as different as those of the view that it refers to:
`nodup_viewColumns`.
-/

namespace ClassStore.Catalog

/-! ## Names that can be read back -/

/-- The name is told from the number of an object and from what is joined behind it. -/
structure IsSegment (name : String) : Prop where
  ordinary : name ≠ "id"
  unseparated : ¬ ['_', '_'] <:+: name.toList
  closed : ¬ ['_'] <:+ name.toList

instance (name : String) : Decidable (IsSegment name) :=
  decidable_of_iff
    (name ≠ "id" ∧ ¬ ['_', '_'] <:+: name.toList ∧ ¬ ['_'] <:+ name.toList)
    ⟨fun ⟨ordinary, unseparated, closed⟩ => ⟨ordinary, unseparated, closed⟩,
      fun isSegment => ⟨isSegment.ordinary, isSegment.unseparated, isSegment.closed⟩⟩

/-- The column is the name or what is joined behind it. -/
def BeginsWith (column name : String) : Prop :=
  column = name ∨ ∃ inner, column = name ++ "__" ++ inner

namespace IsSegment

variable
    {first second : String}

/-- Behind one name, the rest of another one cannot reach into the separator. -/
theorem eq_nil_of_separated
    (isSegment : IsSegment second)
    {front rest back inner : List Char}
    (isName : second.toList = front ++ rest)
    (separated : '_' :: '_' :: inner = rest ++ '_' :: '_' :: back) :
    rest = [] := by
  match rest with
  | [] => rfl
  | [line] =>
      injection separated with isLine _
      rw [← isLine] at isName
      exact absurd ⟨front, isName.symm⟩ isSegment.closed
  | line :: other :: rest =>
      injection separated with isLine separated
      injection separated with isOther _
      rw [← isLine, ← isOther] at isName
      exact absurd ⟨front, rest, by rw [isName]; simp⟩ isSegment.unseparated

theorem eq_of_joined_eq
    (firstSegment : IsSegment first)
    (secondSegment : IsSegment second)
    {front back : String}
    (same : first ++ "__" ++ front = second ++ "__" ++ back) :
    first = second := by
  have characters : first.toList ++ '_' :: '_' :: front.toList =
      second.toList ++ '_' :: '_' :: back.toList := by
    simpa using congrArg String.toList same
  apply String.toList_inj.mp
  rcases List.append_eq_append_iff.mp characters with
    ⟨rest, isName, separated⟩ | ⟨rest, isName, separated⟩
  · rw [isName, secondSegment.eq_nil_of_separated isName separated, List.append_nil]
  · rw [isName, firstSegment.eq_nil_of_separated isName separated, List.append_nil]

theorem ne_joined
    (isSegment : IsSegment first)
    (inner : String) :
    first ≠ second ++ "__" ++ inner := by
  rintro rfl
  exact isSegment.unseparated ⟨second.toList, inner.toList, by simp⟩

/-- A column begins with one name only. -/
theorem eq_of_beginsWith
    (firstSegment : IsSegment first)
    (secondSegment : IsSegment second)
    {column : String}
    (beginsFirst : BeginsWith column first)
    (beginsSecond : BeginsWith column second) :
    first = second := by
  rcases beginsFirst with rfl | ⟨front, rfl⟩ <;> rcases beginsSecond with same | ⟨back, same⟩
  · exact same
  · exact absurd same (firstSegment.ne_joined back)
  · exact absurd same.symm (secondSegment.ne_joined front)
  · exact firstSegment.eq_of_joined_eq secondSegment same

theorem not_beginsWith_id
    (isSegment : IsSegment first) :
    ¬ BeginsWith "id" first := by
  rintro (same | ⟨inner, same⟩)
  · exact isSegment.ordinary same.symm
  · exact WellNamed.joined_ne_id first inner same.symm

end IsSegment

/-! ## Columns of one attribute -/

section

variable
    {catalog : Catalog}
    {attr : Attribute}
    (isOpen : attr.viewColumn = attr.openColumn)

include isOpen

theorem beginsWith_of_mem_columnsOfAttribute
    {column : String}
    (ofAttribute : column ∈ columnsOfAttribute catalog.columns attr) :
    BeginsWith column attr.name := by
  rcases mem_columnsOfAttribute_iff.mp ofAttribute with rfl | ⟨_, inner, _, _, _, rfl⟩
  · rw [isOpen, Attribute.openColumn]
    split
    · exact Or.inr ⟨"id", by rw [String.append_assoc]; rfl⟩
    · exact Or.inl rfl
  · exact Or.inr ⟨inner, rfl⟩

/-- The columns of a reference are as distinct as those of the view that it refers to. -/
theorem nodup_columnsOfAttribute
    (distinct :
      ∀ reference, attr.reference = some reference →
        (catalog.viewColumns reference.target).Nodup) :
    (columnsOfAttribute catalog.columns attr).Nodup := by
  cases isReference : attr.reference with
  | none => simp [columnsOfAttribute, isReference]
  | some reference =>
      have ofNumber : attr.viewColumn = attr.name ++ "__" ++ "id" := by
        rw [isOpen, Attribute.openColumn, isReference, String.append_assoc]
        rfl
      have joined : columnsOfAttribute catalog.columns attr =
          ("id" :: (catalog.viewColumns reference.target).filter (· != "id")).map
            fun column => attr.name ++ "__" ++ column := by
        rw [List.map_cons, ← ofNumber, columnsOfAttribute, isReference]
        rfl
      have apart : ("id" :: (catalog.viewColumns reference.target).filter (· != "id")).Nodup := by
        exact List.nodup_cons.mpr ⟨by simp, (distinct reference isReference).filter _⟩
      rw [joined]
      apply List.Nodup.map _ apart
      intro column other same
      exact (String.append_right_inj _).mp same

end

/-! ## Columns of a view -/

/-- A class as builders declare it, not in need of itself, with names that can be read back. -/
structure Segmented (objectClass : ObjectClass) : Prop where
  selfFree : SelfFree objectClass
  unresolved :
    ∀ attr ∈ objectClass.attributes, attr.delegatesTo = none ∧ attr.viewColumn = ""
  names : ∀ attr ∈ objectClass.attributes, IsSegment attr.name
  target :
    ∀ target relationship,
      objectClass.identityTarget = some (target, relationship) → IsSegment target

/-- A stored attribute has its open column and a name that can be read back. -/
theorem ResolvedTo.isSegment_of_isStored
    {classes : List ObjectClass}
    {declared resolved : ObjectClass}
    (resolvedTo : ResolvedTo classes declared resolved)
    (segmented : Segmented declared)
    {attr : Attribute}
    (isStored : attr ∈ resolved.stored) :
    attr.viewColumn = attr.openColumn ∧ IsSegment attr.name := by
  have searchable := Attribute.isSearchable_of_isStored (List.mem_filter.mp isStored).2
  rcases resolvedTo.cases_stored isStored with
    ⟨target, relationship, isTarget, rfl⟩ | ⟨original, isDeclared, rfl⟩
  · rw [Attribute.name_complete]
    exact ⟨(Attribute.complete_of_unresolved ⟨rfl, rfl⟩ _ searchable).2,
      segmented.target target relationship isTarget⟩
  · rw [Attribute.name_complete]
    exact ⟨(Attribute.complete_of_unresolved (segmented.unresolved original isDeclared) _
      searchable).2, segmented.names original isDeclared⟩

theorem ResolvedCatalog.nodup_storedNames
    {declared : List ObjectClass}
    {catalog : Catalog}
    (resolvedCatalog : ResolvedCatalog declared catalog)
    (key : String) :
    (((catalog.chain key).flatMap ObjectClass.stored).map Attribute.name).Nodup := by
  have areStored : (catalog.chain key).flatMap ObjectClass.stored =
      (chainAttributes catalog key).filter Attribute.isStored := by
    rw [chainAttributes, List.filter_flatMap]
    rfl
  rw [areStored]
  exact (List.filter_sublist.map _).nodup (resolvedCatalog.nodup_chainAttributes key)

/-- Attributes with different names that can be read back add different columns to a view. -/
theorem nodup_flatMap_columnsOfAttribute
    {catalog : Catalog}
    {attributes : List Attribute}
    (names : (attributes.map Attribute.name).Nodup)
    (segments : ∀ attr ∈ attributes, attr.viewColumn = attr.openColumn ∧ IsSegment attr.name)
    (distinct :
      ∀ attr ∈ attributes, ∀ reference, attr.reference = some reference →
        (catalog.viewColumns reference.target).Nodup) :
    ("id" :: attributes.flatMap (columnsOfAttribute catalog.columns)).Nodup := by
  rw [List.nodup_cons, List.nodup_flatMap]
  refine ⟨?_, ?_, ?_⟩
  · intro isColumn
    rcases List.mem_flatMap.mp isColumn with ⟨attr, isAttribute, ofAttribute⟩
    rcases segments attr isAttribute with ⟨isOpen, isSegment⟩
    exact isSegment.not_beginsWith_id (beginsWith_of_mem_columnsOfAttribute isOpen ofAttribute)
  · intro attr isAttribute
    exact nodup_columnsOfAttribute (segments attr isAttribute).1 (distinct attr isAttribute)
  · apply (List.pairwise_map.mp names).imp_of_mem
    intro first second isFirst isSecond different
    rcases segments first isFirst with ⟨firstOpen, firstSegment⟩
    rcases segments second isSecond with ⟨secondOpen, secondSegment⟩
    apply List.disjoint_left.mpr
    intro column ofFirst ofSecond
    exact different (firstSegment.eq_of_beginsWith secondSegment
      (beginsWith_of_mem_columnsOfAttribute firstOpen ofFirst)
      (beginsWith_of_mem_columnsOfAttribute secondOpen ofSecond))

/--
The columns of every view are distinct.

The names of the attributes along a chain are distinct in every catalog.  Where they
can be read back from the columns, so are the columns that they add, the number is
none of them, and what holds of the views that a class refers to is true of its own.
A column that is chosen for a table has no influence on this.
-/
theorem nodup_viewColumns
    {declared : List ObjectClass}
    {catalog : Catalog}
    (built : Catalog.build declared = .ok catalog)
    (segmented : ∀ objectClass ∈ declared, Segmented objectClass)
    (key : String) :
    (catalog.viewColumns key).Nodup := by
  have settledCatalog := settled_of_build
    (fun objectClass isDeclared => (segmented objectClass isDeclared).selfFree) built
  apply settledCatalog.induction_references (motive := fun key =>
    (catalog.viewColumns key).Nodup)
  intro key referenced
  cases found : catalog.find? key with
  | none =>
      rw [settledCatalog.viewColumns_eq_nil_of_unknown found]
      exact List.nodup_nil
  | some objectClass =>
      have isChain : chainOf catalog.classes objectClass = catalog.chain key := by
        rw [chain, found]
      rw [settledCatalog.viewColumns_eq found, flattenColumns, isChain]
      apply nodup_flatMap_columnsOfAttribute (settledCatalog.nodup_storedNames key)
      · intro attr isAttribute
        rcases List.mem_flatMap.mp isAttribute with ⟨member, inChain, isStored⟩
        rcases settledCatalog.exists_settled (settledCatalog.find?_of_mem_chain inChain) with
          ⟨declaration, isDeclared, settled⟩
        exact settled.resolvedTo.isSegment_of_isStored
          (segmented declaration (findClass?_eq_some isDeclared).1) isStored
      · intro attr isAttribute
        rcases List.mem_flatMap.mp isAttribute with ⟨member, inChain, isStored⟩
        rcases List.mem_filter.mp isStored with ⟨ofMember, stored⟩
        exact referenced member inChain attr ofMember stored

theorem segmented_library :
    ∀ objectClass ∈ library, Segmented objectClass := by
  have names :
      ∀ objectClass ∈ library, ∀ attr ∈ objectClass.attributes, IsSegment attr.name := by
    decide +kernel
  have targets :
      ∀ objectClass ∈ library, ∀ identity ∈ objectClass.identityTarget,
        IsSegment identity.1 := by
    decide +kernel
  intro objectClass isDeclared
  have wellDeclared := wellDeclared_library objectClass isDeclared
  exact ⟨wellDeclared.selfFree, wellDeclared.unresolved, names objectClass isDeclared,
    fun target relationship isTarget => targets objectClass isDeclared _ isTarget⟩

/-- A book shows its author, and of the author's person the number and the name, once each. -/
theorem columns_of_book_distinct :
    ∃ catalog,
      Catalog.build library = .ok catalog ∧
      (catalog.viewColumns "book").Nodup ∧
      catalog.viewColumns "book" =
        ["id", "title", "printed", "author__id", "author__person__id", "author__person__name",
          "author__pen"] := by
  rcases exists_wellNamed_library with ⟨catalog, built, _, columns⟩
  exact ⟨catalog, built, nodup_viewColumns built segmented_library "book", columns⟩

/-- Loans refer to a book, whose title they note under a name with a separator inside. -/
def loans : List ObjectClass :=
  [{ ObjectClass.declare "book" with
      attributes := [Attribute.declare "title" .string] },
    { ObjectClass.declare "loan" with
      attributes :=
        [(Attribute.declare "book" .whole).referringTo "book" .restrict,
          Attribute.declare "book__title" .string] }]

/-- A name with a separator inside is accepted, and its column is shown twice. -/
theorem exists_repeated_viewColumns :
    ∃ catalog,
      Catalog.build loans = .ok catalog ∧
      catalog.viewColumns "loan" = ["id", "book__id", "book__title", "book__title"] := by
  have checked : ((Catalog.build loans).toOption.any fun catalog =>
      catalog.viewColumns "loan" == ["id", "book__id", "book__title", "book__title"]) = true := by
    decide +kernel
  simpa only [Option.any_eq_true, toOption_eq_some_iff, beq_iff_eq] using checked

end ClassStore.Catalog
