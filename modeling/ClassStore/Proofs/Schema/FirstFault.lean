import ClassStore.Proofs.Catalog.Acyclic
import ClassStore.Proofs.Catalog.DefaultNames
import ClassStore.Proofs.Schema.ViewItems
import ClassStore.Proofs.Schema.Writes
import ClassStore.Schema.Script

/-!
# What keeps a schema from being generated

A schema is generated in many steps, and each of them may fail.  In a catalog that
was built every class that is named exists, so only two steps can really fail: a
default that is not a value of its type is refused, and a type that is not known
has no column.  `HasFault` says with which error a step ends, if it fails at all;
a sequence of steps ends with the first error.  The defaults of a class are tested
before its columns are made, and the classes are taken in their order.
-/

namespace ClassStore.Catalog

/-- Every junction table that is declared belongs to an attribute that refers to a class. -/
def NamesMembers (objectClass : ObjectClass) : Prop :=
  ∀ attr ∈ objectClass.attributes, attr.junction.isSome → attr.reference.isSome

instance (objectClass : ObjectClass) : Decidable (NamesMembers objectClass) := by
  unfold NamesMembers
  infer_instance

namespace Attribute

theorem reference_fixUuid (attr : Attribute) : attr.fixUuid.reference = attr.reference := by
  rw [fixUuid]
  split <;> rfl

/-- No junction table is chosen for an attribute that refers to no class. -/
theorem junction_complete_of_noReference
    {attr : Attribute}
    (noReference : attr.reference = none)
    (owner : String) :
    (attr.complete owner).junction = attr.junction := by
  rw [complete]
  split
  · rfl
  · rw [nameColumns]
    split
    · exact junction_fixUuid attr
    · next isReference =>
        rw [reference_fixUuid, noReference] at isReference
        cases isReference

end Attribute

/-- A collection with a junction table has objects of a class as its members. -/
theorem ResolvedTo.namesMembers
    {classes : List ObjectClass}
    {declared resolved : ObjectClass}
    (resolvedTo : ResolvedTo classes declared resolved)
    (namesMembers : NamesMembers declared) :
    NamesMembers resolved := by
  intro attr isAttribute isJunction
  rcases resolvedTo.cases_attribute isAttribute with
    ⟨target, relationship, _, rfl⟩ | ⟨original, isDeclared, rfl⟩ | isCopy
  · rw [Attribute.reference_complete]
    rfl
  · rw [Attribute.reference_complete]
    cases isReference : original.reference with
    | some reference => rfl
    | none =>
        rw [Attribute.junction_complete_of_noReference isReference] at isJunction
        rw [← isReference]
        exact namesMembers original isDeclared isJunction
  · rcases mem_delegatedCopies isCopy with ⟨_, _, _, _, _, _, _, _, _, _, rfl⟩
    cases isJunction

end ClassStore.Catalog

namespace ClassStore.Schema

open ClassStore.Catalog

/-! ## Steps and their faults -/

/-- The step fails with the error if there is one, and succeeds if there is none. -/
def HasFault {Output : Type} (fault? : Option SchemaError) (step : Except SchemaError Output) :
    Prop :=
  match fault? with
  | some error => step = .error error
  | none => ∃ output, step = .ok output

section Steps

variable
    {Input Output : Type}
    {fault? other? : Option SchemaError}

theorem HasFault.ok (output : Output) : HasFault none (.ok output : Except SchemaError Output) :=
  ⟨output, rfl⟩

/-- Of two steps the first that fails says why. -/
theorem HasFault.bind
    {first : Except SchemaError Input}
    {following : Input → Except SchemaError Output}
    (hasFault : HasFault fault? first)
    (others : ∀ input, first = .ok input → HasFault other? (following input)) :
    HasFault (fault?.or other?) (first >>= following) := by
  cases fault? with
  | some error =>
      rw [hasFault]
      rfl
  | none =>
      rcases hasFault with ⟨input, outcome⟩
      have rest := others input outcome
      rw [outcome]
      exact rest

/-- A step that succeeds leaves the fault to what follows. -/
theorem HasFault.after
    {first : Except SchemaError Input}
    {following : Input → Except SchemaError Output}
    (succeeds : ∃ input, first = .ok input)
    (others : ∀ input, first = .ok input → HasFault fault? (following input)) :
    HasFault fault? (first >>= following) := by
  have faultless : HasFault none first := succeeds
  exact faultless.bind others

/-- A step keeps its fault in front of what succeeds. -/
theorem HasFault.before
    {first : Except SchemaError Input}
    {following : Input → Except SchemaError Output}
    (hasFault : HasFault fault? first)
    (succeeds : ∀ input, ∃ output, following input = .ok output) :
    HasFault fault? (first >>= following) := by
  have whole : HasFault (fault?.or none) (first >>= following) :=
    hasFault.bind fun input _ => succeeds input
  rwa [Option.or_none] at whole

theorem HasFault.eq_error_iff
    {step : Except SchemaError Output}
    (hasFault : HasFault fault? step)
    {error : SchemaError} :
    step = .error error ↔ fault? = some error := by
  cases fault? with
  | some other =>
      rw [hasFault]
      simp
  | none =>
      rcases hasFault with ⟨output, outcome⟩
      rw [outcome]
      simp

theorem HasFault.exists_ok_iff
    {step : Except SchemaError Output}
    (hasFault : HasFault fault? step) :
    (∃ output, step = .ok output) ↔ fault? = none := by
  cases fault? with
  | some other =>
      rw [hasFault]
      simp
  | none => exact ⟨fun _ => rfl, fun _ => hasFault⟩

end Steps

/-- What is found first is found in the first item, or else in those behind it. -/
theorem findSome?_cons_eq_or
    {Item Found : Type}
    (find? : Item → Option Found)
    (item : Item)
    (items : List Item) :
    (item :: items).findSome? find? = (find? item).or (items.findSome? find?) := by
  rw [List.findSome?_cons]
  cases find? item <;> rfl

/-! ## Faults of attributes -/

/-- Why the default of an attribute is refused, if it is. -/
def defaultError? (key : String) (attr : Attribute) : Option SchemaError :=
  attr.initial.bind fun value =>
    match validateDefault key attr value with
    | .ok _ => none
    | .error error => some error

/-- Why an attribute has no column, if it has none. -/
def typeError? (key : String) (attr : Attribute) : Option SchemaError :=
  if attr.type.isUnknown then some (.unmappedType key attr.name attr.type) else none

/-- What is reported of a class: the first refused default, or else the first unknown type. -/
def classError? (objectClass : ObjectClass) : Option SchemaError :=
  (objectClass.storedValues.findSome? (defaultError? objectClass.key)).or
    (objectClass.storedValues.findSome? (typeError? objectClass.key))

/-- Every default that is tested fails with what is wrong with it. -/
theorem hasFault_checkDefaults (setting : ClassSetting) (attributes : List Attribute) :
    HasFault (attributes.findSome? (defaultError? setting.objectClass.key))
      (setting.checkDefaults attributes) := by
  induction attributes with
  | nil => exact .ok ()
  | cons attr attributes inductionHypothesis =>
      rw [List.findSome?_cons, defaultError?, ClassSetting.checkDefaults]
      cases isDefault : attr.initial with
      | none => exact inductionHypothesis
      | some value =>
          rw [Option.bind_some]
          dsimp only
          cases tested : validateDefault setting.objectClass.key attr value with
          | ok _ => exact inductionHypothesis
          | error error => rfl

/-- A type has no column exactly if it is not known, whatever the backend. -/
theorem columnType?_eq_none_iff
    {backend : Backend}
    {type : SemanticType} :
    columnType? backend type = none ↔ type.isUnknown = true := by
  cases backend <;> cases type <;> simp [columnType?, SemanticType.isUnknown]

/-- A reference always has a column, and a value of its own has one if its type is known. -/
theorem hasFault_columnFor (setting : ClassSetting) (attr : Attribute) :
    HasFault
      (if attr.isReference then none else typeError? setting.objectClass.key attr)
      (setting.columnFor attr) := by
  rw [ClassSetting.columnFor, storageType?, typeError?]
  cases attr.isReference with
  | true => exact .ok _
  | false =>
      simp only [Bool.false_eq_true, if_false]
      cases mapped : columnType? setting.backend attr.type with
      | none =>
          rw [if_pos (columnType?_eq_none_iff.mp mapped)]
          rfl
      | some type =>
          have known : ¬attr.type.isUnknown = true := fun isUnknown => by
            rw [columnType?_eq_none_iff.mpr isUnknown] at mapped
            cases mapped
          rw [if_neg known]
          exact .ok _

/-- Columns are made up to the first attribute that has none. -/
theorem hasFault_columnsFor (setting : ClassSetting) (attributes : List Attribute) :
    HasFault
      ((attributes.filter fun attr => !attr.isReference).findSome?
        (typeError? setting.objectClass.key))
      (setting.columnsFor attributes) := by
  induction attributes with
  | nil => exact .ok []
  | cons attr attributes inductionHypothesis =>
      have split :
          ((attr :: attributes).filter fun attr => !attr.isReference).findSome?
              (typeError? setting.objectClass.key) =
            (if attr.isReference then none else typeError? setting.objectClass.key attr).or
              ((attributes.filter fun attr => !attr.isReference).findSome?
                (typeError? setting.objectClass.key)) := by
        cases isReference : attr.isReference with
        | true => simp [isReference]
        | false =>
            rw [List.filter_cons_of_pos (by simp [isReference]), findSome?_cons_eq_or]
            rfl
      rw [split, ClassSetting.columnsFor]
      apply (hasFault_columnFor setting attr).bind
      exact fun column _ => inductionHypothesis.before fun columns => ⟨_, rfl⟩

/-! ## Steps that succeed -/

namespace ClassSetting

variable
    {declared : List ObjectClass}
    {setting : ClassSetting}

theorem exists_referenceKeys
    {attributes : List Attribute}
    (known : TargetsKnown setting.catalog attributes) :
    ∃ keys, setting.referenceKeys attributes = .ok keys := by
  induction attributes with
  | nil => exact ⟨[], rfl⟩
  | cons attr attributes inductionHypothesis =>
      rw [TargetsKnown, List.forall_mem_cons] at known
      rcases inductionHypothesis known.2 with ⟨others, rest⟩
      rw [referenceKeys]
      cases isReference : attr.reference with
      | none => exact ⟨others, rest⟩
      | some reference =>
          rcases known.1 reference isReference with ⟨target, found⟩
          simp [findClass_eq_ok_iff.mpr found, rest, bind, Except.bind]

/-- Collections whose junction tables have members are all made. -/
theorem exists_memberships
    {attributes : List Attribute}
    (known : TargetsKnown setting.catalog attributes)
    (members : ∀ attr ∈ attributes, attr.junction.isSome → attr.reference.isSome) :
    ∃ memberships, setting.memberships attributes = .ok memberships := by
  induction attributes with
  | nil => exact ⟨[], rfl⟩
  | cons attr attributes inductionHypothesis =>
      rw [TargetsKnown, List.forall_mem_cons] at known
      rw [List.forall_mem_cons] at members
      rcases inductionHypothesis known.2 members.2 with ⟨others, rest⟩
      rw [ClassSetting.memberships]
      cases isJunction : attr.junction with
      | none => exact ⟨others, rest⟩
      | some junction =>
          rcases Option.isSome_iff_exists.mp (members.1 (by rw [isJunction]; rfl)) with
            ⟨reference, isReference⟩
          rcases known.1 reference isReference with ⟨member, found⟩
          have isMember : setting.memberClass attr = .ok member := by
            rw [memberClass, isReference]
            exact findClass_eq_ok_iff.mpr found
          simp [isMember, rest, bind, Except.bind]

section Resolved

variable
    (resolvedCatalog : ResolvedCatalog declared setting.catalog)

include resolvedCatalog

theorem exists_view
    (sameChain : setting.chain = setting.catalog.chain setting.objectClass.key) :
    ∃ view, setting.view = .ok view := by
  have known : ∀ member ∈ setting.chain, TargetsKnown setting.catalog member.stored := by
    rw [sameChain]
    exact fun member => targetsKnown_of_mem_chain resolvedCatalog
  have hasJoins : ∃ joins,
      chainJoins setting.catalog setting.root.key setting.chain = .ok joins :=
    exists_chainJoins known
  rcases hasJoins with ⟨joins, outcome⟩
  exact ⟨_, by rw [ClassSetting.view, outcome]; rfl⟩

variable
    (found : setting.catalog.find? setting.objectClass.key = some setting.objectClass)

include found

theorem exists_parentKeys :
    ∃ keys, setting.parentKeys = .ok keys := by
  rw [parentKeys]
  cases isParent : setting.objectClass.parent with
  | none => exact ⟨[], rfl⟩
  | some parent =>
      rcases resolvedCatalog.exists_settled found with ⟨original, isDeclared, settled⟩
      rw [settled.resolvedTo.parent] at isParent
      have known := resolvedCatalog.known original (findClass?_eq_some isDeclared).1 parent
        (original.within_dependencies.parent parent isParent)
      rcases Option.isSome_iff_exists.mp (resolvedCatalog.known_iff.mpr known) with
        ⟨target, foundParent⟩
      simp [findClass_eq_ok_iff.mpr foundParent, bind, Except.bind]

theorem exists_writes :
    (∃ inserts, setting.inserts = .ok inserts) ∧ ∃ update, setting.updates = .ok update := by
  cases isLink : setting.objectClass.link? with
  | none =>
      rcases updates_of_noLink isLink with ⟨update, isUpdate, _⟩
      exact ⟨⟨_, inserts_of_noLink isLink⟩, update, isUpdate⟩
  | some link =>
      rcases resolvedCatalog.exists_linksTo found isLink with ⟨target, _, linksTo⟩
      rcases updates_of_linksTo isLink linksTo with ⟨update, isUpdate, _⟩
      exact ⟨⟨_, inserts_of_linksTo isLink linksTo⟩, update, isUpdate⟩

/-- Only a default or a type keeps a class from having a schema. -/
theorem hasFault_schema
    (sameChain : setting.chain = setting.catalog.chain setting.objectClass.key)
    (namesMembers : NamesMembers setting.objectClass) :
    HasFault (classError? setting.objectClass) setting.schema := by
  have known : TargetsKnown setting.catalog setting.objectClass.attributes :=
    fun attr isAttribute reference => resolvedCatalog.exists_target found isAttribute
  have writes := exists_writes resolvedCatalog found
  apply (hasFault_checkDefaults setting setting.objectClass.storedValues).bind
  intro _ _
  have table : HasFault
      (setting.objectClass.storedValues.findSome? (typeError? setting.objectClass.key))
      setting.table :=
    (hasFault_columnsFor setting setting.objectClass.stored).before fun _ => ⟨_, rfl⟩
  rw [← Option.or_none (o := List.findSome? _ _)]
  apply table.bind
  intro _ _
  apply HasFault.after (exists_parentKeys resolvedCatalog found)
  intro _ _
  apply HasFault.after (exists_referenceKeys fun attr isStored =>
    known attr (List.mem_filter.mp isStored).1)
  intro _ _
  apply HasFault.after (exists_memberships
    (fun attr isCollection => known attr (List.mem_filter.mp isCollection).1)
    (fun attr isCollection => namesMembers attr (List.mem_filter.mp isCollection).1))
  intro _ _
  apply HasFault.after (exists_view resolvedCatalog sameChain)
  intro _ _
  apply HasFault.after writes.1
  intro _ _
  apply HasFault.after writes.2
  exact fun _ _ => .ok _

end Resolved

end ClassSetting

/-! ## The first fault -/

/-- The default of the attribute is a value of its type, if it has one. -/
def AcceptsDefault (key : String) (attr : Attribute) : Prop :=
  ∀ value, attr.initial = some value → validateDefault key attr value = .ok ()

/-- The type of the attribute is known, and its default is a value of that type. -/
structure Fits (key : String) (attr : Attribute) : Prop where
  type : attr.type.isUnknown = false
  default : AcceptsDefault key attr

/-- The attributes of the class that are stored and hold values of their own fit. -/
def AttributesFit (objectClass : ObjectClass) : Prop :=
  ∀ attr ∈ objectClass.storedValues, Fits objectClass.key attr

/--
What is reported of a class.

The first default that is refused goes before the first type that is not known, and
only attributes that are stored and hold values of their own are looked at.
-/
inductive Reports (objectClass : ObjectClass) : SchemaError → Prop where
  | invalidDefault {front back : List Attribute} {attr : Attribute} {value : String}
      {fault : DefaultFault}
      (split : objectClass.storedValues = front ++ attr :: back)
      (accepted : ∀ earlier ∈ front, AcceptsDefault objectClass.key earlier)
      (declared : attr.initial = some value)
      (refused : validateDefault objectClass.key attr value =
        .error (.invalidDefault objectClass.key attr.name value fault)) :
      Reports objectClass (.invalidDefault objectClass.key attr.name value fault)
  | unmappedType {front back : List Attribute} {attr : Attribute}
      (accepted : ∀ other ∈ objectClass.storedValues, AcceptsDefault objectClass.key other)
      (split : objectClass.storedValues = front ++ attr :: back)
      (known : ∀ earlier ∈ front, earlier.type.isUnknown = false)
      (unknown : attr.type.isUnknown = true) :
      Reports objectClass (.unmappedType objectClass.key attr.name attr.type)

theorem exists_fault_of_validateDefault
    {key value : String}
    {attr : Attribute}
    {error : SchemaError}
    (refused : validateDefault key attr value = .error error) :
    ∃ fault, error = .invalidDefault key attr.name value fault := by
  rw [validateDefault] at refused
  split at refused
  · cases refused
  · next fault _ =>
      cases refused
      exact ⟨fault, rfl⟩

section Attributes

variable
    {key : String}
    {attr : Attribute}

theorem defaultError?_eq_none_iff :
    defaultError? key attr = none ↔ AcceptsDefault key attr := by
  rw [defaultError?, AcceptsDefault]
  cases attr.initial with
  | none => simp
  | some value =>
      cases tested : validateDefault key attr value <;> simp [tested]

theorem defaultError?_eq_some_iff
    {error : SchemaError} :
    defaultError? key attr = some error ↔
      ∃ value, attr.initial = some value ∧ validateDefault key attr value = .error error := by
  rw [defaultError?]
  cases attr.initial with
  | none => simp
  | some value =>
      cases tested : validateDefault key attr value <;> simp [tested]

theorem typeError?_eq_none_iff :
    typeError? key attr = none ↔ attr.type.isUnknown = false := by
  rw [typeError?]
  split <;> simp_all

theorem typeError?_eq_some_iff
    {error : SchemaError} :
    typeError? key attr = some error ↔
      attr.type.isUnknown = true ∧ error = .unmappedType key attr.name attr.type := by
  rw [typeError?]
  split
  · next unknown => simp [unknown, eq_comm (a := error)]
  · next known => simp [known]

end Attributes

theorem classError?_eq_none_iff
    {objectClass : ObjectClass} :
    classError? objectClass = none ↔ AttributesFit objectClass := by
  rw [classError?, Option.or_eq_none_iff, List.findSome?_eq_none_iff,
    List.findSome?_eq_none_iff]
  simp only [defaultError?_eq_none_iff, typeError?_eq_none_iff]
  constructor
  · exact fun ⟨defaults, types⟩ attr isStored => ⟨types attr isStored, defaults attr isStored⟩
  · exact fun fits => ⟨fun attr isStored => (fits attr isStored).default,
      fun attr isStored => (fits attr isStored).type⟩

theorem classError?_eq_some_iff
    {objectClass : ObjectClass}
    {error : SchemaError} :
    classError? objectClass = some error ↔ Reports objectClass error := by
  rw [classError?, Option.or_eq_some_iff, List.findSome?_eq_some_iff,
    List.findSome?_eq_none_iff, List.findSome?_eq_some_iff]
  simp only [defaultError?_eq_some_iff, defaultError?_eq_none_iff, typeError?_eq_some_iff,
    typeError?_eq_none_iff]
  constructor
  · rintro (⟨front, attr, back, split, ⟨value, declared, refused⟩, accepted⟩ |
      ⟨accepted, front, attr, back, split, ⟨unknown, rfl⟩, known⟩)
    · rcases exists_fault_of_validateDefault refused with ⟨fault, rfl⟩
      exact .invalidDefault split accepted declared refused
    · exact .unmappedType accepted split known unknown
  · rintro (⟨split, accepted, declared, refused⟩ | ⟨accepted, split, known, unknown⟩)
    · exact .inl ⟨_, _, _, split, ⟨_, declared, refused⟩, accepted⟩
    · exact .inr ⟨accepted, _, _, _, split, ⟨unknown, rfl⟩, known⟩

/-! ## The schema of a catalog -/

/-- What is reported of the class with the given key. -/
def keyError? (catalog : Catalog) (key : String) : Option SchemaError :=
  (catalog.find? key).bind classError?

section Catalogs

variable
    {declared : List ObjectClass}
    {catalog : Catalog}
    {key : String}
    {objectClass : ObjectClass}

theorem keyError?_eq_none_iff
    (found : catalog.find? key = some objectClass) :
    keyError? catalog key = none ↔ AttributesFit objectClass := by
  rw [keyError?, found, Option.bind_some, classError?_eq_none_iff]

theorem keyError?_eq_some_iff
    (found : catalog.find? key = some objectClass)
    {error : SchemaError} :
    keyError? catalog key = some error ↔ Reports objectClass error := by
  rw [keyError?, found, Option.bind_some, classError?_eq_some_iff]

/-- Every class of a catalog is found by its key. -/
theorem find?_of_mem_classes
    (built : Catalog.build declared = .ok catalog)
    (isClass : objectClass ∈ catalog.classes) :
    catalog.find? objectClass.key = some objectClass := by
  rcases exists_of_bind_eq_ok built with ⟨_, keysChecked, _⟩
  apply find?_eq_some_of_mem ObjectClass.key _ isClass
  rw [(resolved_of_build built).resolving.sameKeys]
  exact (nodup_of_checkKeys keysChecked).1

section Resolved

variable
    (resolvedCatalog : ResolvedCatalog declared catalog)

include resolvedCatalog

theorem exists_class_of_mem_order
    (inOrder : key ∈ catalog.order) :
    ∃ objectClass, catalog.find? key = some objectClass :=
  Option.isSome_iff_exists.mp
    (resolvedCatalog.known_iff.mpr (resolvedCatalog.isOrdered.known key inOrder))

variable
    (namesMembers : ∀ objectClass ∈ declared, NamesMembers objectClass)
    (config : Config)

include namesMembers

theorem hasFault_classSchema
    (found : catalog.find? key = some objectClass) :
    HasFault (keyError? catalog key) (classSchema config catalog key) := by
  have isSetting : ClassSetting.ofKey config catalog key =
      .ok ⟨config, catalog, objectClass, catalog.chain key⟩ := by
    rw [ClassSetting.ofKey, findClass_eq_ok_iff.mpr found]
    rfl
  rw [classSchema, isSetting, keyError?, found, Option.bind_some]
  rcases resolvedCatalog.exists_settled found with ⟨original, isDeclared, settled⟩
  have members := settled.resolvedTo.namesMembers
    (namesMembers original (findClass?_eq_some isDeclared).1)
  rcases findClass?_eq_some found with ⟨_, rfl⟩
  let setting : ClassSetting := ⟨config, catalog, objectClass, catalog.chain objectClass.key⟩
  change HasFault (classError? setting.objectClass) setting.schema
  exact ClassSetting.hasFault_schema resolvedCatalog found rfl members

/-- The schemas of classes are made up to the first class of which something is reported. -/
theorem hasFault_classSchemas
    {keys : List String}
    (inOrder : ∀ key ∈ keys, key ∈ catalog.order) :
    HasFault (keys.findSome? (keyError? catalog)) (classSchemas config catalog keys) := by
  induction keys with
  | nil => exact .ok []
  | cons key keys inductionHypothesis =>
      rw [List.forall_mem_cons] at inOrder
      rcases exists_class_of_mem_order resolvedCatalog inOrder.1 with ⟨objectClass, found⟩
      rw [findSome?_cons_eq_or]
      apply (hasFault_classSchema resolvedCatalog namesMembers config found).bind
      exact fun _ _ => (inductionHypothesis inOrder.2).before fun _ => ⟨_, rfl⟩

theorem hasFault_catalogSchema :
    HasFault (catalog.order.findSome? (keyError? catalog)) (catalogSchema config catalog) :=
  hasFault_classSchemas resolvedCatalog namesMembers config fun _ inOrder => inOrder

/-- The class that is reported is the first one of which something is reported. -/
theorem catalogSchema_eq_error_iff
    {error : SchemaError} :
    catalogSchema config catalog = .error error ↔
      ∃ front key back objectClass,
        catalog.order = front ++ key :: back ∧
        catalog.find? key = some objectClass ∧
        Reports objectClass error ∧
        ∀ earlier ∈ front,
          (∃ schema, classSchema config catalog earlier = .ok schema) ∧
          ∀ other, catalog.find? earlier = some other → AttributesFit other := by
  have found {front back : List String} {key other : String}
      (split : catalog.order = front ++ key :: back)
      (among : other ∈ front ++ key :: back) :
      ∃ objectClass, catalog.find? other = some objectClass :=
    exists_class_of_mem_order resolvedCatalog (split ▸ among)
  rw [(hasFault_catalogSchema resolvedCatalog namesMembers config).eq_error_iff,
    List.findSome?_eq_some_iff]
  constructor
  · rintro ⟨front, key, back, split, reported, silent⟩
    rcases found split (List.mem_append_right _ List.mem_cons_self) with ⟨objectClass, isClass⟩
    refine ⟨front, key, back, objectClass, split, isClass,
      (keyError?_eq_some_iff isClass).mp reported, ?_⟩
    intro earlier inFront
    have noError := silent earlier inFront
    constructor
    · rcases found split (List.mem_append_left _ inFront) with ⟨other, isOther⟩
      exact (hasFault_classSchema resolvedCatalog namesMembers config isOther).exists_ok_iff.mpr
        noError
    · exact fun other isOther => (keyError?_eq_none_iff isOther).mp noError
  · rintro ⟨front, key, back, objectClass, split, isClass, reports, fit⟩
    refine ⟨front, key, back, split, (keyError?_eq_some_iff isClass).mpr reports, ?_⟩
    intro earlier inFront
    rcases found split (List.mem_append_left _ inFront) with ⟨other, isOther⟩
    exact (keyError?_eq_none_iff isOther).mpr ((fit earlier inFront).2 other isOther)

end Resolved

end Catalogs

/--
A schema is generated exactly if all attributes fit.

The schema of a catalog is generated for both backends or for neither.  It is
generated exactly if every stored attribute with values of its own has a type that
is known and no default that its type refuses.  Otherwise it fails with what is
reported of the first class in the order of dependencies that has another
attribute, and the classes in front of it have schemas.  No class is ever missed.
-/
theorem schema_fails_at_first
    {declared : List ObjectClass}
    {catalog : Catalog}
    (built : Catalog.build declared = .ok catalog)
    (namesMembers : ∀ objectClass ∈ declared, NamesMembers objectClass) :
    (∀ config, (∃ schemas, catalogSchema config catalog = .ok schemas) ↔
      ∀ objectClass ∈ catalog.classes, AttributesFit objectClass) ∧
    (∀ config error, catalogSchema config catalog = .error error ↔
      ∃ front key back objectClass,
        catalog.order = front ++ key :: back ∧
        catalog.find? key = some objectClass ∧
        Reports objectClass error ∧
        ∀ earlier ∈ front,
          (∃ schema, classSchema config catalog earlier = .ok schema) ∧
          ∀ other, catalog.find? earlier = some other → AttributesFit other) ∧
    (∀ config other error,
      catalogSchema config catalog = .error error → catalogSchema other catalog = .error error) ∧
    ∀ config key objectClass, catalog.find? key = some objectClass →
      ∀ unknown, classSchema config catalog key ≠ .error (.unknownClass unknown) := by
  have resolvedCatalog := resolved_of_build built
  have whole := hasFault_catalogSchema resolvedCatalog namesMembers
  refine ⟨?_, fun config error => catalogSchema_eq_error_iff resolvedCatalog namesMembers config,
    ?_, ?_⟩
  · intro config
    rw [(whole config).exists_ok_iff, List.findSome?_eq_none_iff]
    constructor
    · intro silent objectClass isClass
      have found := find?_of_mem_classes built isClass
      rcases resolvedCatalog.exists_order_eq_append found with ⟨front, back, split⟩
      have inOrder : objectClass.key ∈ catalog.order := by
        rw [split]
        exact List.mem_append_right _ List.mem_cons_self
      exact (keyError?_eq_none_iff found).mp (silent objectClass.key inOrder)
    · intro fit key inOrder
      rcases exists_class_of_mem_order resolvedCatalog inOrder with ⟨objectClass, found⟩
      exact (keyError?_eq_none_iff found).mpr (fit objectClass (findClass?_eq_some found).1)
  · intro config other error fails
    exact (whole other).eq_error_iff.mpr ((whole config).eq_error_iff.mp fails)
  · intro config key objectClass found unknown fails
    have hasFault := hasFault_classSchema resolvedCatalog namesMembers config found
    cases (keyError?_eq_some_iff found).mp (hasFault.eq_error_iff.mp fails)

/-- A sheet has a shape of unknown type and defaults that are refused; posters show sheets. -/
def drawings : List ObjectClass :=
  [{ ObjectClass.declare "poster" with
      attributes :=
        [(Attribute.declare "sheet" .whole).referringTo "sheet" .cascade,
          (Attribute.declare "height" .posint).withInitial "none"] },
    { ObjectClass.standard "sheet" with
      attributes := ObjectClass.standardAttributes ++
        [Attribute.declare "shape" (.unknown "geometry"),
          (Attribute.declare "width" .posint).withInitial "0",
          (Attribute.declare "code" .gtin).withInitial "1"] }]

/-- Of drawings the width of sheets is reported, whatever the backend. -/
theorem width_reported_of_drawings :
    ∃ catalog,
      Catalog.build drawings = .ok catalog ∧
      (∀ objectClass ∈ drawings, NamesMembers objectClass) ∧
      ∀ config, catalogSchema config catalog =
        .error (.invalidDefault "sheet" "width" "0" (.outOfRange .posint)) := by
  have checked : ((Catalog.build drawings).toOption.any fun catalog =>
      match catalogSchema .standard catalog with
      | .ok _ => false
      | .error error => error == .invalidDefault "sheet" "width" "0" (.outOfRange .posint)) =
      true := by
    decide +kernel
  simp only [Option.any_eq_true, toOption_eq_some_iff] at checked
  rcases checked with ⟨catalog, built, fails⟩
  have namesMembers : ∀ objectClass ∈ drawings, NamesMembers objectClass := by decide
  refine ⟨catalog, built, namesMembers, fun config => ?_⟩
  split at fails
  · cases fails
  · next error outcome =>
      rw [eq_of_beq fails] at outcome
      exact (schema_fails_at_first built namesMembers).2.2.1 .standard config _ outcome

end ClassStore.Schema
