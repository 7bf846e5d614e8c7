import ClassStore.Exchange.Descriptor
import ClassStore.Exchange.Settings
import ClassStore.Proofs.Exchange.Text
import Mathlib.Data.List.Nodup

/-!
# What survives the exchange

A class that is encoded and decoded again is the class it was, but for the types of
its attributes: a type is written as its name, and a name is read without regard to
the case of letters.  So the one thing that does not come back is an unknown type
whose name is that of a known one.  Settings come back as they were, with every
number of 64 bits.  The same holds by way of the text that is exchanged, with any
library that reads what it has written, because everything that is encoded is within
the limits of such a library.
-/

namespace ClassStore.Exchange

open ClassStore.Catalog
open ClassStore.Query
open ClassStore.Schema

namespace Json

/-! ## Fields of records -/

theorem isAtMostOnce_of_nodup
    {members : List (String × Json)}
    (distinct : (members.map Prod.fst).Nodup)
    (name : String) :
    isAtMostOnce name members = true := by
  have once := List.nodup_iff_count_le_one.mp distinct name
  rw [List.count, List.countP_map] at once
  exact decide_eq_true once

theorem lookup_of_mem
    {members : List (String × Json)}
    {name : String}
    {value : Json}
    (distinct : (members.map Prod.fst).Nodup)
    (member : (name, value) ∈ members) :
    members.lookup name = some value := by
  obtain ⟨before, after, split⟩ := List.append_of_mem member
  refine List.lookup_eq_some_iff.mpr ⟨before, after, split, fun other among => ?_⟩
  rw [split, List.map_append, List.nodup_append] at distinct
  have differs := distinct.2.2 other.1 (List.mem_map_of_mem among) name (by simp)
  simpa using differs.symm

/-- Each field of a record is found under its name. -/
theorem record?_object
    {names : List String}
    {members : List (String × Json)}
    (named : members.map Prod.fst = names)
    (distinct : names.Nodup) :
    record? names (.object members) = some (members.map fun member => some member.2) := by
  subst named
  have once :
      ((members.map Prod.fst).all fun name => isAtMostOnce name members) = true :=
    List.all_eq_true.mpr fun name _ => isAtMostOnce_of_nodup distinct name
  rw [record?, if_pos once, List.map_map]
  congr 1
  apply List.map_congr_left
  intro member among
  exact lookup_of_mem distinct among

theorem optional?_of_ne_null
    {Value : Type}
    (decode : Json → Option Value)
    {json : Json}
    (visible : json ≠ .null) :
    optional? decode json = (decode json).map some := by
  cases json with
  | null => exact absurd rfl visible
  | _ => rfl

/-- An optional value comes back if every value does and none is written as its absence. -/
theorem optional?_ofOption
    {Value : Type}
    {encode : Value → Json}
    {decode : Json → Option Value}
    (visible : ∀ value, encode value ≠ .null)
    (each : ∀ value, decode (encode value) = some value)
    (value : Option Value) :
    optional? decode (ofOption encode value) = some value := by
  cases value with
  | none => rfl
  | some value =>
      rw [ofOption, optional?_of_ne_null decode (visible value), each]
      rfl

/-- The items of a list are read one by one. -/
theorem list?_ofList
    {Value Read : Type}
    {encode : Value → Json}
    {decode : Json → Option Read}
    {settle : Value → Read}
    (each : ∀ value, decode (encode value) = some (settle value))
    (values : List Value) :
    list? decode (ofList encode values) = some (values.map settle) := by
  change (values.map encode).mapM decode = some (values.map settle)
  induction values with
  | nil => rfl
  | cons value values inductionHypothesis =>
      rw [List.map_cons, List.mapM_cons, each, inductionHypothesis]
      rfl

/-- A list comes back if every item does. -/
theorem list?_ofList_self
    {Value : Type}
    {encode : Value → Json}
    {decode : Json → Option Value}
    (each : ∀ value, decode (encode value) = some value)
    (values : List Value) :
    list? decode (ofList encode values) = some values := by
  have read := @list?_ofList Value Value encode decode id each values
  rw [List.map_id] at read
  exact read

end Json

/-! ## Attributes -/

theorem decodeFlags?_encodeFlags (flags : Flags) :
    decodeFlags? (encodeFlags flags) = some flags := by
  rw [decodeFlags?, encodeFlags, Json.record?_object (by rfl) (by decide)]
  rfl

theorem word?_encodeOnDelete (onDelete : OnDelete) :
    Json.word? onDeleteWords (encodeOnDelete onDelete) = some onDelete := by
  cases onDelete <;> decide

theorem word?_encodeRelationship (relationship : Relationship) :
    Json.word? relationshipWords (encodeRelationship relationship) = some relationship := by
  cases relationship <;> decide

theorem word?_encodeKeySource (keySource : KeySource) :
    Json.word? keySourceWords (encodeKeySource keySource) = some keySource := by
  cases keySource <;> decide

theorem decodeReference?_encodeReference (reference : Reference) :
    decodeReference? (encodeReference reference) = some reference := by
  rw [decodeReference?, encodeReference, Json.record?_object (by rfl) (by decide)]
  simp only [List.map_cons, List.map_nil, Json.field?, word?_encodeOnDelete, Json.string?,
    Option.bind_eq_bind, Option.bind_some]

theorem decodeJunction?_encodeJunction (junction : Junction) :
    decodeJunction? (encodeJunction junction) = some junction := by
  rw [decodeJunction?, encodeJunction, Json.record?_object (by rfl) (by decide)]
  rfl

/-- The attribute with the type that is read from the name of its type. -/
def asRead (attr : Attribute) : Attribute :=
  { attr with type := .ofName attr.type.name }

theorem string?_string (text : String) :
    (Json.string text).string? = some text :=
  rfl

theorem optional?_string (text : Option String) :
    Json.optional? Json.string? (Json.ofOption Json.string text) = some text :=
  Json.optional?_ofOption (fun _ => Json.noConfusion) string?_string text

theorem decodeAttribute?_encodeAttribute (attr : Attribute) :
    decodeAttribute? (encodeAttribute attr) = some (asRead attr) := by
  have reference :
      Json.optional? decodeReference? (Json.ofOption encodeReference attr.reference) =
        some attr.reference :=
    Json.optional?_ofOption nofun decodeReference?_encodeReference attr.reference
  have relationship :
      Json.optional? (Json.word? relationshipWords)
          (Json.ofOption encodeRelationship attr.relationship) = some attr.relationship :=
    Json.optional?_ofOption nofun word?_encodeRelationship attr.relationship
  have junction :
      Json.optional? decodeJunction? (Json.ofOption encodeJunction attr.junction) =
        some attr.junction :=
    Json.optional?_ofOption nofun decodeJunction?_encodeJunction attr.junction
  rw [decodeAttribute?, encodeAttribute, Json.record?_object (by rfl) (by decide)]
  simp only [List.map_cons, List.map_nil, Json.field?, Json.string?, Option.bind_eq_bind,
    Option.bind_some, decodeFlags?_encodeFlags, encodeType, decodeType?, Option.map_some,
    optional?_string, reference, relationship, junction]
  rfl

/-! ## Classes -/

/-- The class with the types that are read from the names of the types of its attributes. -/
def classAsRead (objectClass : ObjectClass) : ObjectClass :=
  { objectClass with attributes := objectClass.attributes.map asRead }

theorem decodeClass?_encodeClass (objectClass : ObjectClass) :
    decodeClass? (encodeClass objectClass) = some (classAsRead objectClass) := by
  have attributes :
      Json.list? decodeAttribute? (Json.ofList encodeAttribute objectClass.attributes) =
        some (objectClass.attributes.map asRead) :=
    Json.list?_ofList decodeAttribute?_encodeAttribute objectClass.attributes
  rw [decodeClass?, encodeClass, Json.record?_object (by rfl) (by decide)]
  simp only [List.map_cons, List.map_nil, Json.field?, Json.string?, Option.bind_eq_bind,
    Option.bind_some, optional?_string, attributes, word?_encodeKeySource]
  rfl

/-! ## Types and their names -/

/-- The type is unknown, and a known one has its name but for the case of letters. -/
def isNamesake : SemanticType → Bool
  | .unknown name => SemanticType.known.any fun type => Text.sameIgnoringCase type.name name
  | _ => false

theorem ofName_name_of_mem_known :
    ∀ type ∈ SemanticType.known, SemanticType.ofName type.name = type := by
  decide +kernel

theorem not_isUnknown_of_mem_known :
    ∀ type ∈ SemanticType.known, type.isUnknown = false := by
  decide

/-- A name that a known type has but for the case of letters is read as a known type. -/
theorem ofName_mem_known
    {name : String}
    (namesake : isNamesake (.unknown name) = true) :
    SemanticType.ofName name ∈ SemanticType.known := by
  have isThere := List.find?_isSome.mpr (List.any_eq_true.mp namesake)
  obtain ⟨type, found⟩ := Option.isSome_iff_exists.mp isThere
  rw [SemanticType.ofName, found]
  exact List.mem_of_find?_eq_some found

/-- Any other name is kept. -/
theorem ofName_eq_unknown
    {name : String}
    (alone : isNamesake (.unknown name) = false) :
    SemanticType.ofName name = .unknown name := by
  have nothing := List.find?_eq_none.mpr (List.any_eq_false.mp alone)
  rw [SemanticType.ofName, nothing]
  rfl

/-- A type is read from its own name, unless its name belongs to a known type. -/
theorem ofName_name_eq_iff (type : SemanticType) :
    SemanticType.ofName type.name = type ↔ isNamesake type = false := by
  cases type with
  | unknown name =>
      refine ⟨fun kept => ?_, ofName_eq_unknown⟩
      rw [Bool.eq_false_iff]
      intro namesake
      have known := not_isUnknown_of_mem_known _ (ofName_mem_known namesake)
      change SemanticType.ofName name = .unknown name at kept
      rw [kept] at known
      cases known
  | _ => exact iff_of_true (ofName_name_of_mem_known _ (by decide)) rfl

/-- The name of a type that was read is read as the type. -/
theorem ofName_name_ofName (text : String) :
    SemanticType.ofName (SemanticType.ofName text).name = SemanticType.ofName text := by
  cases namesake : isNamesake (.unknown text) with
  | true => exact ofName_name_of_mem_known _ (ofName_mem_known namesake)
  | false =>
      rw [ofName_eq_unknown namesake]
      exact ofName_eq_unknown namesake

/-- The name of a known type is read as the type, in whatever case its letters are. -/
theorem ofName_of_sameIgnoringCase
    {type : SemanticType}
    {text : String}
    (known : type ∈ SemanticType.known)
    (same : Text.sameIgnoringCase type.name text = true) :
    SemanticType.ofName text = type := by
  have folded : Text.foldCase type.name = Text.foldCase text := beq_iff_eq.mp same
  have alike :
      (fun other : SemanticType => Text.sameIgnoringCase other.name text) =
        fun other => Text.sameIgnoringCase other.name type.name := by
    funext other
    rw [Text.sameIgnoringCase, Text.sameIgnoringCase, folded]
  have isThere :
      (SemanticType.known.find? fun other =>
        Text.sameIgnoringCase other.name type.name).isSome := by
    rw [List.find?_isSome]
    exact ⟨type, known, beq_self_eq_true _⟩
  obtain ⟨found, first⟩ := Option.isSome_iff_exists.mp isThere
  have own := ofName_name_of_mem_known type known
  rw [SemanticType.ofName, first] at own
  rw [SemanticType.ofName, alike, first]
  exact own

/-- A class comes back unless an attribute has an unknown type named as a known one is. -/
theorem decodeClass?_encodeClass_eq_iff (objectClass : ObjectClass) :
    decodeClass? (encodeClass objectClass) = some objectClass ↔
      ∀ attr ∈ objectClass.attributes, isNamesake attr.type = false := by
  have same (attr : Attribute) : asRead attr = attr ↔ isNamesake attr.type = false := by
    rw [← ofName_name_eq_iff]
    constructor
    · exact congrArg Attribute.type
    · intro kept
      rw [asRead, kept]
  rw [decodeClass?_encodeClass, Option.some_inj]
  constructor
  · intro kept attr member
    have attributes :
        objectClass.attributes.map asRead = objectClass.attributes.map id :=
      (congrArg ObjectClass.attributes kept).trans (List.map_id _).symm
    exact (same attr).mp (List.map_inj_left.mp attributes attr member)
  · intro alone
    have attributes : objectClass.attributes.map asRead = objectClass.attributes.map id :=
      List.map_congr_left fun attr member => (same attr).mpr (alone attr member)
    rw [classAsRead, attributes, List.map_id]

/-! ## Settings -/

theorem count?_encodeCount (count : UInt64) :
    (encodeCount count).count? = some count := by
  have below : (count.toNat : Int) < Json.range64 := Int.ofNat_lt.mpr count.toNat_lt
  rw [encodeCount, Json.count?, if_pos ⟨Int.natCast_nonneg _, below⟩, Int.toNat_natCast,
    UInt64.ofNat_toNat]

theorem word?_encodeSortOrder (sortOrder : SortOrder) :
    Json.word? sortOrderWords (encodeSortOrder sortOrder) = some sortOrder := by
  cases sortOrder <;> decide

theorem word?_backend (backend : Backend) :
    Json.word? backendWords (.string backend.name) = some backend := by
  cases backend <;> decide

theorem decodeConstraints?_encodeConstraints (constraints : Constraints) :
    decodeConstraints? (encodeConstraints constraints) = some constraints := by
  have orderBy :
      Json.list? Json.string? (Json.ofList Json.string constraints.orderBy) =
        some constraints.orderBy :=
    Json.list?_ofList_self string?_string constraints.orderBy
  have sortOrder :
      Json.list? (Json.word? sortOrderWords)
          (Json.ofList encodeSortOrder constraints.sortOrder) = some constraints.sortOrder :=
    Json.list?_ofList_self word?_encodeSortOrder constraints.sortOrder
  have count (number : Option UInt64) :
      Json.optional? Json.count? (Json.ofOption encodeCount number) = some number :=
    Json.optional?_ofOption nofun count?_encodeCount number
  rw [decodeConstraints?, encodeConstraints, Json.record?_object (by rfl) (by decide)]
  simp only [List.map_cons, List.map_nil, Json.field?, Option.bind_eq_bind, Option.bind_some,
    orderBy, sortOrder, count]

theorem decodeConfig?_encodeConfig (config : Config) :
    decodeConfig? (encodeConfig config) = some config := by
  rw [decodeConfig?, encodeConfig, Json.record?_object (by rfl) (by decide)]
  simp only [List.map_cons, List.map_nil, Json.field?, Option.bind_eq_bind, Option.bind_some,
    word?_backend, optional?_string]

/-! ## By way of text -/

namespace Json.Portable

theorem ofOption
    {Value : Type}
    {depth : Nat}
    {encode : Value → Json}
    (each : ∀ value, (encode value).Portable depth)
    (value : Option Value) :
    (Json.ofOption encode value).Portable depth := by
  cases value with
  | none => exact .null
  | some value => exact each value

theorem ofList
    {Value : Type}
    {depth : Nat}
    {encode : Value → Json}
    (each : ∀ value, (encode value).Portable depth)
    (values : List Value) :
    (Json.ofList encode values).Portable (depth + 1) := by
  refine .array _ fun item member => ?_
  obtain ⟨value, _, rfl⟩ := List.mem_map.mp member
  exact each value

end Json.Portable

theorem portable_optional
    (depth : Nat)
    (text : Option String) :
    (Json.ofOption Json.string text).Portable depth :=
  .ofOption .string text

theorem portable_encodeFlags
    (depth : Nat)
    (flags : Flags) :
    (encodeFlags flags).Portable (depth + 1) := by
  refine .object _ (by simp) ?_
  simp [Json.Portable.boolean]

theorem portable_encodeReference
    (depth : Nat)
    (reference : Reference) :
    (encodeReference reference).Portable (depth + 1) := by
  have onDelete : (encodeOnDelete reference.onDelete).Portable depth := by
    cases reference.onDelete <;> exact .string _
  refine .object _ (by simp) ?_
  simp [Json.Portable.string, onDelete]

theorem portable_encodeJunction
    (depth : Nat)
    (junction : Junction) :
    (encodeJunction junction).Portable (depth + 1) := by
  refine .object _ (by simp) ?_
  simp [Json.Portable.string]

/-- An attribute is an object with objects in it. -/
theorem portable_encodeAttribute
    (depth : Nat)
    (attr : Attribute) :
    (encodeAttribute attr).Portable (depth + 2) := by
  have type : (encodeType attr.type).Portable (depth + 1) := .string _
  have reference : (Json.ofOption encodeReference attr.reference).Portable (depth + 1) :=
    .ofOption (portable_encodeReference depth) _
  have relationship :
      (Json.ofOption encodeRelationship attr.relationship).Portable (depth + 1) :=
    .ofOption (fun _ => .string _) _
  have junction : (Json.ofOption encodeJunction attr.junction).Portable (depth + 1) :=
    .ofOption (portable_encodeJunction depth) _
  refine .object _ (by simp) ?_
  simp [Json.Portable.string, portable_optional, portable_encodeFlags, type, reference,
    relationship, junction]

/-- A class is an object with a list of attributes in it. -/
theorem portable_encodeClass
    (depth : Nat)
    (objectClass : ObjectClass) :
    (encodeClass objectClass).Portable (depth + 4) := by
  have attributes :
      (Json.ofList encodeAttribute objectClass.attributes).Portable (depth + 3) :=
    .ofList (portable_encodeAttribute depth) _
  have keySource : (encodeKeySource objectClass.keySource).Portable (depth + 3) := by
    cases objectClass.keySource <;> exact .string _
  refine .object _ (by simp) ?_
  simp [Json.Portable.string, portable_optional, attributes, keySource]

theorem portable_encodeCount
    (depth : Nat)
    (count : UInt64) :
    (encodeCount count).Portable depth := by
  refine .integer _ (Int.le_trans (by decide) (Int.natCast_nonneg _)) ?_
  exact Int.ofNat_lt.mpr count.toNat_lt

theorem portable_encodeConstraints
    (depth : Nat)
    (constraints : Constraints) :
    (encodeConstraints constraints).Portable (depth + 2) := by
  have orderBy : (Json.ofList Json.string constraints.orderBy).Portable (depth + 1) :=
    .ofList .string _
  have sortOrder :
      (Json.ofList encodeSortOrder constraints.sortOrder).Portable (depth + 1) :=
    .ofList (fun _ => .string _) _
  have count (number : Option UInt64) :
      (Json.ofOption encodeCount number).Portable (depth + 1) :=
    .ofOption (portable_encodeCount _) number
  refine .object _ (by simp) ?_
  simp [orderBy, sortOrder, count]

theorem portable_encodeConfig
    (depth : Nat)
    (config : Config) :
    (encodeConfig config).Portable (depth + 1) := by
  refine .object _ (by simp) ?_
  simp [Json.Portable.string, portable_optional]

/-- The value is decoded from the JSON that it is encoded as, and from the text of that. -/
structure Survives
    {Value : Type}
    (codec : TextCodec)
    (encode : Value → Json)
    (decode : Json → Option Value)
    (value : Value) : Prop where
  decoded : decode (encode value) = some value
  read : (codec.read (codec.write (encode value))).bind decode = some value

theorem Survives.of_portable
    {Value : Type}
    {codec : TextCodec}
    {encode : Value → Json}
    {decode : Json → Option Value}
    {value : Value}
    (readsBack : codec.ReadsBack)
    (portable : (encode value).Portable TextCodec.nesting)
    (decoded : decode (encode value) = some value) :
    Survives codec encode decode value :=
  ⟨decoded, by rw [readsBack _ portable, Option.bind_some, decoded]⟩

/--
Classes and settings survive the exchange by a library that reads what it has written.

A class does if no attribute of it has an unknown type that is named as a known one
but for the case of letters.  Settings and constraints always do.  A type that was
decoded survives as well, whatever it was decoded from, and that of a known name is the
same in whatever case the letters of the name are.
-/
theorem descriptors_survive
    (codec : TextCodec)
    (readsBack : codec.ReadsBack) :
    (∀ objectClass : ObjectClass,
      (∀ attr ∈ objectClass.attributes, isNamesake attr.type = false) →
        Survives codec encodeClass decodeClass? objectClass) ∧
    (∀ config, Survives codec encodeConfig decodeConfig? config) ∧
    (∀ constraints, Survives codec encodeConstraints decodeConstraints? constraints) ∧
    (∀ json type, decodeType? json = some type →
      Survives codec encodeType decodeType? type) ∧
    (∀ type ∈ SemanticType.known, ∀ text, Text.sameIgnoringCase type.name text = true →
      decodeType? (.string text) = some type) := by
  refine ⟨fun objectClass alone => ?_, fun config => ?_, fun constraints => ?_,
    fun json type decoded => ?_, fun type known text same => ?_⟩
  · exact .of_portable readsBack (portable_encodeClass 123 objectClass)
      ((decodeClass?_encodeClass_eq_iff objectClass).mpr alone)
  · exact .of_portable readsBack (portable_encodeConfig 126 config)
      (decodeConfig?_encodeConfig config)
  · exact .of_portable readsBack (portable_encodeConstraints 125 constraints)
      (decodeConstraints?_encodeConstraints constraints)
  · obtain ⟨text, _, rfl⟩ := Option.map_eq_some_iff.mp decoded
    exact .of_portable readsBack (.string _) (congrArg some (ofName_name_ofName text))
  · exact congrArg some (ofName_of_sameIgnoringCase known same)

/-- A class with a parent, a type that is not known, a reference and a collection. -/
def album : ObjectClass :=
  { ObjectClass.declare "album" with
    table := "albums"
    parent := some "work"
    attributes :=
      [(Attribute.declare "title \"as is\"" .string).required.indexed,
        (Attribute.declare "cover" (.unknown "Bitmap")).withInitial "none\n",
        (Attribute.declare "artist" .whole).referringTo "person" .setNull,
        { (Attribute.declare "tracks" .whole).collecting "track" with
          junction := some ⟨"album_tracks", "v_album_tracks", "album", "track", "place"⟩ }]
    keySource := .inherited }

theorem album_survives :
    Json.plainCodec.ReadsBack ∧
      ((∀ attr ∈ album.attributes, isNamesake attr.type = false) ∧
        Survives Json.plainCodec encodeClass decodeClass? album) ∧
      (decodeType? (.string "BitMap") = some (.unknown "BitMap") ∧
        Survives Json.plainCodec encodeType decodeType? (.unknown "BitMap")) ∧
      (SemanticType.mediaType ∈ SemanticType.known ∧
        Text.sameIgnoringCase "media_type" "Media_TYPE" = true ∧
          decodeType? (.string "Media_TYPE") = some .mediaType) := by
  have alone : ∀ attr ∈ album.attributes, isNamesake attr.type = false := by
    decide +kernel
  have decoded : decodeType? (.string "BitMap") = some (.unknown "BitMap") := by
    decide +kernel
  have same : Text.sameIgnoringCase "media_type" "Media_TYPE" = true := by
    decide +kernel
  have readsBack := Json.readsBack_plainCodec
  obtain ⟨classes, _, _, types, names⟩ := descriptors_survive Json.plainCodec readsBack
  exact ⟨readsBack, ⟨alone, classes album alone⟩, ⟨decoded, types _ _ decoded⟩,
    by decide, same, names _ (by decide) "Media_TYPE" same⟩

end ClassStore.Exchange
