import ClassStore.Exchange.Json

/-!
# Codecs of texts

Values of JSON are written as texts and read from texts by a library.  It is a
parameter here; what is known of it is that it reads what it has written, within the
limits that it has.
-/

namespace ClassStore.Exchange

/--
The value may be exchanged as a text by a library that follows the given number of
arrays and objects into each other.

Integers have 64 bits, with or without a sign, and the names of the members of an
object are distinct.  Fractions are left out: they are kept as floating-point numbers,
which nothing is encoded as.
-/
inductive Json.Portable : Nat → Json → Prop where
  | null {depth : Nat} : Portable depth .null
  | boolean {depth : Nat} (value : Bool) : Portable depth (.boolean value)
  | integer
      {depth : Nat}
      (value : Int)
      (least : Int64.minValue.toInt ≤ value)
      (below : value < range64) :
      Portable depth (.integer value)
  | string {depth : Nat} (value : String) : Portable depth (.string value)
  | array
      {depth : Nat}
      (items : List Json)
      (each : ∀ item ∈ items, Portable depth item) :
      Portable (depth + 1) (.array items)
  | object
      {depth : Nat}
      (members : List (String × Json))
      (distinct : (members.map Prod.fst).Nodup)
      (each : ∀ member ∈ members, Portable depth member.2) :
      Portable (depth + 1) (.object members)

/-- A library that writes values of JSON as texts and reads values from texts. -/
structure TextCodec where
  /-- The text that is written for a value. -/
  write : Json → String
  /-- The value of a text, with the members of objects in the order of the text. -/
  read : String → Option Json

/-- The arrays and objects that a reader follows into each other before it gives up. -/
def TextCodec.nesting : Nat :=
  127

/-- Every value within the limits is read from the text that is written for it. -/
def TextCodec.ReadsBack (codec : TextCodec) : Prop :=
  ∀ json, Json.Portable nesting json → codec.read (codec.write json) = some json

end ClassStore.Exchange
