import ClassStore.Proofs.Catalog.DefaultNames
import ClassStore.Proofs.Schema.ComposedNames

/-!
# Names of tables

By default a class without a parent has a table that is named after its key with an
underscore in front.  The table of any other class is named after that of its parent
without underscores in front, so it holds the keys from the root down to the class.
So two classes can have the same table only if both have a parent.
-/

namespace ClassStore.Schema

open ClassStore.Catalog

/-- The table of a class with the given keys from the root down to the class. -/
def tableText : List String → String
  | [] => ""
  | root :: keys =>
      keys.foldl (fun table key => composed (Text.withoutLeading "_" table) key) ("_" ++ root)

theorem tableText_concat
    {path : List String}
    (nonempty : path ≠ [])
    (key : String) :
    tableText (path ++ [key]) = composed (Text.withoutLeading "_" (tableText path)) key := by
  cases path with
  | nil => exact absurd rfl nonempty
  | cons root keys =>
      rw [List.cons_append, tableText, List.foldl_append]
      rfl

/-- A class that leaves its name open has the table of its keys. -/
theorem table_eq_tableText
    {classes : List ObjectClass}
    (named : ∀ key objectClass, findClass? classes key = some objectClass →
      objectClass.table = defaultTable (parentOf? classes objectClass) objectClass.key)
    {objectClass : ObjectClass}
    {walked : List ObjectClass}
    (walk : ParentWalk classes objectClass walked)
    {key : String}
    (found : findClass? classes key = some objectClass) :
    objectClass.table = tableText (walked.reverse.map ObjectClass.key) := by
  induction walk generalizing key with
  | root noParent =>
      rw [named key _ found, parentOf?, noParent]
      rfl
  | @child objectClass parent ancestors isParent walk inductionHypothesis =>
      have foundParent := (of_parentOf? isParent).2
      have nonempty : ancestors.reverse.map ObjectClass.key ≠ [] := by
        cases walk <;> simp
      rw [named key _ found, isParent, defaultTable, inductionHypothesis foundParent,
        List.reverse_cons, List.map_append, List.map_singleton, tableText_concat nonempty]
      rfl

theorem composed_empty (back : String) : composed "" back = "_" ++ back :=
  rfl

/-- No class with a parent has the table of a root, because it would have its key. -/
theorem key_eq_of_root_eq_tableText
    {root key : String}
    {path : List String}
    (nonempty : path ≠ [])
    (same : "_" ++ root = tableText (path ++ [key])) :
    root = key := by
  rw [tableText_concat nonempty, ← composed_empty] at same
  rcases composed_eq_iff.mp same with ⟨-, same⟩ | ⟨rest, goesOn, -⟩ | ⟨rest, goesOn, -⟩
  · exact same
  · have absent := Text.not_prefix_withoutLeading (by decide : "_".toList ≠ []) (tableText path)
    rw [goesOn, toList_composed] at absent
    exact absurd (List.prefix_append ['_'] rest.toList) absent
  · have underscore := underscore_mem_composed (Text.withoutLeading "_" (tableText path)) rest
    rw [← goesOn] at underscore
    cases underscore

end ClassStore.Schema
