import ClassStore.Proofs.Catalog.Chains
import ClassStore.Proofs.Catalog.Copies
import ClassStore.Schema.Setting

/-!
# The setting of a class

What the setting of a class says about the class agrees with the catalog: its
chain, the root of the chain, and the class that it is linked to.
-/

namespace ClassStore.Schema

open ClassStore.Catalog

theorem findClass_eq_ok_iff
    {catalog : Catalog}
    {key : String}
    {objectClass : ObjectClass} :
    findClass catalog key = .ok objectClass ↔ catalog.find? key = some objectClass := by
  rw [findClass]
  cases catalog.find? key <;> simp

namespace ClassSetting

variable
    {setting : ClassSetting}

theorem ofKey_eq_ok
    {config : Config}
    {catalog : Catalog}
    {key : String}
    (isSetting : ofKey config catalog key = .ok setting) :
    setting.catalog = catalog ∧ setting.chain = catalog.chain key ∧
      catalog.find? key = some setting.objectClass := by
  rcases exists_of_bind_eq_ok isSetting with ⟨objectClass, found, same⟩
  cases same
  exact ⟨rfl, rfl, findClass_eq_ok_iff.mp found⟩

theorem config_of_ofKey
    {config : Config}
    {catalog : Catalog}
    {key : String}
    (isSetting : ofKey config catalog key = .ok setting) :
    setting.config = config := by
  rcases exists_of_bind_eq_ok isSetting with ⟨_, _, same⟩
  cases same
  rfl

theorem root_eq
    {key : String}
    (sameChain : setting.chain = setting.catalog.chain key)
    {root : ObjectClass}
    (isRoot : setting.catalog.root? key = some root) :
    setting.root = root := by
  rw [Catalog.root?] at isRoot
  rw [ClassSetting.root, sameChain, isRoot, Option.getD_some]

/-- The chain ends with the class, and its root is the only class in it without a parent. -/
structure Rooted (setting : ClassSetting) : Prop where
  self : setting.objectClass ∈ setting.chain
  root : setting.root ∈ setting.chain
  noParent : setting.root.parent = none
  unique : ∀ member ∈ setting.chain, member.parent = none → member = setting.root

theorem rooted_of_found
    {declared : List ObjectClass}
    (resolvedCatalog : ResolvedCatalog declared setting.catalog)
    (sameChain : setting.chain = setting.catalog.chain setting.objectClass.key)
    (found : setting.catalog.find? setting.objectClass.key = some setting.objectClass) :
    setting.Rooted := by
  rcases resolvedCatalog.exists_root found with ⟨root, isRoot, noParent, inChain⟩
  have sameRoot := root_eq sameChain isRoot
  rw [← sameChain] at inChain
  refine ⟨?_, sameRoot ▸ inChain, sameRoot ▸ noParent, ?_⟩
  · rw [sameChain]
    exact self_mem_chain found
  · intro member isMember rootless
    rw [sameChain] at isMember
    exact (root_eq sameChain (root?_eq_of_noParent isMember rootless)).symm

theorem identity_of_linksTo
    {link : Attribute}
    {target : ObjectClass}
    (isLink : setting.objectClass.link? = some link)
    (linksTo : LinksTo setting.catalog link target) :
    setting.identity = .ok (some (target, link)) := by
  simp [identity, isLink, linksTo.refers, findClass, linksTo.found, bind, Except.bind]

theorem identity_of_noLink
    (noLink : setting.objectClass.link? = none) :
    setting.identity = .ok none := by
  simp [identity, noLink]

end ClassSetting

end ClassStore.Schema
