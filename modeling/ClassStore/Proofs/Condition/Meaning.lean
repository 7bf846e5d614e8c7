import ClassStore.Proofs.Condition.Reader
import ClassStore.Proofs.Query.Tree

/-!
# What a tree demands

A leaf demands what it is compiled into on its own, and a group combines what its
members demand.  The fragment that a tree is compiled into demands the same and
has the shape of the tree, except for the groups without leaves.  The visible
combinators are enough for the meaning of a condition, and the shape shows them.
-/

namespace ClassStore.Search

mutual

/-- The shape of a tree whose leaves have the given shapes. -/
def Node.shapeWith (leafShape : Leaf → Shape) : Node → Shape
  | .leaf content => leafShape content
  | .group combinator members => .group combinator (Node.listShapeWith leafShape members)

/-- The shapes of trees whose leaves have the given shapes. -/
def Node.listShapeWith (leafShape : Leaf → Shape) : List Node → List Shape
  | [] => []
  | node :: nodes => node.shapeWith leafShape :: Node.listShapeWith leafShape nodes

end

mutual

/-- The shape of a tree is the one whose leaves are leaves. -/
theorem Node.shapeWith_leaf (node : Node) :
    node.shapeWith (fun _ => .leaf) = node.shape := by
  cases node with
  | leaf content => rfl
  | group combinator members =>
      rw [Node.shapeWith, Node.shape, Node.listShapeWith_leaf members]

theorem Node.listShapeWith_leaf (nodes : List Node) :
    Node.listShapeWith (fun _ => .leaf) nodes = Node.shapes nodes := by
  cases nodes with
  | nil => rfl
  | cons node nodes =>
      rw [Node.listShapeWith, Node.shapes, Node.shapeWith_leaf node,
        Node.listShapeWith_leaf nodes]

end

mutual

/-- The shape without the groups that have no leaves. -/
def Shape.pruned? : Shape → Option Shape
  | .leaf => some .leaf
  | .group combinator members =>
      match Shape.listPruned members with
      | [] => none
      | members => some (.group combinator members)

/-- The shapes without the groups that have no leaves. -/
def Shape.listPruned : List Shape → List Shape
  | [] => []
  | shape :: shapes => shape.pruned?.toList ++ Shape.listPruned shapes

end

/-- A tree as the group that its text is read as; a leaf is its only member. -/
def Node.asGroup : Node → Node
  | .leaf content => .group .all [.leaf content]
  | .group combinator members => .group combinator members

theorem Shape.listPruned_replicate_leaf (count : Nat) :
    Shape.listPruned (List.replicate count .leaf) = List.replicate count .leaf := by
  induction count with
  | zero => rfl
  | succ count inductionHypothesis =>
      rw [List.replicate_succ, Shape.listPruned, inductionHypothesis]
      rfl

theorem Combinator.visible_map
    {Member Image : Type}
    (combinator : Combinator)
    (image : Member → Image)
    (members : List Member) :
    combinator.visible (members.map image) = combinator.visible members := by
  rcases members with _ | ⟨first, _ | ⟨second, members⟩⟩ <;> rfl

/-- The combinator of a group with one member does not matter. -/
theorem Combinator.fold_visible
    {Member : Type}
    (combinator : Combinator)
    {members : List Member}
    {truths : List Bool}
    (sameLength : truths.length = members.length) :
    (combinator.visible members).fold truths = combinator.fold truths := by
  rcases members with _ | ⟨first, _ | ⟨second, members⟩⟩
  · rfl
  · rcases List.length_eq_one_iff.mp sameLength with ⟨truth, rfl⟩
    cases combinator <;> simp [Combinator.visible, Combinator.fold]
  · rfl

end ClassStore.Search

namespace ClassStore.Query

open ClassStore.Catalog
open ClassStore.Search
open Compiling
open Lexeme

/-! ## Visible combinators -/

theorem Condition.listNormal_eq_map (conditions : List Condition) :
    Condition.listNormal conditions = conditions.map Condition.normal := by
  induction conditions with
  | nil => rfl
  | cons condition conditions inductionHypothesis =>
      rw [Condition.listNormal, inductionHypothesis, List.map_cons]

theorem Condition.listShape_eq_map (conditions : List Condition) :
    Condition.listShape conditions = conditions.map Condition.shape := by
  induction conditions with
  | nil => rfl
  | cons condition conditions inductionHypothesis =>
      rw [Condition.listShape, inductionHypothesis, List.map_cons]

mutual

theorem Condition.size_normal (condition : Condition) :
    condition.normal.size = condition.size := by
  cases condition with
  | comparison lexemes => rfl
  | group combinator members =>
      rw [Condition.normal, Condition.size, Condition.size,
        Condition.listSize_listNormal members]

theorem Condition.listSize_listNormal (conditions : List Condition) :
    Condition.listSize (Condition.listNormal conditions) = Condition.listSize conditions := by
  cases conditions with
  | nil => rfl
  | cons condition conditions =>
      rw [Condition.listNormal, Condition.listSize, Condition.listSize,
        Condition.size_normal condition, Condition.listSize_listNormal conditions]

end

theorem Condition.length_listHolds
    (truth : Nat → List Lexeme → Bool)
    (first : Nat)
    (conditions : List Condition) :
    (Condition.listHolds truth first conditions).length = conditions.length := by
  induction conditions generalizing first with
  | nil => rfl
  | cons condition conditions inductionHypothesis =>
      rw [Condition.listHolds, List.length_cons, List.length_cons, inductionHypothesis]

mutual

/-- The visible combinators are enough to know what a condition means. -/
theorem Condition.holds_normal
    (truth : Nat → List Lexeme → Bool)
    (first : Nat)
    (condition : Condition) :
    condition.normal.holds truth first = condition.holds truth first := by
  cases condition with
  | comparison lexemes => rfl
  | group combinator members =>
      rw [Condition.normal, Condition.holds, Condition.holds,
        Condition.listHolds_listNormal truth first members,
        Combinator.fold_visible combinator (Condition.length_listHolds truth first members)]

theorem Condition.listHolds_listNormal
    (truth : Nat → List Lexeme → Bool)
    (first : Nat)
    (conditions : List Condition) :
    Condition.listHolds truth first (Condition.listNormal conditions) =
      Condition.listHolds truth first conditions := by
  cases conditions with
  | nil => rfl
  | cons condition conditions =>
      rw [Condition.listNormal, Condition.listHolds, Condition.listHolds,
        Condition.holds_normal truth first condition, Condition.size_normal,
        Condition.listHolds_listNormal truth _ conditions]

end

mutual

theorem Condition.shape_normal (condition : Condition) :
    condition.normal.shape = condition.shape.normal := by
  cases condition with
  | comparison lexemes => rfl
  | group combinator members =>
      rw [Condition.normal, Condition.shape, Condition.shape, Shape.normal,
        Condition.listShape_listNormal members, Condition.listShape_eq_map,
        Combinator.visible_map]

theorem Condition.listShape_listNormal (conditions : List Condition) :
    Condition.listShape (Condition.listNormal conditions) =
      Shape.listNormal (Condition.listShape conditions) := by
  cases conditions with
  | nil => rfl
  | cons condition conditions =>
      rw [Condition.listNormal, Condition.listShape, Condition.listShape, Shape.listNormal,
        Condition.shape_normal condition, Condition.listShape_listNormal conditions]

end

/-! ## Meaning of fragments and trees -/

mutual

/-- What a fragment demands: comparisons, known by their own texts, combined in groups. -/
def Fragment.condition (backend : Backend) : Fragment → Condition
  | .group combinator members _ => .group combinator (Fragment.conditions backend members)
  | fragment => .comparison (ofText (fragment.sql backend))

/-- What each of some fragments demands. -/
def Fragment.conditions (backend : Backend) : List Fragment → List Condition
  | [] => []
  | fragment :: fragments =>
      fragment.condition backend :: Fragment.conditions backend fragments

end

mutual

/--
What a tree demands.

A leaf demands what it is compiled into on its own.  A group combines what its
members demand, and demands nothing if none of them does.
-/
def Target.meaning? (target : Target) : Node → Option Condition
  | .leaf content =>
      (target.compileLeaf content).result.toOption.map (Fragment.condition target.backend)
  | .group combinator members =>
      match target.meanings members with
      | [] => none
      | conditions => some (.group combinator conditions)

/-- What the trees that demand something demand. -/
def Target.meanings (target : Target) : List Node → List Condition
  | [] => []
  | node :: nodes => (target.meaning? node).toList ++ target.meanings nodes

end

/-- The shape of the text of a leaf; several alternatives of dates are a group of their own. -/
def Fragment.leafShape : Fragment → Shape
  | .group combinator members _ => .group combinator (members.map fun _ => .leaf)
  | _ => .leaf

/-- The shape of the text that a leaf is compiled into. -/
def Target.leafShape (target : Target) (leaf : Leaf) : Shape :=
  match (target.compileLeaf leaf).result with
  | .ok fragment => fragment.leafShape
  | .error _ => .leaf

theorem Fragment.conditions_eq_map
    (backend : Backend)
    (fragments : List Fragment) :
    Fragment.conditions backend fragments = fragments.map (Fragment.condition backend) := by
  induction fragments with
  | nil => rfl
  | cons fragment fragments inductionHypothesis =>
      rw [Fragment.conditions, inductionHypothesis, List.map_cons]

theorem Fragment.Comparing.condition_eq
    {column : String}
    {fragment : Fragment}
    (comparing : Fragment.Comparing column fragment)
    (backend : Backend) :
    fragment.condition backend = .comparison (ofText (fragment.sql backend)) := by
  cases comparing <;> rfl

mutual

/-- A tree demands what the fragment that it is compiled into demands. -/
theorem meaning?_of_compileNode
    {target : Target}
    {parenthesized : Bool}
    (node : Node)
    {fragment? : Option Fragment}
    (compiled : (target.compileNode parenthesized node).result = .ok fragment?) :
    target.meaning? node = fragment?.map (Fragment.condition target.backend) := by
  cases node with
  | leaf content =>
      rcases result_compileNode_leaf_eq_ok compiled with ⟨ofLeaf, outcome, rfl⟩
      rw [Target.meaning?, outcome]
      rfl
  | group combinator members =>
      rcases result_compileNode_group_eq_ok compiled with ⟨fragments, outcome, rfl⟩
      rw [Target.meaning?, meanings_of_compileMembers members outcome]
      cases fragments with
      | nil => rfl
      | cons fragment fragments =>
          simp [groupFragment?, Fragment.condition, Fragment.conditions_eq_map]

theorem meanings_of_compileMembers
    {target : Target}
    (nodes : List Node)
    {fragments : List Fragment}
    (compiled : (target.compileMembers nodes).result = .ok fragments) :
    target.meanings nodes = fragments.map (Fragment.condition target.backend) := by
  cases nodes with
  | nil =>
      cases compiled
      rfl
  | cons node nodes =>
      rcases result_compileMembers_cons_eq_ok compiled with
        ⟨fragment?, others, first, rest, rfl⟩
      rw [Target.meanings, meaning?_of_compileNode node first,
        meanings_of_compileMembers nodes rest, List.map_append]
      cases fragment? <;> rfl

end

mutual

/-- A tree is compiled into nothing if and only if it has no leaf. -/
theorem leaves_eq_nil_iff_of_compileNode
    {target : Target}
    {parenthesized : Bool}
    (node : Node)
    {fragment? : Option Fragment}
    (compiled : (target.compileNode parenthesized node).result = .ok fragment?) :
    node.leaves = [] ↔ fragment? = none := by
  cases node with
  | leaf content =>
      rcases result_compileNode_leaf_eq_ok compiled with ⟨ofLeaf, outcome, rfl⟩
      simp [Node.leaves]
  | group combinator members =>
      rcases result_compileNode_group_eq_ok compiled with ⟨fragments, outcome, rfl⟩
      rw [Node.leaves, listLeaves_eq_nil_iff_of_compileMembers members outcome]
      cases fragments <;> simp [groupFragment?]

theorem listLeaves_eq_nil_iff_of_compileMembers
    {target : Target}
    (nodes : List Node)
    {fragments : List Fragment}
    (compiled : (target.compileMembers nodes).result = .ok fragments) :
    Node.listLeaves nodes = [] ↔ fragments = [] := by
  cases nodes with
  | nil =>
      cases compiled
      simp [Node.listLeaves]
  | cons node nodes =>
      rcases result_compileMembers_cons_eq_ok compiled with
        ⟨fragment?, others, first, rest, rfl⟩
      rw [Node.listLeaves, List.append_eq_nil_iff, List.append_eq_nil_iff,
        leaves_eq_nil_iff_of_compileNode node first,
        listLeaves_eq_nil_iff_of_compileMembers nodes rest]
      cases fragment? <;> simp

end

/-! ## Shape of a tree -/

theorem Fragment.OfLeaf.pruned?_leafShape
    {column : String}
    {fragment : Fragment}
    (ofLeaf : Fragment.OfLeaf column fragment)
    (backend : Backend) :
    fragment.leafShape.pruned? = some (fragment.condition backend).shape := by
  cases ofLeaf with
  | one comparing => cases comparing <;> rfl
  | several combinator comparing plural =>
      next members =>
        have leaves : members.map (fun member => (member.condition backend).shape) =
            List.replicate members.length Shape.leaf := by
          apply List.eq_replicate_iff.mpr
          constructor
          · exact List.length_map _
          · intro shape isShape
            rcases List.mem_map.mp isShape with ⟨member, isMember, rfl⟩
            rw [(comparing member isMember).condition_eq backend]
            rfl
        rw [Fragment.leafShape, Fragment.condition, Condition.shape,
          Fragment.conditions_eq_map, Condition.listShape_eq_map, List.map_map,
          Shape.pruned?, List.map_const', Shape.listPruned_replicate_leaf]
        rw [Function.comp_def, leaves]
        cases members with
        | nil => simp at plural
        | cons member members => rfl

mutual

/-- What a tree is compiled into has the shape of the tree without leafless groups. -/
theorem pruned?_shapeWith_of_compileNode
    {target : Target}
    {parenthesized : Bool}
    (node : Node)
    {fragment? : Option Fragment}
    (compiled : (target.compileNode parenthesized node).result = .ok fragment?) :
    (node.shapeWith target.leafShape).pruned? =
      fragment?.map fun fragment => (fragment.condition target.backend).shape := by
  cases node with
  | leaf content =>
      rcases result_compileNode_leaf_eq_ok compiled with ⟨fragment, outcome, rfl⟩
      rcases exists_ofLeaf_of_compileLeaf outcome with ⟨resolved, _, ofLeaf⟩
      rw [Node.shapeWith, Target.leafShape, outcome]
      exact ofLeaf.pruned?_leafShape target.backend
  | group combinator members =>
      rcases result_compileNode_group_eq_ok compiled with ⟨fragments, outcome, rfl⟩
      rw [Node.shapeWith, Shape.pruned?, listPruned_of_compileMembers members outcome]
      cases fragments with
      | nil => rfl
      | cons fragment fragments =>
          simp [groupFragment?, Fragment.condition, Fragment.conditions_eq_map,
            Condition.shape, Condition.listShape_eq_map]

theorem listPruned_of_compileMembers
    {target : Target}
    (nodes : List Node)
    {fragments : List Fragment}
    (compiled : (target.compileMembers nodes).result = .ok fragments) :
    Shape.listPruned (Node.listShapeWith target.leafShape nodes) =
      fragments.map fun fragment => (fragment.condition target.backend).shape := by
  cases nodes with
  | nil =>
      cases compiled
      rfl
  | cons node nodes =>
      rcases result_compileMembers_cons_eq_ok compiled with
        ⟨fragment?, others, first, rest, rfl⟩
      rw [Node.listShapeWith, Shape.listPruned, pruned?_shapeWith_of_compileNode node first,
        listPruned_of_compileMembers nodes rest, List.map_append]
      cases fragment? <;> rfl

end

end ClassStore.Query
