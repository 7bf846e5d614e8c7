import ClassStore.Search.Operator
import ClassStore.Search.Scalar

/-!
# Search trees

A parsed search is a tree of groups whose leaves compare one attribute path
with values.  The tree does not depend on the database that it will be compiled
for.
-/

namespace ClassStore.Search

/-- What a leaf compares its attribute with. -/
inductive Value where
  | scalar (value : Scalar)
  | pair (low high : Scalar)
  | list (values : List Scalar)
  | null
deriving DecidableEq

/-- The comparison of one attribute path. -/
structure Leaf where
  path : String
  operator : Operator
  negated : Bool
  value : Value
deriving DecidableEq

/-- A leaf, or a group of trees. -/
inductive Node where
  | leaf (content : Leaf)
  | group (combinator : Combinator) (members : List Node)

/-- The groups of a tree without what its leaves compare. -/
inductive Shape where
  | leaf
  | group (combinator : Combinator) (members : List Shape)

/-- The leaf that holds of exactly the other values. -/
def Leaf.negate (leaf : Leaf) : Leaf :=
  { leaf with negated := !leaf.negated }

/-- Negates a leaf and leaves a group alone. -/
def Node.negate : Node → Node
  | .leaf content => .leaf content.negate
  | .group combinator members => .group combinator members

mutual

def Node.shape : Node → Shape
  | .leaf _ => .leaf
  | .group combinator members => .group combinator (Node.shapes members)

def Node.shapes : List Node → List Shape
  | [] => []
  | node :: nodes => node.shape :: Node.shapes nodes

end

mutual

/-- The leaves of a tree from left to right. -/
def Node.leaves : Node → List Leaf
  | .leaf content => [content]
  | .group _ members => Node.listLeaves members

/-- The leaves of trees from left to right. -/
def Node.listLeaves : List Node → List Leaf
  | [] => []
  | node :: nodes => node.leaves ++ Node.listLeaves nodes

end

end ClassStore.Search
