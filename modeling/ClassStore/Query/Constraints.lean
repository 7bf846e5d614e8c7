/-!
# Order and extent of a result

Which attributes a result is sorted by, and which part of it is wanted.
-/

namespace ClassStore.Query

/-- The two directions of sorting. -/
inductive SortOrder where
  | ascending
  | descending
deriving DecidableEq, Repr

/-- The direction as the backends write it. -/
def SortOrder.sql : SortOrder → String
  | .ascending => "ASC"
  | .descending => "DESC"

def SortOrder.every : List SortOrder :=
  [.ascending, .descending]

/--
The order and the extent of a result.

The directions belong to the paths by position.  A path without one is sorted
in ascending order.
-/
structure Constraints where
  orderBy : List String
  sortOrder : List SortOrder
  limit : Option UInt64
  offset : Option UInt64
deriving DecidableEq, Repr

/-- No order is asked for and the whole result is wanted. -/
def Constraints.none : Constraints :=
  ⟨[], [], Option.none, Option.none⟩

/-- What may be wrong with the constraints themselves. -/
inductive ConstraintFault where
  | tooManySortOrders (sortOrders paths : Nat)
  | outOfRange (what : String) (value : UInt64)
deriving DecidableEq, Repr

/-- What is reported of the fault. -/
def ConstraintFault.message : ConstraintFault → String
  | .tooManySortOrders sortOrders paths =>
      toString sortOrders ++ " sort orders for " ++ toString paths ++ " order_by attributes"
  | .outOfRange what value => what ++ " " ++ toString value.toNat ++ " is out of range"

end ClassStore.Query
