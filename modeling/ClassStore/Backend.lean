/-!
# Database backends

Searches are compiled and schemas are generated for one of two databases.
Every decision that separates them is a function on `Backend`.
-/

namespace ClassStore

/-- The databases that statements are written for. -/
inductive Backend where
  | postgres
  | sqlite
deriving DecidableEq, Repr

/-- The name by which settings and requests choose a backend. -/
def Backend.name : Backend → String
  | .postgres => "postgres"
  | .sqlite => "sqlite"

def Backend.all : List Backend :=
  [.postgres, .sqlite]

instance : Inhabited Backend :=
  ⟨.postgres⟩

end ClassStore
