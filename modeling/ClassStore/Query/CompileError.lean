import ClassStore.Query.Constraints
import ClassStore.Search.Mismatch

/-!
# Faults of a compilation

The reasons for which a search tree cannot be compiled.
-/

namespace ClassStore.Query

open ClassStore.Search

/-- Why a search tree cannot be compiled. -/
inductive CompileError where
  | unknownAttribute (path key : String)
  | typeMismatch (path : String) (mismatch : Mismatch)
  | constraints (fault : ConstraintFault)
deriving DecidableEq, Repr

def CompileError.message : CompileError → String
  | .unknownAttribute path key => unknownAttributeReport path key
  | .typeMismatch path mismatch => mismatch.report path
  | .constraints fault => "invalid search constraints: " ++ fault.message

end ClassStore.Query
