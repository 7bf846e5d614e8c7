import ClassStore.Catalog.SemanticType

/-!
# Faults of a schema

The reasons for which no schema can be generated for a class.
-/

namespace ClassStore.Schema

open ClassStore.Catalog

/-- What is wrong with the default of an attribute. -/
inductive DefaultFault where
  | notInteger
  | outOfRange (type : SemanticType)
  | notValid (type : SemanticType)
deriving DecidableEq, Repr

def DefaultFault.message : DefaultFault → String
  | .notInteger => "not an integer"
  | .outOfRange type => "out of range for " ++ type.name
  | .notValid type => "not a valid " ++ type.name

/-- Why no schema can be generated. -/
inductive SchemaError where
  | unmappedType (key name : String) (type : SemanticType)
  | invalidDefault (key name value : String) (fault : DefaultFault)
  | unknownClass (key : String)
deriving DecidableEq, Repr

def SchemaError.message : SchemaError → String
  | .unmappedType key name type =>
      "attribute `" ++ name ++ "` of class `" ++ key ++ "` has type `" ++ type.name ++
        "`, which has no column mapping"
  | .invalidDefault key name value fault =>
      "default `" ++ value ++ "` for `" ++ key ++ "." ++ name ++ "` is invalid: " ++ fault.message
  | .unknownClass key => "unknown class `" ++ key ++ "`"

end ClassStore.Schema
