/-!
# Faults of a catalog

The reasons for which a list of classes is refused.
-/

namespace ClassStore.Catalog

/-- Why classes do not form a catalog. -/
inductive CatalogError where
  | duplicateClass (key : String)
  | unknownClass (key target : String)
  | extendsAndMediates (key : String)
  | duplicateAttribute (key attr : String)
  | cycle (key : String)
deriving DecidableEq, Repr

def CatalogError.message : CatalogError → String
  | .duplicateClass key => "class `" ++ key ++ "` is declared more than once"
  | .unknownClass key target =>
      "class `" ++ key ++ "` refers to unknown class `" ++ target ++ "`"
  | .extendsAndMediates key =>
      "class `" ++ key ++ "` cannot both extend and mediate another class"
  | .duplicateAttribute key attr =>
      "attribute `" ++ attr ++ "` is declared more than once in class `" ++ key ++ "`"
  | .cycle key => "class `" ++ key ++ "` is part of an inheritance or reference cycle"

end ClassStore.Catalog
