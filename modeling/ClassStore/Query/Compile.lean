import ClassStore.Query.Leaf
import ClassStore.Search.Parser

/-!
# Compilation of a search

A search tree becomes the condition, the order and the extent of a query,
together with the values bound to its placeholders.  Groups without leaves
demand nothing and disappear.  Every group but the outermost is written between
parentheses.
-/

namespace ClassStore.Query

open ClassStore.Search

/-- A compiled search; the binds belong to the placeholders in their order. -/
structure Compiled where
  whereClause : String
  orderClause : String
  limitClause : String
  binds : List Scalar
deriving DecidableEq

/-- A clause after a blank, unless it is empty. -/
def spaced (clause : String) : String :=
  if clause.isEmpty then "" else " " ++ clause

/-- The query that selects the result from a view. -/
def Compiled.selectSql (compiled : Compiled) (view : String) : String :=
  "SELECT * FROM " ++ view ++
    (if compiled.whereClause.isEmpty then "" else " WHERE " ++ compiled.whereClause) ++
    spaced compiled.orderClause ++ spaced compiled.limitClause

mutual

/-- Compiles a tree; one without leaves becomes nothing. -/
def Target.compileNode (target : Target) (parenthesized : Bool) :
    Node → Compiling (Option Fragment)
  | .leaf content => do
      let fragment ← target.compileLeaf content
      pure (some fragment)
  | .group combinator members => do
      let fragments ← target.compileMembers members
      pure (if fragments.isEmpty then
        none
      else
        some (.group combinator fragments parenthesized))

def Target.compileMembers (target : Target) : List Node → Compiling (List Fragment)
  | [] => pure []
  | node :: nodes => do
      let fragment ← target.compileNode true node
      let fragments ← target.compileMembers nodes
      pure (fragment.toList ++ fragments)

end

/-- The condition of a tree, empty if it demands nothing. -/
def Target.whereClause (target : Target) (node : Node) : Compiling String := do
  let fragment ← target.compileNode false node
  match fragment with
  | some fragment => pure (fragment.sql target.backend)
  | none => pure ""

/-- The columns to sort by, each with its direction. -/
def Target.orderTerms (target : Target) :
    List String → List SortOrder → Except CompileError (List String)
  | [], _ => .ok []
  | path :: paths, sortOrders => do
      let (column, _) ← target.column path
      let sortOrder := sortOrders.head?.getD .ascending
      let terms ← target.orderTerms paths (sortOrders.drop 1)
      .ok ((column ++ " " ++ sortOrder.sql) :: terms)

/-- The order of the result, empty if none is asked for. -/
def Target.orderClause (target : Target) (constraints : Constraints) :
    Except CompileError String :=
  if constraints.orderBy.length < constraints.sortOrder.length then
    .error (.constraints
      (.tooManySortOrders constraints.sortOrder.length constraints.orderBy.length))
  else if constraints.orderBy.isEmpty then
    .ok ""
  else do
    let terms ← target.orderTerms constraints.orderBy constraints.sortOrder
    .ok ("ORDER BY " ++ String.intercalate ", " terms)

/-- Binds a number of rows, which has to fit into a signed value. -/
def bindCount (what : String) (value : UInt64) : Compiling Unit :=
  match Text.toInt64? value.toNat with
  | some count => bindValue (.integer count)
  | none => throw (.constraints (.outOfRange what value))

/-- The extent of the result; SQLite takes an offset only after a limit. -/
def limitClause (backend : Backend) (constraints : Constraints) : Compiling String :=
  match constraints.limit, constraints.offset with
  | none, none => pure ""
  | some limit, none => do
      bindCount "limit" limit
      pure "LIMIT ?"
  | some limit, some offset => do
      bindCount "limit" limit
      bindCount "offset" offset
      pure "LIMIT ? OFFSET ?"
  | none, some offset => do
      bindCount "offset" offset
      match backend with
      | .postgres => pure "OFFSET ?"
      | .sqlite => pure "LIMIT -1 OFFSET ?"

def Target.compileClauses (target : Target) (node : Node) (constraints : Constraints) :
    Compiling (String × String × String) := do
  let whereClause ← target.whereClause node
  let orderClause ← ExceptT.mk (pure (target.orderClause constraints))
  let limitClause ← limitClause target.backend constraints
  pure (whereClause, orderClause, limitClause)

/-- Compiles a search tree on a class. -/
def compile (backend : Backend) (catalog : Catalog) (key : String) (node : Node)
    (constraints : Constraints) : Except CompileError Compiled :=
  match (Target.compileClauses ⟨backend, catalog, key⟩ node constraints).run.run [] with
  | (.ok (whereClause, orderClause, limitClause), binds) =>
      .ok ⟨whereClause, orderClause, limitClause, binds⟩
  | (.error error, _) => .error error

/-- Why a search fails: it is not one, or it cannot be compiled. -/
inductive SearchError where
  | parse (error : ParseError)
  | compile (error : CompileError)
deriving DecidableEq, Repr

/-- Compiles the tree that was read, if one was. -/
def compileParsed (backend : Backend) (catalog : Catalog) (key : String)
    (constraints : Constraints) : Except ParseError Node → Except SearchError Compiled
  | .error error => .error (.parse error)
  | .ok node => (compile backend catalog key node constraints).mapError SearchError.compile

def searchText (backend : Backend) (catalog : Catalog) (key text : String)
    (constraints : Constraints) : Except SearchError Compiled :=
  compileParsed backend catalog key constraints (parseText catalog key text)

def searchTerms (backend : Backend) (catalog : Catalog) (key : String) (terms : List Term)
    (constraints : Constraints) : Except SearchError Compiled :=
  compileParsed backend catalog key constraints (parseTerms catalog key terms)

end ClassStore.Query
