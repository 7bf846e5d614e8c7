import ClassStore.Exchange.Json
import ClassStore.Query.Constraints
import ClassStore.Schema.Setting

/-!
# Settings

The constraints of a search and the choices for a schema as JSON.
-/

namespace ClassStore.Exchange

open ClassStore.Query
open ClassStore.Schema

/-- The words for the directions of sorting. -/
def sortOrderWords : List (String × SortOrder) :=
  SortOrder.every.map fun sortOrder => (sortOrder.sql, sortOrder)

/-- The words for the databases. -/
def backendWords : List (String × Backend) :=
  Backend.all.map fun backend => (backend.name, backend)

/-- The constraints of a search; whatever is left out does not constrain it. -/
def decodeConstraints? (json : Json) : Option Constraints := do
  match ← json.record? ["order_by", "sort_order", "limit", "offset"] with
  | [orderBy, sortOrder, limit, offset] =>
      let count := Json.field? (Json.optional? Json.count?) none
      some {
        orderBy := ← Json.field? (Json.list? Json.string?) [] orderBy
        sortOrder := ← Json.field? (Json.list? (Json.word? sortOrderWords)) [] sortOrder
        limit := ← count limit
        offset := ← count offset }
  | _ => none

/-- A direction of sorting as its word. -/
def encodeSortOrder (sortOrder : SortOrder) : Json :=
  .string sortOrder.sql

/-- A number of objects, with all its 64 bits. -/
def encodeCount (count : UInt64) : Json :=
  .integer count.toNat

/-- The constraints of a search, a limit that is not set as null. -/
def encodeConstraints (constraints : Constraints) : Json :=
  .object [
    ("order_by", Json.ofList Json.string constraints.orderBy),
    ("sort_order", Json.ofList encodeSortOrder constraints.sortOrder),
    ("limit", Json.ofOption encodeCount constraints.limit),
    ("offset", Json.ofOption encodeCount constraints.offset)]

/-- The choices for a schema; one that is left out is the default. -/
def decodeConfig? (json : Json) : Option Config := do
  match ← json.record? ["backend", "uuid_generator"] with
  | [backend, uuidGenerator] =>
      some {
        backend := ← Json.field? (Json.word? backendWords) default backend
        uuidGenerator := ← Json.field? (Json.optional? Json.string?) none uuidGenerator }
  | _ => none

/-- The choices for a schema. -/
def encodeConfig (config : Config) : Json :=
  .object [
    ("backend", .string config.backend.name),
    ("uuid_generator", Json.ofOption Json.string config.uuidGenerator)]

end ClassStore.Exchange
