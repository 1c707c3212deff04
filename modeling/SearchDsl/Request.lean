import SearchDsl.Json.Decode
import SearchDsl.Operator

/-!
# Search requests

A request as a client sends it: texts in the three grammars, lists of field names, and numbers for
paging, none of them checked yet.
-/

namespace SearchDsl

/-- A search request. -/
structure Request where
  index : String
  filter : Option String
  sort : Option String
  disableSort : Bool
  facets : Option String
  facetSize : Option Nat
  includeFields : List String
  excludeFields : List String
  text : Option String
  fields : List String
  operator : Option MatchOperator
  minimumShouldMatch : Option String
  offset : Option Int
  size : Option Int
  deriving DecidableEq, Repr, Inhabited

namespace Request

/-- The request that asks for all documents of an index. -/
def forIndex (index : String) : Request where
  index := index
  filter := none
  sort := none
  disableSort := false
  facets := none
  facetSize := none
  includeFields := []
  excludeFields := []
  text := none
  fields := []
  operator := none
  minimumShouldMatch := none
  offset := none
  size := none

/-- A value that may be missing, as JSON. -/
def optional (toJson : α → Json) (o : Option α) : Json := (o.map toJson).getD .null

/-- The request as JSON. -/
def toJson (r : Request) : Json := Json.record [
  ("index", .string r.index),
  ("filter", optional .string r.filter),
  ("sort", optional .string r.sort),
  ("disable_sort", .bool r.disableSort),
  ("facets", optional .string r.facets),
  ("facet_size", optional .nat r.facetSize),
  ("include_fields", Json.strings r.includeFields),
  ("exclude_fields", Json.strings r.excludeFields),
  ("q", optional .string r.text),
  ("fields", Json.strings r.fields),
  ("operator", optional (fun o => .string o.name) r.operator),
  ("mm", optional .string r.minimumShouldMatch),
  ("from", optional .int r.offset),
  ("size", optional .int r.size)]

/-- The names of the members, in the order of the fields. -/
def names : List String :=
  ["index", "filter", "sort", "disable_sort", "facets", "facet_size", "include_fields",
   "exclude_fields", "q", "fields", "operator", "mm", "from", "size"]

/-- A field that may be missing or null. -/
def optional? (value? : Json → Option α) : Option Json → Option (Option α) :=
  Json.orDefault none (Json.nullable? value?)

/-- The request that a JSON value describes. Every member may be missing, and members of other names
are skipped. -/
def ofJson? (j : Json) : Option Request := do
  let [index, filter, sort, disableSort, facets, facetSize, includes, excludes, text, fields,
    operator, minimum, offset, size] ← j.fields? names | none
  pure {
    index := ← Json.orDefault "" Json.string? index
    filter := ← optional? Json.string? filter
    sort := ← optional? Json.string? sort
    disableSort := ← Json.orDefault false Json.bool? disableSort
    facets := ← optional? Json.string? facets
    facetSize := ← optional? Json.unsigned? facetSize
    includeFields := ← Json.orDefault [] Json.strings? includes
    excludeFields := ← Json.orDefault [] Json.strings? excludes
    text := ← optional? Json.string? text
    fields := ← Json.orDefault [] Json.strings? fields
    operator := ← optional? (Json.named? MatchOperator.ofName?) operator
    minimumShouldMatch := ← optional? Json.string? minimum
    offset := ← optional? Json.signed? offset
    size := ← optional? Json.signed? size }

end Request
end SearchDsl
