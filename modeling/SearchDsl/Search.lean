import SearchDsl.Facet
import SearchDsl.FreeText
import SearchDsl.Projection.Cache
import SearchDsl.Sorting.Clause

/-!
# Compiled searches

A request against one mapping and one set of settings becomes a search that the backend can run: a
query, the clauses of the sort, the aggregations, the projection and a page. The parts are looked at
in that order, and the first one at fault decides.
-/

namespace SearchDsl

/-- The part of the results that is wanted. -/
structure Page where
  offset : Nat
  size : Nat
  deriving DecidableEq, Repr

/-- The page of a request: a negative offset counts as none, and a size that is negative or too
large is replaced by the default one. -/
def Page.ofRequest (settings : Settings) (offset size : Option Int) : Page where
  offset := (offset.getD 0).toNat
  size := match size with
    | some n => if 0 ≤ n && n.toNat ≤ settings.maxSize then n.toNat else settings.defaultSize
    | none => settings.defaultSize

/-- A search that the backend can run. -/
structure Search where
  index : String
  page : Page
  query : Query
  sort : List SortClause
  aggregations : List Aggregation
  projection : Projection
  deriving Repr

namespace Search

/-- The body of the backend's request. Sort and aggregations are left out where there are none. -/
def toJson (s : Search) : Json := Json.record <|
  [("from", .nat s.page.offset), ("size", .nat s.page.size), ("query", s.query.toJson),
   ("_source", s.projection.toJson)] ++
  (if s.sort.isEmpty then [] else [("sort", .array (s.sort.map SortClause.toJson))]) ++
  (if s.aggregations.isEmpty then [] else [("aggs", Aggregation.toJson s.aggregations)])

/-- The query for the filter of a request; without one all documents are wanted. -/
def filterQuery (schema : Snapshot) (settings : Settings) (limit : Nat) (filter : Option String) :
    Except Error Query :=
  match Text.nonBlank filter with
  | none => .ok (.primitive .matchAll)
  | some text => do
    let e ← Expr.read ⟨some schema, limit⟩ text
    pure (.bool (← Query.ofExpr ⟨settings.nearDistance, []⟩ e))

/-- The query of a request: its text has to be found, and its filter has to hold. -/
def requestQuery (schema : Snapshot) (settings : Settings) (limit : Nat) (request : Request) :
    Except Error Query := do
  let text ← FreeText.query schema settings request
  let filter ← filterQuery schema settings limit request.filter
  pure (.bool { Clauses.empty with must := text.toList, filter := [filter] })

/-- The aggregations of a request. -/
def requestAggregations (schema : Snapshot) (settings : Settings) (request : Request) :
    Except Error (List Aggregation) :=
  match Text.nonBlank request.facets with
  | none => .ok []
  | some text => Aggregation.ofText schema settings request.facetSize text

/-- What compiling a request leaves behind: the search or an error, the cache of projections, and
whether the default sort took the place of the requested one. -/
structure Outcome where
  result : Except Error Search
  cache : ProjectionCache
  sortFellBack : Bool

/-- The search for a request against a mapping and settings. -/
def ofRequest (schema : Snapshot) (settings : Settings) (limit : Nat) (cache : ProjectionCache)
    (request : Request) : Outcome :=
  match requestQuery schema settings limit request with
  | .error e => ⟨.error e, cache, false⟩
  | .ok query =>
    let (sort, fellBack) := SortClause.ofRequest schema settings request.sort request.disableSort
    match requestAggregations schema settings request with
    | .error e => ⟨.error e, cache, fellBack⟩
    | .ok aggregations =>
      let (projection, cache) :=
        cache.project schema settings request.includeFields request.excludeFields
      let page := Page.ofRequest settings request.offset request.size
      ⟨projection.map fun p => ⟨request.index, page, query, sort, aggregations, p⟩, cache, fellBack⟩

end Search
end SearchDsl
