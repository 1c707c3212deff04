import SearchDsl.Proofs.Outcome
import SearchDsl.Proofs.Schema.Alike
import SearchDsl.Search

/-!
# Searches without a cache

The search for a request, with the defaults of its index computed on the spot. It depends on the
mapping and not on the moment of its publication (`direct_congr`), and it is what a request gets
from any cache that has the right defaults (`ofRequest_result`).
-/

namespace SearchDsl

/-- The projection of a request, with the defaults of the index computed on the spot. -/
def Projection.direct (schema : Snapshot) (settings : Settings) (request : Request) :
    Except Error Projection :=
  ofRequest schema (defaults schema settings) request.includeFields request.excludeFields

theorem Projection.direct_congr {s t : Snapshot} (h : s.Alike t) :
    Projection.direct s = Projection.direct t := by
  funext settings request
  simp only [direct, h.projection, h.defaults]

namespace Search

/-- The search for a request, with the defaults of the index computed on the spot. -/
def direct (schema : Snapshot) (settings : Settings) (limit : Nat) (request : Request) :
    Except Error Search := do
  let query ← requestQuery schema settings limit request
  let (sort, _) := SortClause.ofRequest schema settings request.sort request.disableSort
  let aggregations ← requestAggregations schema settings request
  let projection ← Projection.direct schema settings request
  pure ⟨request.index, Page.ofRequest settings request.offset request.size, query, sort,
    aggregations, projection⟩

/-- **A search does not depend on when its mapping was published.** -/
theorem direct_congr {s t : Snapshot} (h : s.Alike t) : direct s = direct t := by
  have hfilter : filterQuery s = filterQuery t := by
    funext settings limit filter
    simp only [filterQuery, h.expr]
  have hquery : requestQuery s = requestQuery t := by
    funext settings limit request
    simp only [requestQuery, h.freeText, hfilter]
  have haggregations : requestAggregations s = requestAggregations t := by
    funext settings request
    simp only [requestAggregations, h.facets]
  funext settings limit request
  simp only [direct, hquery, h.sortOfRequest, haggregations, Projection.direct_congr h]

variable {schema : Snapshot} {settings : Settings} {limit : Nat} {cache : ProjectionCache}
  {request : Request}

/-- A cache with the right defaults makes no difference to the search. -/
theorem ofRequest_result
    (h : (cache.lookup schema settings).1 = Projection.defaults schema settings) :
    (ofRequest schema settings limit cache request).result =
      direct schema settings limit request := by
  -- The parts are looked at in the same order, so the same fault is found first.
  unfold ofRequest direct
  cases requestQuery schema settings limit request with
  | error e => rfl
  | ok query =>
    simp only [ok_bind]
    cases requestAggregations schema settings request with
    | error e => rfl
    | ok aggregations =>
      simp only [ok_bind, ProjectionCache.project, h, Projection.direct]
      rfl

/-- A request reads the cache at most once. -/
theorem ofRequest_cache :
    (ofRequest schema settings limit cache request).cache = cache ∨
      (ofRequest schema settings limit cache request).cache = (cache.lookup schema settings).2 := by
  unfold ofRequest
  split
  · exact .inl rfl
  · dsimp only
    split
    · exact .inl rfl
    · exact .inr rfl

end Search
end SearchDsl
