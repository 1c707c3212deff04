import SearchDsl.Schema.Registry
import SearchDsl.Search

/-!
# The gateway

The state between requests: the mappings and settings of the indices, the cache of default
projections, and the counters. Requests change the cache and the counters; the rest changes by the
events of `SearchDsl.Gateway.Refresh`.
-/

namespace SearchDsl

/-- How often what has happened. Errors are counted by kind. -/
structure Counters where
  compiled : Nat
  errors : List (String × Nat)
  sortFallbacks : Nat
  refreshes : Nat
  deriving DecidableEq, Repr, Inhabited

namespace Counters

/-- Nothing has happened. -/
def zero : Counters := ⟨0, [], 0, 0⟩

/-- The counts by kind with one more of the given kind. -/
def increment (kind : String) (counts : List (String × Nat)) : List (String × Nat) :=
  Table.set kind ((counts.lookup kind).getD 0 + 1) counts

/-- The counters after a request that has been refused. -/
def afterError (c : Counters) (e : Error) : Counters :=
  { c with errors := increment e.kind c.errors }

/-- The counters after a request. -/
def afterRequest (c : Counters) (result : Except Error α) (sortFellBack : Bool) : Counters :=
  let c := if sortFellBack then { c with sortFallbacks := c.sortFallbacks + 1 } else c
  match result with
  | .ok _ => { c with compiled := c.compiled + 1 }
  | .error e => c.afterError e

theorem sortFallbacks_afterRequest {α : Type} (c : Counters) (result : Except Error α)
    (sortFellBack : Bool) :
    (c.afterRequest result sortFellBack).sortFallbacks = c.sortFallbacks + sortFellBack.toNat := by
  cases sortFellBack <;> cases result <;> rfl

/-- The counters after a refresh event. -/
def afterRefresh (c : Counters) : Counters := { c with refreshes := c.refreshes + 1 }

end Counters

/-- The state of the gateway. Its counters may be left out. -/
structure Gateway where
  mappings : Registry
  settings : SettingsTable
  cache : ProjectionCache
  limit : Nat
  counters : Option Counters

namespace Gateway

/-- The gateway at its start. -/
def ofConfig (c : Config) : Gateway where
  mappings := .empty
  settings := ⟨c.indices⟩
  cache := .empty
  limit := c.maxFragments
  counters := none

/-- The search for a request. -/
def compile (g : Gateway) (request : Request) : Except Error Search × Gateway :=
  match g.mappings.snapshot request.index with
  | .error e => (.error e, { g with counters := g.counters.map (·.afterError e) })
  | .ok schema =>
    let o := Search.ofRequest schema (g.settings.get request.index) g.limit g.cache request
    (o.result, { g with
      cache := o.cache
      counters := g.counters.map (·.afterRequest o.result o.sortFellBack) })

/-- The projection for fetching documents by their ids. -/
def projectById (g : Gateway) (request : Request) : Except Error Projection × Gateway :=
  match g.mappings.snapshot request.index with
  | .error e => (.error e, g)
  | .ok schema =>
    let (p, cache) := g.cache.project schema (g.settings.get request.index) request.includeFields
      request.excludeFields
    (p, { g with cache := cache })

end Gateway
end SearchDsl
