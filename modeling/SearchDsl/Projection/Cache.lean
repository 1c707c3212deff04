import SearchDsl.Projection

/-!
# The cache of default projections

The defaults of an index depend on its mapping and its settings, and are kept from one request to
the next together with the generation of the snapshot they belong to. They are entered by a change
of the mapping or the settings (`refresh`), or by a request that does not find them (`lookup`). A
request may work on a snapshot that has been superseded or removed meanwhile, so its entry never
replaces one of a later generation, and after the removal of an index none is made from a snapshot
older than the removal: that is the *floor* of the index.
-/

namespace SearchDsl

/-- Defaults and the generation of the snapshot they belong to. -/
structure CachedDefaults where
  generation : Nat
  fields : Projection
  deriving DecidableEq, Repr

/-- The cached defaults of the indices, and the floors of those that have been invalidated. -/
structure ProjectionCache where
  entries : List (String × CachedDefaults)
  floors : List (String × Nat)
  deriving DecidableEq, Repr, Inhabited

namespace ProjectionCache

/-- Nothing is cached. -/
def empty : ProjectionCache := ⟨[], []⟩

/-- Something is cached for the index. -/
def contains (c : ProjectionCache) (index : String) : Bool := (c.entries.lookup index).isSome

/-- The cache with the defaults of the snapshot's index replaced. -/
def enter (c : ProjectionCache) (schema : Snapshot) (fields : Projection) : ProjectionCache :=
  { c with entries := Table.set schema.index ⟨schema.generation, fields⟩ c.entries }

/-- The generation that a snapshot of the index must have reached to fill an empty place. -/
def floor (c : ProjectionCache) (index : String) : Nat := (c.floors.lookup index).getD 0

/-- The defaults of the snapshot's index, from the cache if they belong to the same generation.
Otherwise they are computed, and entered if they are not older than what is known. -/
def lookup (c : ProjectionCache) (schema : Snapshot) (settings : Settings) :
    Projection × ProjectionCache :=
  let computed := Projection.defaults schema settings
  match c.entries.lookup schema.index with
  | some cached =>
    if cached.generation = schema.generation then (cached.fields, c)
    else if cached.generation < schema.generation then (computed, c.enter schema computed)
    else (computed, c)
  | none =>
    if c.floor schema.index ≤ schema.generation then (computed, c.enter schema computed)
    else (computed, c)

/-- The defaults of the snapshot's index, computed and entered. A floor that the snapshot has
reached is no longer needed. -/
def refresh (c : ProjectionCache) (schema : Snapshot) (settings : Settings) :
    Projection × ProjectionCache :=
  let computed := Projection.defaults schema settings
  let floors := if c.floor schema.index ≤ schema.generation then Table.erase schema.index c.floors
    else c.floors
  (computed, { c with floors := floors }.enter schema computed)

/-- Nothing is cached for the index any more, and nothing older than the generation will be. -/
def invalidate (c : ProjectionCache) (index : String) (generation : Nat) : ProjectionCache :=
  ⟨Table.erase index c.entries, Table.set index generation c.floors⟩

/-- The projection of a request, on top of the defaults. -/
def project (c : ProjectionCache) (schema : Snapshot) (settings : Settings)
    (includes excludes : List String) : Except Error Projection × ProjectionCache :=
  let (defaults, c) := c.lookup schema settings
  (Projection.ofRequest schema defaults includes excludes, c)

end ProjectionCache
end SearchDsl
