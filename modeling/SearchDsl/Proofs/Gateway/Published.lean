import Mathlib.Data.List.Nodup
import SearchDsl.Proofs.Gateway.Run
import SearchDsl.Proofs.Projection.Listed

/-!
# Projections of published snapshots

The registry counts its changes over all indices, so no two of the snapshots that it publishes are
of one generation. An entry of the cache that has the generation of a reader's snapshot has
therefore been computed from this very snapshot, and what it holds need not be looked up again.

Nothing else is needed of the order in which things happen. So mappings may here be published and
removed, and defaults refreshed and invalidated, one by one and not only as the parts of an event,
with readers in between (`Run.Change`).

* `ProjectionCache.IsOf`: every entry has been computed from one of some snapshots;
* `Run.Traced`, `Run.traced_of_attainable`: the published snapshots have their generations to
  themselves, and the current ones and those of the entries are among them;
* `Run.lookup_of_attainable`: so a reader gets defaults of its own snapshot, however old it is;
* `Run.project_of_attainable`: and its requests are answered with names that its snapshot knows.
-/

namespace SearchDsl

/-! ### Entries and their snapshots -/

namespace ProjectionCache

variable {c : ProjectionCache} {snapshots : List Snapshot} {s : Snapshot} {settings : Settings}

/-- Every entry has been computed from one of the snapshots, with whatever settings. -/
def IsOf (c : ProjectionCache) (snapshots : List Snapshot) : Prop :=
  ∀ index entry, c.entries.lookup index = some entry →
    ∃ s ∈ snapshots, s.generation = entry.generation ∧
      ∃ settings, entry.fields = Projection.defaults s settings

theorem IsOf.cons (h : c.IsOf snapshots) (s : Snapshot) : c.IsOf (s :: snapshots) := by
  intro index entry hentry
  obtain ⟨t, ht, hfields⟩ := h index entry hentry
  exact ⟨t, List.mem_cons_of_mem _ ht, hfields⟩

theorem IsOf.enter (h : c.IsOf snapshots) (hs : s ∈ snapshots) (settings : Settings) :
    (c.enter s (Projection.defaults s settings)).IsOf snapshots := by
  intro index entry hentry
  rw [ProjectionCache.enter, Table.lookup_set] at hentry
  split at hentry
  · cases hentry
    exact ⟨s, hs, rfl, settings, rfl⟩
  · exact h index entry hentry

theorem IsOf.lookup (h : c.IsOf snapshots) (hs : s ∈ snapshots) (settings : Settings) :
    (c.lookup s settings).2.IsOf snapshots := by
  unfold ProjectionCache.lookup
  cases c.entries.lookup s.index with
  | none =>
    dsimp only
    split
    · exact h.enter hs settings
    · exact h
  | some cached =>
    dsimp only
    split
    · exact h
    · split
      · exact h.enter hs settings
      · exact h

theorem IsOf.refresh (h : c.IsOf snapshots) (hs : s ∈ snapshots) (settings : Settings) :
    (c.refresh s settings).2.IsOf snapshots :=
  IsOf.enter h hs settings

theorem IsOf.invalidate (h : c.IsOf snapshots) (index : String) (generation : Nat) :
    (c.invalidate index generation).IsOf snapshots := by
  intro i entry hentry
  rw [entry_invalidate] at hentry
  split at hentry
  · cases hentry
  · exact h i entry hentry

end ProjectionCache

namespace Run

/-! ### Single changes -/

/-- The run with a mapping published and nothing refreshed. -/
def publish (r : Run) (index : String) (mapping : Mapping) : Run :=
  { r with
    published := (r.gateway.publish index mapping).1 :: r.published
    gateway := (r.gateway.publish index mapping).2 }

/-- The run with an index removed from the registry and nothing invalidated. -/
def remove (r : Run) (index : String) : Run :=
  { r with gateway := { r.gateway with mappings := r.gateway.mappings.remove index } }

/-- A step of a run, or one of the changes that events consist of. -/
inductive Change : Run → Run → Prop
  | step {r r' : Run} : Step r r' → Change r r'
  | publish (r : Run) (index : String) (mapping : Mapping) : Change r (r.publish index mapping)
  | remove (r : Run) (index : String) : Change r (r.remove index)
  | refresh (r : Run) (s : Snapshot) (settings : Settings) :
      s ∈ r.published → Change r (r.withCache (r.gateway.cache.refresh s settings).2)
  | invalidate (r : Run) (index : String) (generation : Nat) :
      Change r (r.withCache (r.gateway.cache.invalidate index generation))

/-- The runs that start from a configuration and go on in any order of changes. -/
inductive Attainable (c : Config) : Run → Prop
  | start : Attainable c (start c)
  | change {r r' : Run} : Attainable c r → Change r r' → Attainable c r'

theorem attainable_of_reachable {c : Config} {r : Run} (h : Reachable c r) : Attainable c r := by
  induction h with
  | start => exact .start
  | step _ hs ih => exact .change ih (.step hs)

/-! ### The invariant -/

/-- No two published snapshots are of one generation, and the current snapshots of all indices and
those that the entries have been computed from have been published. -/
structure Traced (published : List Snapshot) (m : Registry) (c : ProjectionCache) : Prop where
  numbered : ∀ t ∈ published, t.generation ≤ m.generation
  generations : (published.map (·.generation)).Nodup
  current : ∀ {index s}, m.get? index = some s → s ∈ published
  cached : c.IsOf published

namespace Traced

variable {published : List Snapshot} {m : Registry} {c : ProjectionCache} {s : Snapshot}

/-- A generation tells the published snapshots apart, whatever their indices are. -/
theorem eq_of_generation (h : Traced published m c) {t : Snapshot} (hs : s ∈ published)
    (ht : t ∈ published) (hgeneration : s.generation = t.generation) : s = t :=
  List.inj_on_of_nodup_map h.generations hs ht hgeneration

theorem withCache {c' : ProjectionCache} (h : Traced published m c) (hc : c'.IsOf published) :
    Traced published m c' :=
  { h with cached := hc }

/-- A snapshot is published under a generation past all others. -/
theorem publish (h : Traced published m c) (i : String) (mapping : Mapping) :
    Traced ((m.publish i mapping).1 :: published) (m.publish i mapping).2 c where
  numbered t ht := by
    rcases List.mem_cons.1 ht with rfl | ht
    · exact Nat.le_refl _
    · exact Nat.le_succ_of_le (h.numbered t ht)
  generations := by
    refine List.nodup_cons.2 ⟨fun hmem => ?_, h.generations⟩
    obtain ⟨t, ht, hgeneration⟩ := List.mem_map.1 hmem
    have hle := h.numbered t ht
    rw [hgeneration] at hle
    exact Nat.not_succ_le_self _ hle
  current {index s} hget := by
    rw [Registry.get?_publish] at hget
    split at hget
    · cases hget
      exact List.mem_cons_self
    · exact List.mem_cons_of_mem _ (h.current hget)
  cached := h.cached.cons _

theorem remove (h : Traced published m c) (i : String) : Traced published (m.remove i) c where
  numbered t ht := by
    have hle := h.numbered t ht
    rw [Registry.generation_remove]
    split
    · exact Nat.le_succ_of_le hle
    · exact hle
  generations := h.generations
  current {index s} hget := by
    rw [Registry.get?_remove] at hget
    split at hget
    · cases hget
    · exact h.current hget
  cached := h.cached

end Traced

/-- What a run has published goes with its registry and its cache. -/
def IsTraced (r : Run) : Prop := Traced r.published r.gateway.mappings r.gateway.cache

variable {c : Config} {r r' : Run} {s : Snapshot}

namespace IsTraced

/-- An event publishes or removes a mapping, and then refreshes or invalidates. -/
theorem apply (h : r.IsTraced) (e : RefreshEvent) : (r.apply e).IsTraced := by
  cases e with
  | mappingChanged i m =>
    have hpublished := Traced.publish h i m
    exact hpublished.withCache (hpublished.cached.refresh List.mem_cons_self _)
  | settingsChanged i settings =>
    unfold IsTraced Run.apply
    cases hvalid : settings.isValid with
    | false =>
      rw [Gateway.apply_invalid hvalid]
      exact h
    | true =>
      cases hget : r.gateway.mappings.get? i with
      | none =>
        rw [Gateway.apply_settings_unmapped hvalid hget]
        exact h.withCache (h.cached.invalidate _ _)
      | some s =>
        rw [Gateway.apply_settings_mapped hvalid hget]
        exact h.withCache (h.cached.refresh (h.current hget) _)
  | indexRemoved i => exact (Traced.remove h i).withCache (h.cached.invalidate _ _)

theorem compile (h : r.IsTraced) (request : Request) :
    IsTraced { r with gateway := (r.gateway.compile request).2 } := by
  unfold IsTraced Gateway.compile Registry.snapshot
  cases hget : r.gateway.mappings.get? request.index with
  | none => exact h
  | some s =>
    refine h.withCache ?_
    dsimp only
    rcases Search.ofRequest_cache with hc | hc
    · rw [hc]
      exact h.cached
    · rw [hc]
      exact h.cached.lookup (h.current hget) _

theorem projectById (h : r.IsTraced) (request : Request) :
    IsTraced { r with gateway := (r.gateway.projectById request).2 } := by
  unfold IsTraced Gateway.projectById Registry.snapshot
  cases hget : r.gateway.mappings.get? request.index with
  | none => exact h
  | some s => exact h.withCache (h.cached.lookup (h.current hget) _)

theorem step (h : r.IsTraced) (hs : Step r r') : r'.IsTraced := by
  cases hs with
  | event e => exact h.apply e
  | compile request => exact h.compile request
  | projectById request => exact h.projectById request
  | lookup s settings hs => exact h.withCache (h.cached.lookup hs settings)
  | project s settings includes excludes hs => exact h.withCache (h.cached.lookup hs settings)
  | count counters => exact h

theorem change (h : r.IsTraced) (hc : Change r r') : r'.IsTraced := by
  cases hc with
  | step hs => exact h.step hs
  | publish index mapping => exact Traced.publish h index mapping
  | remove index => exact Traced.remove h index
  | refresh s settings hs => exact h.withCache (h.cached.refresh hs settings)
  | invalidate index generation => exact h.withCache (h.cached.invalidate index generation)

end IsTraced

/-- **Snapshots and entries can be traced at every moment**, in whatever order things change. -/
theorem traced_of_attainable (h : Attainable c r) : r.IsTraced := by
  induction h with
  | start =>
    refine ⟨fun _ ht => absurd ht List.not_mem_nil, .nil, ?_, ?_⟩
    · intro index s hget
      cases hget
    · intro index entry hentry
      cases hentry
  | change _ hc ih => exact ih.change hc

/-! ### Readers -/

/-- **A reader gets defaults of its own snapshot**, whether they have been cached or not. -/
theorem lookup_of_attainable (h : Attainable c r) (hs : s ∈ r.published) (settings : Settings) :
    ∃ settings', (r.gateway.cache.lookup s settings).1 = Projection.defaults s settings' := by
  have htraced := traced_of_attainable h
  unfold ProjectionCache.lookup
  cases hentry : r.gateway.cache.entries.lookup s.index with
  | none =>
    dsimp only
    split <;> exact ⟨settings, rfl⟩
  | some entry =>
    dsimp only
    split
    · -- The snapshot of the entry can only be the one at hand.
      rename_i hgeneration
      obtain ⟨t, ht, hentered, settings', hfields⟩ := htraced.cached s.index entry hentry
      obtain rfl := htraced.eq_of_generation ht hs (hentered.trans hgeneration)
      exact ⟨settings', hfields⟩
    · split <;> exact ⟨settings, rfl⟩

/-- **What a projection holds.** A request on a published snapshot, the current one of its index or
a former one, is refused just if it asks for a name that this snapshot does not know, and for the
first such name, includes before excludes. Otherwise the names in both lists are known to this
snapshot, each once and in the order of their first mention, and no name is in both. -/
theorem project_of_attainable (h : Attainable c r) (hs : s ∈ r.published) (settings : Settings)
    (includes excludes : List String) :
    let defaults := (r.gateway.cache.lookup s settings).1
    let answer := (r.gateway.cache.project s settings includes excludes).1
    (∀ e, answer = .error e ↔
      ∃ n, Projection.firstUnknown s (Projection.asked includes ++ Projection.asked excludes) =
        some n ∧ e = .unknownField n s.index) ∧
    ∀ out, answer = .ok out →
      Projection.Listed s (Projection.named defaults.includes includes) out.includes ∧
      Projection.Listed s (Projection.named defaults.excludes excludes) out.excludes ∧
      out.includes.Disjoint out.excludes := by
  intro defaults answer
  obtain ⟨settings', hdefaults⟩ := lookup_of_attainable h hs settings
  have hanswer : answer = Projection.ofRequest s defaults includes excludes := rfl
  rw [hanswer, show defaults = _ from hdefaults]
  exact ⟨fun e => Projection.ofRequest_eq_error_iff, fun out => Projection.listed_ofRequest⟩

/-- A snapshot that is superseded without a refresh, and a field that only the current one knows;
then the defaults, which name an old field twice, and an exclude. -/
theorem project_of_attainable_held :
    let c := Config.standard
    let first := (Mapping.empty.field "id" (.leaf .keyword)).field "area" (.leaf .float)
    let second := Mapping.empty.field "price" (.leaf .long)
    let settings := { Settings.standard with sourceIncludes := ["id", "price", "area", " id "] }
    let held := ((Gateway.ofConfig c).publish "listings" first).1
    let r := ((start c).apply (.mappingChanged "listings" first)).publish "listings" second
    Attainable c r ∧ held ∈ r.published ∧
      (r.gateway.cache.project held settings ["id", "price"] ["size"]).1 =
        .error (.unknownField "price" "listings") ∧
      ∃ out, (r.gateway.cache.project held settings ["id", "area", " id "] [" area "]).1 = .ok out ∧
        Projection.Listed held (Projection.asked ["id", "area", " id "]) out.includes := by
  intro c first second settings held r
  have hr : Attainable c r :=
    .change (attainable_of_reachable (.step .start (.event _ _))) (.publish _ _ _)
  have hheld : held ∈ r.published := List.mem_cons_of_mem _ (List.mem_singleton_self held)
  refine ⟨hr, hheld, ?_, ?_⟩
  · exact ((project_of_attainable hr hheld settings ["id", "price"] ["size"]).1 _).2
      ⟨"price", by decide +kernel, rfl⟩
  · have hok : (r.gateway.cache.project held settings ["id", "area", " id "] [" area "]).1.isOk =
        true := by decide +kernel
    obtain ⟨out, hout⟩ := exists_eq_ok hok
    exact ⟨out, hout,
      ((project_of_attainable hr hheld settings ["id", "area", " id "] [" area "]).2 out hout).1⟩

end Run
end SearchDsl
