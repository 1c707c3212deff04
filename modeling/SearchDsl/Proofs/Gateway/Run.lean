import SearchDsl.Proofs.Gateway.Events
import SearchDsl.Proofs.Projection.Cache
import SearchDsl.Proofs.Search.Direct

/-!
# Runs of the gateway

A gateway starts from a configuration; then events, requests and readers of its cache come in any
order. A reader brings a snapshot that the registry has published at some time, which may have been
superseded or removed since, and settings of its own.

* `Run.Mapped`, `Run.Unmapped`: how the registry, the cache and its floors fit together for an
index; * `Run.Consistent.compile`, `Run.Consistent.projectById`, `Run.Consistent.lookup`: so only
  events change anything but the counters (`Run.Consistent.step_cases`);
* `Run.Consistent.keeps`, `Run.Consistent.own`: what an event does to the other indices, and to its
  own;
* `Run.Consistent.step`, `Run.consistent_of_reachable`: so every index is in order after every step
  of every run.
-/

namespace SearchDsl

/-- A gateway with the events applied to it, the earliest first, and the snapshots that its registry
has published. -/
structure Run where
  events : List RefreshEvent
  published : List Snapshot
  gateway : Gateway

namespace Run

/-- The snapshots that an event publishes. -/
def publishedBy (g : Gateway) : RefreshEvent → List Snapshot
  | .mappingChanged index mapping => [(g.publish index mapping).1]
  | .settingsChanged _ _ => []
  | .indexRemoved _ => []

/-- The run after an event. -/
def apply (r : Run) (e : RefreshEvent) : Run where
  events := r.events ++ [e]
  published := publishedBy r.gateway e ++ r.published
  gateway := r.gateway.apply e

/-- The run with the cache of its gateway replaced. -/
def withCache (r : Run) (cache : ProjectionCache) : Run :=
  { r with gateway := { r.gateway with cache := cache } }

/-- The run at its start. -/
def start (c : Config) : Run := ⟨[], [], .ofConfig c⟩

/-- One thing that happens. Counters may be changed at any time. -/
inductive Step : Run → Run → Prop
  | event (r : Run) (e : RefreshEvent) : Step r (r.apply e)
  | compile (r : Run) (request : Request) :
      Step r { r with gateway := (r.gateway.compile request).2 }
  | projectById (r : Run) (request : Request) :
      Step r { r with gateway := (r.gateway.projectById request).2 }
  | lookup (r : Run) (s : Snapshot) (settings : Settings) :
      s ∈ r.published → Step r (r.withCache (r.gateway.cache.lookup s settings).2)
  | project (r : Run) (s : Snapshot) (settings : Settings) (includes excludes : List String) :
      s ∈ r.published →
        Step r (r.withCache (r.gateway.cache.project s settings includes excludes).2)
  | count (r : Run) (counters : Option Counters) :
      Step r { r with gateway := { r.gateway with counters := counters } }

/-- The runs that start from a configuration. -/
inductive Reachable (c : Config) : Run → Prop
  | start : Reachable c (start c)
  | step {r r' : Run} : Reachable c r → Step r r' → Reachable c r'

/-! ### The invariant -/

variable {r r' : Run} {i index : String} {s : Snapshot}

/-- What holds of an index that is mapped to a snapshot: no later one has been published for it, and
its defaults are cached. -/
structure Mapped (r : Run) (index : String) (s : Snapshot) : Prop where
  filed : s.index = index
  cached : r.gateway.cache.entries.lookup index =
    some ⟨s.generation, Projection.defaults s (r.gateway.settings.get index)⟩
  newest : ∀ t ∈ r.published, t.index = index → t.generation ≤ s.generation

/-- What holds of an index that is not mapped: nothing is cached for it, and the registry and the
floor of the index are past every snapshot that has been published for it. -/
structure Unmapped (r : Run) (index : String) : Prop where
  uncached : r.gateway.cache.entries.lookup index = none
  retired : ∀ t ∈ r.published, t.index = index → t.generation < r.gateway.mappings.generation
  floored : ∀ t ∈ r.published, t.index = index → t.generation < r.gateway.cache.floor index

/-- The registry, the cache and its floors fit together. -/
structure Consistent (r : Run) : Prop where
  numbered : ∀ t ∈ r.published, t.generation ≤ r.gateway.mappings.generation
  mapped : ∀ {index s}, r.gateway.mappings.get? index = some s → Mapped r index s
  unmapped : ∀ {index}, r.gateway.mappings.get? index = none → Unmapped r index

/-- Nothing is published for the index, and its mapping, settings, entry and floor stay. -/
structure Keeps (r r' : Run) (index : String) : Prop where
  mapping : r'.gateway.mappings.get? index = r.gateway.mappings.get? index
  settings : r'.gateway.settings.get index = r.gateway.settings.get index
  entry : r'.gateway.cache.entries.lookup index = r.gateway.cache.entries.lookup index
  floor : r'.gateway.cache.floor index = r.gateway.cache.floor index
  published : ∀ t ∈ r'.published, t.index = index → t ∈ r.published
  generation : r.gateway.mappings.generation ≤ r'.gateway.mappings.generation

theorem Mapped.keep (h : Mapped r index s) (hk : Keeps r r' index) : Mapped r' index s where
  filed := h.filed
  cached := by rw [hk.entry, hk.settings, h.cached]
  newest t ht hi := h.newest t (hk.published t ht hi) hi

theorem Unmapped.keep (h : Unmapped r index) (hk : Keeps r r' index) : Unmapped r' index where
  uncached := by rw [hk.entry, h.uncached]
  retired t ht hi := Nat.lt_of_lt_of_le (h.retired t (hk.published t ht hi) hi) hk.generation
  floored t ht hi := by
    rw [hk.floor]
    exact h.floored t (hk.published t ht hi) hi

/-! ### Requests and readers -/

namespace Consistent

/-- No published snapshot is ahead of the cache. -/
theorem covers (h : Consistent r) (hs : s ∈ r.published) : r.gateway.cache.Covers s := by
  unfold ProjectionCache.Covers
  -- An entry is as new as the latest snapshot of the index; without one the floor is past them all.
  cases hget : r.gateway.mappings.get? s.index with
  | none =>
    rw [(h.unmapped hget).uncached]
    exact (h.unmapped hget).floored s hs rfl
  | some t =>
    rw [(h.mapped hget).cached]
    exact (h.mapped hget).newest s hs rfl

/-- What is cached for the current snapshot of an index, under its own name. -/
theorem cached_current (h : Consistent r) (hget : r.gateway.mappings.get? index = some s) :
    r.gateway.cache.entries.lookup s.index =
      some ⟨s.generation, Projection.defaults s (r.gateway.settings.get index)⟩ := by
  rw [(h.mapped hget).filed]
  exact (h.mapped hget).cached

/-- **A search changes the counters at most.** -/
theorem compile (h : Consistent r) (request : Request) : ∃ counters,
    (r.gateway.compile request).2 = { r.gateway with counters := counters } := by
  unfold Gateway.compile Registry.snapshot
  cases hget : r.gateway.mappings.get? request.index with
  | none => exact ⟨_, rfl⟩
  | some s =>
    -- The current snapshot finds its own entry, so nothing is entered.
    have hcovers := ProjectionCache.covers_of_cached (h.cached_current hget)
    have hcache : ∀ settings limit,
        (Search.ofRequest s settings limit r.gateway.cache request).cache = r.gateway.cache := by
      intro settings limit
      rcases @Search.ofRequest_cache s settings limit r.gateway.cache request with hc | hc
      · exact hc
      · rw [hc, ProjectionCache.lookup_of_covers hcovers]
    dsimp only
    rw [hcache]
    exact ⟨_, rfl⟩

/-- **A request for documents by their ids changes nothing.** -/
theorem projectById (h : Consistent r) (request : Request) :
    (r.gateway.projectById request).2 = r.gateway := by
  unfold Gateway.projectById Registry.snapshot
  cases hget : r.gateway.mappings.get? request.index with
  | none => rfl
  | some s =>
    have hcovers := ProjectionCache.covers_of_cached (h.cached_current hget)
    dsimp only
    rw [ProjectionCache.project_of_covers hcovers]

/-- **A reader changes nothing, however old its snapshot is.** -/
theorem lookup (h : Consistent r) (hs : s ∈ r.published) (settings : Settings) :
    r.withCache (r.gateway.cache.lookup s settings).2 = r := by
  rw [ProjectionCache.lookup_of_covers (h.covers hs)]
  rfl

theorem count (h : Consistent r) (counters : Option Counters) :
    Consistent { r with gateway := { r.gateway with counters := counters } } where
  numbered := h.numbered
  mapped hget := ⟨(h.mapped hget).filed, (h.mapped hget).cached, (h.mapped hget).newest⟩
  unmapped hget :=
    ⟨(h.unmapped hget).uncached, (h.unmapped hget).retired, (h.unmapped hget).floored⟩

end Consistent

/-! ### Events -/

/-- Settings that are not valid are ignored. -/
theorem keeps_invalid {settings : Settings} (h : settings.isValid = false) (index : String) :
    Keeps r (r.apply (.settingsChanged i settings)) index := by
  unfold Run.apply
  rw [Gateway.apply_invalid h]
  exact ⟨rfl, rfl, rfl, rfl, fun _ ht _ => ht, Nat.le_refl _⟩

namespace Consistent

/-- **An event keeps everything about the indices that it is not about.** -/
theorem keeps (h : Consistent r) (e : RefreshEvent) (hi : index ≠ e.index) :
    Keeps r (r.apply e) index := by
  have hgeneration := r.gateway.generation_apply e
  cases e with
  | mappingChanged i m =>
    refine ⟨?_, rfl, ?_, ProjectionCache.floor_refresh hi, ?_, hgeneration⟩
    · exact (Registry.get?_publish m).trans (if_neg hi)
    · exact ProjectionCache.entry_refresh.trans (if_neg hi)
    · intro t ht hindex
      rcases List.mem_cons.1 ht with rfl | ht
      · exact absurd hindex.symm hi
      · exact ht
  | settingsChanged i settings =>
    have hsettings : (r.gateway.settings.set i settings).get index = r.gateway.settings.get index :=
      (SettingsTable.get_set settings).trans (if_neg hi)
    cases hvalid : settings.isValid with
    | false => exact keeps_invalid hvalid index
    | true =>
      unfold Run.apply
      cases hget : r.gateway.mappings.get? i with
      | none =>
        rw [Gateway.apply_settings_unmapped hvalid hget]
        refine ⟨rfl, hsettings, ?_, ?_, fun _ ht _ => ht, Nat.le_refl _⟩
        · exact ProjectionCache.entry_invalidate.trans (if_neg hi)
        · exact ProjectionCache.floor_invalidate.trans (if_neg hi)
      | some s =>
        -- The refresh goes by the name in the snapshot, which is that of the event.
        have hne : index ≠ s.index := by rwa [(h.mapped hget).filed]
        rw [Gateway.apply_settings_mapped hvalid hget]
        refine ⟨rfl, hsettings, ?_, ProjectionCache.floor_refresh hne, fun _ ht _ => ht,
          Nat.le_refl _⟩
        exact ProjectionCache.entry_refresh.trans (if_neg hne)
  | indexRemoved i =>
    refine ⟨?_, SettingsTable.get_erase hi, ?_, ?_, fun _ ht _ => ht, hgeneration⟩
    · exact Registry.get?_remove.trans (if_neg hi)
    · exact ProjectionCache.entry_invalidate.trans (if_neg hi)
    · exact ProjectionCache.floor_invalidate.trans (if_neg hi)

/-- A published mapping comes with a generation later than all others. -/
theorem mapped_publish (h : Consistent r) (i : String) (m : Mapping) :
    Mapped (r.apply (.mappingChanged i m)) i (r.gateway.publish i m).1 where
  filed := rfl
  cached := ProjectionCache.entry_refresh.trans (if_pos rfl)
  newest t ht _ := by
    rcases List.mem_cons.1 ht with rfl | ht
    · exact Nat.le_refl _
    · exact Nat.le_succ_of_le (h.numbered t ht)

/-- New settings of a mapped index refresh its defaults. -/
theorem mapped_settings (h : Consistent r) {settings : Settings} (hvalid : settings.isValid = true)
    (hget : r.gateway.mappings.get? i = some s) :
    Mapped (r.apply (.settingsChanged i settings)) i s := by
  obtain ⟨hfiled, -, hnewest⟩ := h.mapped hget
  unfold Run.apply
  rw [Gateway.apply_settings_mapped hvalid hget]
  refine ⟨hfiled, ?_, hnewest⟩
  dsimp only
  rw [ProjectionCache.entry_refresh, if_pos hfiled.symm, SettingsTable.get_set, if_pos rfl]

/-- New settings of an index that is not mapped raise its floor to the generation of the registry,
which is past all its snapshots. -/
theorem unmapped_settings (h : Consistent r) {settings : Settings}
    (hvalid : settings.isValid = true) (hget : r.gateway.mappings.get? i = none) :
    Unmapped (r.apply (.settingsChanged i settings)) i := by
  obtain ⟨-, hretired, -⟩ := h.unmapped hget
  unfold Run.apply
  rw [Gateway.apply_settings_unmapped hvalid hget]
  refine ⟨ProjectionCache.entry_invalidate.trans (if_pos rfl), hretired, fun t ht hi => ?_⟩
  exact Nat.lt_of_lt_of_eq (hretired t ht hi)
    (ProjectionCache.floor_invalidate.trans (if_pos rfl)).symm

/-- The removal of an index raises its floor past all its snapshots. -/
theorem unmapped_remove (h : Consistent r) (i : String) :
    Unmapped (r.apply (.indexRemoved i)) i := by
  have hpast : ∀ t ∈ r.published, t.index = i →
      t.generation < (r.gateway.mappings.remove i).generation := by
    intro t ht hi
    rw [Registry.generation_remove]
    cases hget : r.gateway.mappings.get? i with
    | none => exact (h.unmapped hget).retired t ht hi
    | some s => exact Nat.lt_succ_of_le (h.numbered t ht)
  refine ⟨ProjectionCache.entry_invalidate.trans (if_pos rfl), hpast, fun t ht hi => ?_⟩
  exact Nat.lt_of_lt_of_eq (hpast t ht hi)
    (ProjectionCache.floor_invalidate.trans (if_pos rfl)).symm

theorem numbered_apply (h : Consistent r) (e : RefreshEvent) :
    ∀ t ∈ (r.apply e).published, t.generation ≤ (r.apply e).gateway.mappings.generation := by
  intro t ht
  rcases List.mem_append.1 ht with hnew | ht
  · cases e with
    | mappingChanged i m =>
      obtain rfl := List.mem_singleton.1 hnew
      exact Nat.le_refl _
    | settingsChanged i settings => cases hnew
    | indexRemoved i => cases hnew
  · exact Nat.le_trans (h.numbered t ht) (r.gateway.generation_apply e)

/-- What an event does to the index that it is about. -/
theorem own (h : Consistent r) (e : RefreshEvent) :
    (∀ s, (r.apply e).gateway.mappings.get? e.index = some s → Mapped (r.apply e) e.index s) ∧
      ((r.apply e).gateway.mappings.get? e.index = none → Unmapped (r.apply e) e.index) := by
  cases e with
  | mappingChanged i m =>
    have hget : (r.apply (.mappingChanged i m)).gateway.mappings.get? i =
        some (r.gateway.publish i m).1 := (Registry.get?_publish m).trans (if_pos rfl)
    refine ⟨fun s hs => ?_, fun hs => ?_⟩
    · rw [RefreshEvent.index, hget] at hs
      cases hs
      exact h.mapped_publish i m
    · rw [RefreshEvent.index, hget] at hs
      cases hs
  | settingsChanged i settings =>
    cases hvalid : settings.isValid with
    | false =>
      have hk := @keeps_invalid r i settings hvalid i
      refine ⟨fun s hs => ?_, fun hs => ?_⟩
      · exact (h.mapped (hk.mapping.symm.trans hs)).keep hk
      · exact (h.unmapped (hk.mapping.symm.trans hs)).keep hk
    | true =>
      have hget : (r.apply (.settingsChanged i settings)).gateway.mappings.get? i =
          r.gateway.mappings.get? i :=
        congrArg (·.get? i) (r.gateway.mappings_settingsChanged i settings)
      refine ⟨fun s hs => ?_, fun hs => ?_⟩
      · exact h.mapped_settings hvalid (hget.symm.trans hs)
      · exact h.unmapped_settings hvalid (hget.symm.trans hs)
  | indexRemoved i =>
    have hget : (r.apply (.indexRemoved i)).gateway.mappings.get? i = none :=
      Registry.get?_remove.trans (if_pos rfl)
    refine ⟨fun s hs => ?_, fun _ => h.unmapped_remove i⟩
    rw [RefreshEvent.index, hget] at hs
    cases hs

/-- **Every event keeps the registry, the cache and its floors together.** -/
theorem event (h : Consistent r) (e : RefreshEvent) : Consistent (r.apply e) where
  numbered := h.numbered_apply e
  mapped := by
    intro index s hget
    by_cases hi : index = e.index
    · subst hi
      exact (h.own e).1 s hget
    · have hk := h.keeps e hi
      exact (h.mapped (hk.mapping.symm.trans hget)).keep hk
  unmapped := by
    intro index hget
    by_cases hi : index = e.index
    · subst hi
      exact (h.own e).2 hget
    · have hk := h.keeps e hi
      exact (h.unmapped (hk.mapping.symm.trans hget)).keep hk

/-! ### Runs -/

theorem start (c : Config) : Consistent (Run.start c) where
  numbered _ ht := absurd ht List.not_mem_nil
  mapped hget := by cases hget
  unmapped _ :=
    ⟨rfl, fun _ ht => absurd ht List.not_mem_nil, fun _ ht => absurd ht List.not_mem_nil⟩

/-- **Only events change anything but the counters.** -/
theorem step_cases (h : Consistent r) (hs : Step r r') :
    (∃ e, r' = r.apply e) ∨
      ∃ counters, r' = { r with gateway := { r.gateway with counters := counters } } := by
  cases hs with
  | event e => exact .inl ⟨e, rfl⟩
  | compile request =>
    obtain ⟨counters, hg⟩ := h.compile request
    exact .inr ⟨counters, by rw [hg]⟩
  | projectById request => exact .inr ⟨r.gateway.counters, by rw [h.projectById request]⟩
  | lookup s settings hs => exact .inr ⟨r.gateway.counters, h.lookup hs settings⟩
  | project s settings includes excludes hs =>
    exact .inr ⟨r.gateway.counters, h.lookup hs settings⟩
  | count counters => exact .inr ⟨counters, rfl⟩

theorem step (h : Consistent r) (hs : Step r r') : Consistent r' := by
  obtain ⟨e, rfl⟩ | ⟨counters, rfl⟩ := h.step_cases hs
  · exact h.event e
  · exact h.count counters

end Consistent

/-- **The registry, the cache and its floors fit together at every moment of a run.** -/
theorem consistent_of_reachable {c : Config} (h : Reachable c r) : Consistent r := by
  induction h with
  | start => exact .start c
  | step _ hs ih => exact ih.step hs

end Run
end SearchDsl
