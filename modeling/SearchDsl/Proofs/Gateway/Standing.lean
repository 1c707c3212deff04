import SearchDsl.Proofs.Gateway.Run

/-!
# The cache of default projections cannot be observed

The mapping and the settings of an index as the configuration and the events up to now have it: the
last mapping applied, unless the index has been removed since, and the last valid settings. From
these the answers to requests follow (`Standing.search`, `Standing.projection`), with no registry,
no generations and no cache.

* `Run.standing_of_reachable`: the registry and the settings have what the events say;
* `Run.answers_of_reachable`: what is cached for an index is what its snapshot and its settings make
  of it, and requests are answered as if there were no cache.
-/

namespace SearchDsl

/-- The mapping of an index, if it has one, and its own settings, if it has any. -/
structure Standing where
  mapping : Option Mapping
  settings : Option Settings

namespace Standing

/-- The standing of an index at the start. -/
def ofConfig (c : Config) (index : String) : Standing := ⟨none, c.indices.lookup index⟩

/-- The standing of the index after an event. -/
def after (index : String) (st : Standing) : RefreshEvent → Standing
  | .mappingChanged i mapping => if index = i then { st with mapping := some mapping } else st
  | .settingsChanged i settings =>
    if settings.isValid ∧ index = i then { st with settings := some settings } else st
  | .indexRemoved i => if index = i then ⟨none, none⟩ else st

/-- The standing of the index after all the events, the earliest first. -/
def afterAll (c : Config) (events : List RefreshEvent) (index : String) : Standing :=
  events.foldl (after index) (ofConfig c index)

theorem afterAll_concat (c : Config) (events : List RefreshEvent) (e : RefreshEvent)
    (index : String) :
    afterAll c (events ++ [e]) index = after index (afterAll c events index) e := by
  simp only [afterAll, List.foldl_append, List.foldl_cons, List.foldl_nil]

/-- The settings that count: the index's own or the default ones. -/
def current (st : Standing) : Settings := st.settings.getD .standard

/-- The answer to a search. -/
def search (st : Standing) (limit : Nat) (request : Request) : Except Error Search :=
  match st.mapping with
  | some m => Search.direct (.ofMapping request.index m 0) st.current limit request
  | none => .error (.unknownIndex request.index)

/-- The answer to a request for documents by their ids. -/
def projection (st : Standing) (request : Request) : Except Error Projection :=
  match st.mapping with
  | some m => Projection.direct (.ofMapping request.index m 0) st.current request
  | none => .error (.unknownIndex request.index)

end Standing

/-! ### What the gateway has -/

namespace Gateway

/-- The standing of an index as the registry and the settings of the gateway have it. -/
def standing (g : Gateway) (index : String) : Standing where
  mapping := (g.mappings.get? index).map Snapshot.mapping
  settings := g.settings.entries.lookup index

theorem standing_apply (g : Gateway) (e : RefreshEvent) (index : String) :
    (g.apply e).standing index = (g.standing index).after index e := by
  cases e with
  | mappingChanged i m =>
    show (⟨((g.mappings.publish i m).2.get? index).map Snapshot.mapping, _⟩ : Standing) = _
    rw [Registry.get?_publish, Standing.after]
    split <;> rfl
  | settingsChanged i settings =>
    rw [Standing.after]
    cases hvalid : settings.isValid with
    | false => rw [apply_invalid hvalid, if_neg (fun h => Bool.false_ne_true h.1)]
    | true =>
      have hlookup : ∀ cache, ({ g with
          settings := g.settings.set i settings, cache := cache } : Gateway).standing index =
          if index = i then { g.standing index with settings := some settings }
          else g.standing index := by
        intro cache
        show (⟨_, (Table.set i settings g.settings.entries).lookup index⟩ : Standing) = _
        rw [Table.lookup_set]
        split <;> rfl
      simp only [true_and]
      cases hget : g.mappings.get? i with
      | none => rw [apply_settings_unmapped hvalid hget, hlookup]
      | some s => rw [apply_settings_mapped hvalid hget, hlookup]
  | indexRemoved i =>
    show (⟨((g.mappings.remove i).get? index).map Snapshot.mapping,
      (Table.erase i g.settings.entries).lookup index⟩ : Standing) = _
    rw [Registry.get?_remove, Table.lookup_erase, Standing.after]
    split <;> rfl

theorem limit_apply (g : Gateway) (e : RefreshEvent) : (g.apply e).limit = g.limit := by
  cases e with
  | mappingChanged i m => rfl
  | settingsChanged i settings =>
    show (if !settings.isValid then g else _).limit = g.limit
    split <;> rfl
  | indexRemoved i => rfl

end Gateway

namespace Run

variable {c : Config} {r : Run}

/-- **The registry and the settings have what the events say**, and the limit stays. -/
theorem standing_of_reachable (h : Reachable c r) :
    (∀ index, r.gateway.standing index = Standing.afterAll c r.events index) ∧
      r.gateway.limit = c.maxFragments := by
  induction h with
  | start => exact ⟨fun _ => rfl, rfl⟩
  | step hr hs ih =>
    -- Only an event is recorded, and only an event changes more than the counters.
    obtain ⟨e, rfl⟩ | ⟨counters, rfl⟩ := (consistent_of_reachable hr).step_cases hs
    · refine ⟨fun index => ?_, (Gateway.limit_apply _ e).trans ih.2⟩
      rw [Run.apply, Standing.afterAll_concat, Gateway.standing_apply, ih.1]
    · exact ih

/-! ### Answers -/

theorem Consistent.compile_answer (h : Consistent r) (request : Request) :
    (r.gateway.compile request).1 =
      (r.gateway.standing request.index).search r.gateway.limit request := by
  unfold Gateway.compile Registry.snapshot Standing.search Gateway.standing
  cases hget : r.gateway.mappings.get? request.index with
  | none => rfl
  | some s =>
    have hlookup := congrArg Prod.fst (@ProjectionCache.lookup_of_cached _ _
      (r.gateway.settings.get request.index) _ (h.cached_current hget))
    have halike : s.Alike (.ofMapping request.index s.mapping 0) := ⟨(h.mapped hget).filed, rfl⟩
    show (Search.ofRequest s _ _ _ _).result = Search.direct _ _ _ _
    rw [Search.ofRequest_result hlookup, Search.direct_congr halike]
    rfl

theorem Consistent.projectById_answer (h : Consistent r) (request : Request) :
    (r.gateway.projectById request).1 = (r.gateway.standing request.index).projection request := by
  unfold Gateway.projectById Registry.snapshot Standing.projection Gateway.standing
  cases hget : r.gateway.mappings.get? request.index with
  | none => rfl
  | some s =>
    have hlookup := congrArg Prod.fst (@ProjectionCache.lookup_of_cached _ _
      (r.gateway.settings.get request.index) _ (h.cached_current hget))
    have halike : s.Alike (.ofMapping request.index s.mapping 0) := ⟨(h.mapped hget).filed, rfl⟩
    show Projection.ofRequest s (r.gateway.cache.lookup s _).1 _ _ = Projection.direct _ _ _
    rw [hlookup, ← Projection.direct_congr halike]
    rfl

/-- **The cache cannot be observed.** Whatever events, requests and readers have come, what is
cached for a mapped index belongs to its snapshot, which is of the mapping last applied, and is what
the snapshot and the settings of the index make of it; for other indices nothing is cached. Requests
are answered by the last mapping, the last settings and the limit. -/
theorem answers_of_reachable (h : Reachable c r) (index : String) :
    let standing := Standing.afterAll c r.events index
    (∀ s, r.gateway.mappings.get? index = some s →
      s.index = index ∧ standing.mapping = some s.mapping ∧
        r.gateway.cache.entries.lookup index =
          some ⟨s.generation, Projection.defaults s (r.gateway.settings.get index)⟩) ∧
    (r.gateway.mappings.get? index = none →
      standing.mapping = none ∧ r.gateway.cache.entries.lookup index = none) ∧
    r.gateway.settings.get index = standing.current ∧
    ∀ request, request.index = index →
      (r.gateway.compile request).1 = standing.search c.maxFragments request ∧
        (r.gateway.projectById request).1 = standing.projection request := by
  have hconsistent := consistent_of_reachable h
  obtain ⟨hstanding, hlimit⟩ := standing_of_reachable h
  intro standing
  have hmapping : standing.mapping = (r.gateway.mappings.get? index).map Snapshot.mapping :=
    congrArg Standing.mapping (hstanding index).symm
  refine ⟨fun s hget => ?_, fun hget => ?_, ?_, ?_⟩
  · rw [hmapping, hget]
    exact ⟨(hconsistent.mapped hget).filed, rfl, (hconsistent.mapped hget).cached⟩
  · rw [hmapping, hget]
    exact ⟨rfl, (hconsistent.unmapped hget).uncached⟩
  · exact congrArg Standing.current (hstanding index)
  · rintro request rfl
    rw [hconsistent.compile_answer, hconsistent.projectById_answer, hstanding, hlimit]
    exact ⟨rfl, rfl⟩

/-- An index that is removed and mapped anew, with readers of its first snapshot in between and at
the end. -/
theorem answers_of_reachable_anew :
    let c := Config.standard
    let first := Mapping.empty.field "id" (.leaf .keyword)
    let second := Mapping.empty.field "price" (.leaf .long)
    let settings := { Settings.standard with sourceIncludes := ["id", "price"] }
    let held := ((Gateway.ofConfig c).publish "listings" first).1
    let removed := ((start c).apply (.mappingChanged "listings" first)).apply
      (.indexRemoved "listings")
    let reread := removed.withCache (removed.gateway.cache.lookup held settings).2
    let anew := (reread.apply (.mappingChanged "listings" second)).apply
      (.settingsChanged "listings" settings)
    let r := anew.withCache (anew.gateway.cache.lookup held .standard).2
    Reachable c r ∧
      (r.gateway.projectById (Request.forIndex "listings")).1.toOption = some ⟨["price"], []⟩ := by
  intro c first second settings held removed reread anew r
  have hremoved : Reachable c removed := .step (.step .start (.event _ _)) (.event _ _)
  have hreread : Reachable c reread :=
    .step hremoved (.lookup _ held settings (List.mem_singleton_self held))
  have hanew : Reachable c anew := .step (.step hreread (.event _ _)) (.event _ _)
  have hr : Reachable c r :=
    .step hanew (.lookup _ held .standard (List.mem_cons_of_mem _ (List.mem_singleton_self held)))
  refine ⟨hr, ?_⟩
  -- The settings of the first time are gone with the index, and so is its field.
  rw [((answers_of_reachable hr "listings").2.2.2 _ rfl).2]
  decide +kernel

end Run
end SearchDsl
