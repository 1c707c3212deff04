import SearchDsl.Gateway
import SearchDsl.Proofs.Expr.Built
import SearchDsl.Proofs.Expr.Refusals
import SearchDsl.Proofs.Query.Layout

/-!
# Which requests are refused

A request is refused because its index is not mapped, or because of the first of its parts that is
at fault. The sort is no such part. Every refusal is one that the client has to correct.

* `Search.Refuses`: the part that a request is refused for;
* `Search.kind_of_refuses`: what a part can be refused by;
* `Search.result_eq_error_iff`: refusals have no other reason;
* `Gateway.refusal`: all of this for a gateway.
-/

namespace SearchDsl

namespace Search

/-- The parts of a request that can be at fault. -/
inductive Stage
  | text
  | filter
  | facets
  | projection
  deriving DecidableEq, Repr

/-- The kinds of errors by which the part is refused. -/
def Stage.kinds : Stage → List String
  | .text => ["invalid_request", "invalid_field"]
  | .filter => Reading.exprKinds
  | .facets => ["syntax_error", "invalid_field", "invalid_request"]
  | .projection => ["invalid_field"]

section Refusals

variable (schema : Snapshot) (settings : Settings) (limit : Nat) (cache : ProjectionCache)
  (request : Request)

/-- The part is the first one at fault, for which the error stands. -/
inductive Refuses : Stage → Error → Prop
  | text {e : Error} : FreeText.query schema settings request = .error e → Refuses .text e
  | filter {q : Option Query} {e : Error} :
      FreeText.query schema settings request = .ok q →
      filterQuery schema settings limit request.filter = .error e → Refuses .filter e
  | facets {q : Option Query} {f : Query} {e : Error} :
      FreeText.query schema settings request = .ok q →
      filterQuery schema settings limit request.filter = .ok f →
      requestAggregations schema settings request = .error e → Refuses .facets e
  | projection {q : Option Query} {f : Query} {as : List Aggregation} {e : Error} :
      FreeText.query schema settings request = .ok q →
      filterQuery schema settings limit request.filter = .ok f →
      requestAggregations schema settings request = .ok as →
      (cache.project schema settings request.includeFields request.excludeFields).1 = .error e →
      Refuses .projection e

end Refusals

variable {schema : Snapshot} {settings : Settings} {limit : Nat} {cache : ProjectionCache}
  {request : Request}

/-! ### The parts -/

theorem failsOnly_text : FailsOnly Stage.text.kinds (FreeText.query schema settings request) := by
  have hfield : "invalid_field" ∈ Stage.text.kinds := by simp [Stage.kinds]
  have hname : ∀ spec, FailsOnly Stage.text.kinds (FreeText.fieldName spec) := by
    intro spec
    unfold FreeText.fieldName
    split
    · exact .ok _
    · refine .ite (.ok _) (.error ?_)
      simp [Stage.kinds, Error.kind]
  unfold FreeText.query
  split
  · exact .ok _
  · refine FailsOnly.bind (.foldlM (fun gs spec => ?_) _ _) fun _ _ => .ok _
    refine FailsOnly.bind ?_ fun _ _ => .ok _
    refine (hname spec).bind fun name _ => ?_
    exact (Snapshot.failsOnly_resolve hfield _ _ _).bind fun _ _ => .ok _

/-- The query for an expression that has been read is never refused. -/
theorem failsOnly_filter (filter : Option String) :
    FailsOnly Stage.filter.kinds (filterQuery schema settings limit filter) := by
  unfold filterQuery
  split
  · exact .ok _
  · refine (Expr.failsOnly_read _ _).bind fun e he => ?_
    obtain ⟨c, hc, -⟩ := Query.exists_lays_ofExpr ⟨settings.nearDistance, []⟩
      (Expr.built_of_read he).isMade
    rw [hc]
    exact .ok _

theorem failsOnly_facet (g : Grammar) (r : Reading) :
    FailsOnly Stage.facets.kinds (r.facet g) := by
  have htext : "syntax_error" ∈ Stage.facets.kinds := by simp [Stage.kinds]
  have hfield : "invalid_field" ∈ Stage.facets.kinds := by simp [Stage.kinds]
  have hcheck : ∀ field, FailsOnly Stage.facets.kinds (Reading.checkCountable field) := by
    intro field
    unfold Reading.checkCountable
    split
    · refine .ite (.ok _) (.error ?_)
      simp [Stage.kinds, Error.kind]
    · exact .ok _
  have hnot : FailsOnly Stage.facets.kinds r.leadingNot :=
    .ite ((Reading.failsOnly_advance htext r).bind fun _ _ => .ok _) (.ok _)
  refine hnot.bind fun n _ => (Reading.failsOnly_field htext hfield n.2).bind fun field _ => ?_
  exact (hcheck field.1).bind fun _ _ => .ok _

theorem failsOnly_facets :
    FailsOnly Stage.facets.kinds (requestAggregations schema settings request) := by
  have htext : "syntax_error" ∈ Stage.facets.kinds := by simp [Stage.kinds]
  unfold requestAggregations
  split
  · exact .ok _
  · refine FailsOnly.bind ?_ fun _ _ => .ok _
    refine (Reading.failsOnly_start htext _).bind fun r _ => ?_
    refine .ite (Reading.failsOnly_fault htext r _) ?_
    refine (Reading.failsOnly_commaList htext (failsOnly_facet _) _ _).bind fun fields _ => ?_
    exact .ite (.ok _) (Reading.failsOnly_fault htext fields.2 _)

theorem failsOnly_projection (includes excludes : List String) :
    FailsOnly Stage.projection.kinds (cache.project schema settings includes excludes).1 := by
  have hfield : "invalid_field" ∈ Stage.projection.kinds := List.mem_singleton_self _
  have hchosen : ∀ default requested,
      FailsOnly Stage.projection.kinds (Projection.chosen schema default requested) := by
    intro default requested
    refine .ite (FailsOnly.bind (.forM (fun name => ?_) _) fun _ _ => .ok _) (.ok _)
    exact (Snapshot.failsOnly_resolve hfield _ _ _).bind fun _ _ => .ok _
  exact (hchosen _ _).bind fun _ _ => (hchosen _ _).bind fun _ _ => .ok _

/-- **What a part can be refused by.** -/
theorem kind_of_refuses {stage : Stage} {e : Error}
    (h : Refuses schema settings limit cache request stage e) : e.kind ∈ stage.kinds := by
  cases h with
  | text he => exact failsOnly_text e he
  | filter _ he => exact failsOnly_filter _ e he
  | facets _ _ he => exact failsOnly_facets e he
  | projection _ _ _ he => exact failsOnly_projection _ _ e he

theorem isClientError_of_kind {stage : Stage} {e : Error} (h : e.kind ∈ stage.kinds) :
    e.isClientError = true := by
  cases stage <;> cases e <;> first | rfl | simp [Stage.kinds, Reading.exprKinds, Error.kind] at h

/-- The four parts decide, in this order. The sort is made whatever its text is. -/
theorem result_eq :
    (ofRequest schema settings limit cache request).result = (do
      let text ← FreeText.query schema settings request
      let filter ← filterQuery schema settings limit request.filter
      let aggregations ← requestAggregations schema settings request
      let projection ←
        (cache.project schema settings request.includeFields request.excludeFields).1
      pure ⟨request.index, Page.ofRequest settings request.offset request.size,
        .bool { Clauses.empty with must := text.toList, filter := [filter] },
        (SortClause.ofRequest schema settings request.sort request.disableSort).1, aggregations,
        projection⟩) := by
  unfold ofRequest requestQuery
  cases FreeText.query schema settings request with
  | error e => rfl
  | ok text =>
    simp only [ok_bind]
    cases filterQuery schema settings limit request.filter with
    | error e => rfl
    | ok filter =>
      simp only [ok_bind]
      cases requestAggregations schema settings request <;> rfl

/-- **Refusals have no other reason** than one of the parts. -/
theorem result_eq_error_iff {e : Error} :
    (ofRequest schema settings limit cache request).result = .error e ↔
      ∃ stage, Refuses schema settings limit cache request stage e := by
  rw [result_eq]
  simp only [bind_eq_error, pure, Except.pure, reduceCtorEq, and_false, exists_false, or_false]
  constructor
  · rintro (htext | ⟨q, htext, hfilter | ⟨f, hfilter, hfacets | ⟨as, hfacets, hproject⟩⟩⟩)
    · exact ⟨_, .text htext⟩
    · exact ⟨_, .filter htext hfilter⟩
    · exact ⟨_, .facets htext hfilter hfacets⟩
    · exact ⟨_, .projection htext hfilter hfacets hproject⟩
  · rintro ⟨stage, h⟩
    cases h with
    | text htext => exact .inl htext
    | filter htext hfilter => exact .inr ⟨_, htext, .inl hfilter⟩
    | facets htext hfilter hfacets => exact .inr ⟨_, htext, .inr ⟨_, hfilter, .inl hfacets⟩⟩
    | projection htext hfilter hfacets hproject =>
      exact .inr ⟨_, htext, .inr ⟨_, hfilter, .inr ⟨_, hfacets, hproject⟩⟩⟩

/-- None of the parts looks at the requested sort or at the default one. -/
theorem result_eq_error_of_sort {e : Error} (sort : Option String) (disabled : Bool)
    (default : String) (off : Bool) :
    (ofRequest schema { settings with defaultSort := default, sortDisabled := off } limit cache
      { request with sort := sort, disableSort := disabled }).result = .error e ↔
        (ofRequest schema settings limit cache request).result = .error e := by
  rw [result_eq_error_iff, result_eq_error_iff]
  refine exists_congr fun stage => ⟨fun h => ?_, fun h => ?_⟩
  · cases h with
    | text htext => exact .text htext
    | filter htext hfilter => exact .filter htext hfilter
    | facets htext hfilter hfacets => exact .facets htext hfilter hfacets
    | projection htext hfilter hfacets hproject =>
      exact .projection htext hfilter hfacets hproject
  · cases h with
    | text htext => exact .text htext
    | filter htext hfilter => exact .filter htext hfilter
    | facets htext hfilter hfacets => exact .facets htext hfilter hfacets
    | projection htext hfilter hfacets hproject =>
      exact .projection htext hfilter hfacets hproject

end Search

namespace Gateway

/-- The request is for an index without a mapping, and the error says so. -/
def IsUnmapped (g : Gateway) (request : Request) (e : Error) : Prop :=
  g.mappings.get? request.index = none ∧ e = .unknownIndex request.index

variable {g : Gateway} {request : Request} {e : Error}

theorem compile_eq_error_iff :
    (g.compile request).1 = .error e ↔
      g.IsUnmapped request e ∨ ∃ schema, g.mappings.get? request.index = some schema ∧
        (Search.ofRequest schema (g.settings.get request.index) g.limit g.cache request).result =
          .error e := by
  unfold compile IsUnmapped Registry.snapshot
  cases g.mappings.get? request.index <;> simp [eq_comm]

theorem projectById_eq_error_iff :
    (g.projectById request).1 = .error e ↔
      g.IsUnmapped request e ∨ ∃ schema, g.mappings.get? request.index = some schema ∧
        (g.cache.project schema (g.settings.get request.index) request.includeFields
          request.excludeFields).1 = .error e := by
  unfold projectById IsUnmapped Registry.snapshot
  cases g.mappings.get? request.index <;> simp [eq_comm]

/-- **What a gateway refuses.** A request is refused because its index is not mapped, before
anything else is looked at, or because one of its parts is the first one at fault; a request for
documents by their ids because of its index or its projection. Each part is refused by errors of its
own kinds, and every refusal is one that the client has to correct. The sort refuses nothing,
whatever the requested and the default one are. -/
theorem refusal (g : Gateway) (request : Request) (e : Error) :
    let settings := g.settings.get request.index
    let refuses := fun schema => Search.Refuses schema settings g.limit g.cache request
    ((g.compile request).1 = .error e ↔
      g.IsUnmapped request e ∨
        ∃ schema stage, g.mappings.get? request.index = some schema ∧ refuses schema stage e) ∧
    ((g.projectById request).1 = .error e ↔
      g.IsUnmapped request e ∨ ∃ schema, g.mappings.get? request.index = some schema ∧
        (g.cache.project schema settings request.includeFields request.excludeFields).1 =
          .error e) ∧
    (∀ schema stage, refuses schema stage e → e.kind ∈ stage.kinds) ∧
    (∀ grammar text, Expr.read grammar text = .error e → e.kind ∈ Search.Stage.filter.kinds) ∧
    (∀ schema, (g.cache.project schema settings request.includeFields request.excludeFields).1 =
      .error e → e.kind ∈ Search.Stage.projection.kinds) ∧
    ((g.compile request).1 = .error e ∨ (g.projectById request).1 = .error e →
      e.isClientError = true) ∧
    ∀ schema, g.mappings.get? request.index = some schema →
      ∀ sort disabled default off,
        (Search.ofRequest schema { settings with defaultSort := default, sortDisabled := off }
          g.limit g.cache { request with sort := sort, disableSort := disabled }).result =
            .error e ↔ (g.compile request).1 = .error e := by
  intro settings refuses
  have hcompile : (g.compile request).1 = .error e ↔ g.IsUnmapped request e ∨
      ∃ schema stage, g.mappings.get? request.index = some schema ∧ refuses schema stage e := by
    rw [compile_eq_error_iff]
    simp only [Search.result_eq_error_iff, exists_and_left]
    rfl
  refine ⟨hcompile, projectById_eq_error_iff, fun _ _ => Search.kind_of_refuses,
    fun _ _ => Expr.failsOnly_read _ _ e, fun _ => Search.failsOnly_projection _ _ e, ?_, ?_⟩
  · rintro (h | h)
    · rcases hcompile.1 h with ⟨-, rfl⟩ | ⟨schema, stage, -, hrefuses⟩
      · rfl
      · exact Search.isClientError_of_kind (Search.kind_of_refuses hrefuses)
    · rcases projectById_eq_error_iff.1 h with ⟨-, rfl⟩ | ⟨schema, -, hproject⟩
      · rfl
      · exact Search.isClientError_of_kind (Search.failsOnly_projection _ _ e hproject)
  · intro schema hschema sort disabled default off
    have hmapped : ¬ g.IsUnmapped request e := by
      rintro ⟨hnone, -⟩
      rw [hschema] at hnone
      cases hnone
    rw [compile_eq_error_iff, Search.result_eq_error_of_sort]
    simp only [hschema, hmapped, false_or, Option.some.injEq, exists_eq_left']
    rfl

/-- A field that is not mapped among those to return, beside a sort that cannot be read. -/
theorem refusal_of_missing_field :
    let schema := Snapshot.ofMapping "listings" (Mapping.empty.field "id" (.leaf .keyword)) 1
    let g := { Gateway.ofConfig .standard with mappings := ⟨[("listings", schema)], 1⟩ }
    let request := { Request.forIndex "listings" with
      sort := some "id SIDEWAYS", includeFields := ["id", "missing"] }
    let e := Error.unknownField "missing" "listings"
    (g.compile request).1 = .error e ∧ e.isClientError = true ∧
      (∃ schema stage, g.mappings.get? "listings" = some schema ∧
        Search.Refuses schema (g.settings.get "listings") g.limit g.cache request stage e ∧
        e.kind ∈ stage.kinds) ∧
      g.mappings.get? "listings" = some schema ∧
      (Search.ofRequest schema
        { g.settings.get "listings" with defaultSort := "missing", sortDisabled := false } g.limit
        g.cache { request with sort := none, disableSort := false }).result = .error e := by
  intro schema g request e
  have hget : g.mappings.get? "listings" = some schema := rfl
  have he : (g.compile request).1 = .error e := rfl
  obtain ⟨hcompile, -, hkinds, -, -, hclient, hsort⟩ := refusal g request e
  refine ⟨he, hclient (.inl he), ?_, hget, (hsort schema hget none false "missing" false).2 he⟩
  rcases hcompile.1 he with ⟨hnone, -⟩ | ⟨schema', stage, hschema, hrefuses⟩
  · cases hnone
  · exact ⟨schema', stage, hschema, hrefuses, hkinds schema' stage hrefuses⟩

end Gateway
end SearchDsl
