import SearchDsl.Proofs.Query.Radius
import SearchDsl.Proofs.Sorting.Scope

/-!
# What the JSON of a sort clause shows

A clause by distance names its field in front of the members for the direction and the unit, which
take its place if they have the same name. The filter of a clause shows what every query does.

* `SortClause.eq_of_toJson`: otherwise the JSON shows the whole clause;
* `SortClause.exists_alike`: where the field is hidden there is another clause with the same JSON;
* `toJson_determines_iff`: which queries and clauses can be read back from their JSON.
-/

namespace SearchDsl

/-! ### Scopes -/

namespace SortScope

theorem member?_innermost (path : String) (filter : Option (Clauses Query)) :
    let j := (innermost path filter).toJson
    j.member? "path" = some (.string path) ∧
      j.member? "filter" = filter.map (fun c => (Query.bool c).toJson) ∧
      j.member? "nested" = none := by
  intro j
  simp only [j, toJson, Json.member?_record]
  cases filter <;> exact ⟨rfl, rfl, rfl⟩

theorem member?_outer (path : String) (inner : SortScope) :
    let j := (outer path inner).toJson
    j.member? "path" = some (.string path) ∧ j.member? "nested" = some inner.toJson := by
  intro j
  simp only [j, toJson, Json.member?_record]
  exact ⟨rfl, rfl⟩

/-- The JSON of a scope shows its paths, and the JSON of its filter. -/
theorem eq_of_toJson {s s' : SortScope} (h : s.toJson = s'.toJson)
    (hfilter : ∀ c c', s.filter? = some c → s'.filter? = some c' →
      (Query.bool c).toJson = (Query.bool c').toJson → c = c') : s = s' := by
  induction s generalizing s' with
  | innermost path filter =>
    obtain ⟨hpath, hf, hnested⟩ := member?_innermost path filter
    rw [h] at hpath hf hnested
    cases s' with
    | innermost path' filter' =>
      obtain ⟨hpath', hf', -⟩ := member?_innermost path' filter'
      obtain rfl := Json.string_unique hpath hpath'
      have hjson := hf.symm.trans hf'
      cases filter <;> cases filter' <;> simp only [Option.map_some, Option.map_none, reduceCtorEq,
        Option.some.injEq] at hjson
      · rfl
      · rw [hfilter _ _ rfl rfl hjson]
    | outer path' inner' =>
      rw [(member?_outer path' inner').2] at hnested
      cases hnested
  | outer path inner ih =>
    obtain ⟨hpath, hnested⟩ := member?_outer path inner
    rw [h] at hpath hnested
    cases s' with
    | innermost path' filter' =>
      rw [(member?_innermost path' filter').2.2] at hnested
      cases hnested
    | outer path' inner' =>
      obtain ⟨hpath', hnested'⟩ := member?_outer path' inner'
      obtain rfl := Json.string_unique hpath hpath'
      rw [ih (Option.some.inj (hnested.symm.trans hnested')) hfilter]

/-- A scope is no place. -/
theorem toJson_ne_geoPoint (s : SortScope) (p : GeoPoint) : s.toJson ≠ p.toJson := by
  intro h
  have hlat := p.member?_toJson.1
  rw [← h] at hlat
  cases s with
  | innermost path filter =>
    rw [toJson, Json.member?_record] at hlat
    cases filter <;> cases hlat
  | outer path inner =>
    rw [toJson, Json.member?_record] at hlat
    cases hlat

/-- The scope with another radius in its filter. -/
def withRadius (radius : String) : SortScope → SortScope
  | innermost path filter => innermost path (filter.map (Clauses.map (Query.withRadius radius)))
  | outer path inner => outer path (inner.withRadius radius)

theorem filter?_withRadius (radius : String) (s : SortScope) :
    (s.withRadius radius).filter? = s.filter?.map (Clauses.map (Query.withRadius radius)) := by
  induction s with
  | innermost path filter => rfl
  | outer path inner ih => exact ih

theorem toJson_withRadius {radius : String} {s : SortScope}
    (h : ∀ c, s.filter? = some c →
      ((Query.bool c).withRadius radius).toJson = (Query.bool c).toJson) :
    (s.withRadius radius).toJson = s.toJson := by
  induction s with
  | innermost path filter =>
    cases filter with
    | none => rfl
    | some c =>
      have hc := h c rfl
      rw [Query.withRadius, Query.map_bool] at hc
      rw [withRadius, toJson, toJson]
      exact congrArg (fun j => Json.record [("path", .string path), ("filter", j)]) hc
  | outer path inner ih => rw [withRadius, toJson, toJson, ih h]

theorem ofPaths_withRadius (radius : String) (filter : Option (Clauses Query))
    (paths : List String) :
    ofPaths (filter.map (Clauses.map (Query.withRadius radius))) paths =
      (ofPaths filter paths).map (withRadius radius) := by
  induction paths with
  | nil => rfl
  | cons path paths ih =>
    rw [ofPaths, ofPaths, ih]
    cases ofPaths filter paths <;> rfl

end SortScope

/-! ### Clauses with another radius -/

namespace SortClause

/-- The clause with another radius in its filter. -/
def withRadius (radius : String) : SortClause → SortClause
  | field name direction scope => field name direction (scope.map (SortScope.withRadius radius))
  | score => score
  | distance name origin direction scope =>
    distance name origin direction (scope.map (SortScope.withRadius radius))

theorem filter?_withRadius (radius : String) (k : SortClause) :
    (k.withRadius radius).filter? = k.filter?.map (Clauses.map (Query.withRadius radius)) := by
  have hscope (scope : Option SortScope) :
      (scope.map (SortScope.withRadius radius)).bind SortScope.filter? =
        (scope.bind SortScope.filter?).map (Clauses.map (Query.withRadius radius)) := by
    cases scope with
    | none => rfl
    | some s => exact s.filter?_withRadius radius
  cases k with
  | field name direction scope => exact hscope scope
  | score => rfl
  | distance name origin direction scope => exact hscope scope

theorem toJson_withRadius {radius : String} {k : SortClause}
    (h : ∀ c, k.filter? = some c →
      ((Query.bool c).withRadius radius).toJson = (Query.bool c).toJson) :
    (k.withRadius radius).toJson = k.toJson := by
  have hscope (scope : Option SortScope) (hs : ∀ c, scope.bind SortScope.filter? = some c →
      ((Query.bool c).withRadius radius).toJson = (Query.bool c).toJson) :
      scopeMember (scope.map (SortScope.withRadius radius)) = scopeMember scope := by
    cases scope with
    | none => rfl
    | some s =>
      simp only [scopeMember, Option.map_some]
      rw [SortScope.toJson_withRadius hs]
  cases k with
  | field name direction scope => rw [withRadius, toJson, toJson, hscope scope h]
  | score => rfl
  | distance name origin direction scope => rw [withRadius, toJson, toJson, hscope scope h]

theorem clause_withRadius (radius : String) (i : SortItem) (filter : Option (Clauses Query)) :
    i.clause (filter.map (Clauses.map (Query.withRadius radius))) =
      (i.clause filter).withRadius radius := by
  unfold SortItem.clause
  rw [SortScope.ofPaths_withRadius]
  cases i.key <;> rfl

variable {settings : Settings} {i : SortItem} {k : SortClause}

theorem ofItem_withRadius (radius : String) (h : ofItem settings i = .ok k) :
    ofItem { settings with nearDistance := radius } i = .ok (k.withRadius radius) := by
  rw [ofItem_eq_ok_iff]
  rcases ofItem_eq_ok_iff.1 h with ⟨hnone, rfl⟩ | ⟨e, q, he, hq, rfl⟩
  · exact .inl ⟨hnone, (clause_withRadius radius i none).symm⟩
  · have hq' := Query.ofExpr_withRadius ⟨settings.nearDistance, i.field.nestedPaths⟩ radius e
    rw [hq] at hq'
    exact .inr ⟨e, _, he, hq', (clause_withRadius radius i (some q)).symm⟩

/-- **With another radius a text gets the same clauses with that radius.** -/
theorem ofText_withRadius {schema : Snapshot} {text : String} {ks : List SortClause}
    (radius : String) (h : ofText schema settings text = .ok ks) :
    ofText schema { settings with nearDistance := radius } text =
      .ok (ks.map (withRadius radius)) := by
  obtain ⟨s, hs, hall⟩ := ofText_eq_ok_iff.1 h
  exact ofText_eq_ok_iff.2 ⟨s, hs, List.forall₂_map_right_iff.2
    (hall.imp fun _ _ hk => ofItem_withRadius radius hk)⟩

end SortClause

/-! ### Clauses of texts -/

namespace SortItem.Derives

variable {g : Grammar} {ts : List Token} {i : SortItem} {n : Nat}

theorem names_eq (h : Derives (Reading.resolve g) ts i n) :
    i.field.names = splitDots i.field.name := by
  obtain ⟨name, hname⟩ := h.exists_name
  rw [Reading.name_of_resolve hname, Reading.names_of_resolve hname]

/-- A place in a text has finite coordinates. -/
theorem isFinite {fields : String → Except Error Field} {origin : GeoPoint}
    (h : Derives fields ts i n) (hkey : i.key = .distance origin) : origin.IsFinite := by
  cases h with
  | intro _ _ hi =>
    cases hi with
    | distance _ _ hv hpoint _ _ =>
      cases hkey
      refine ((Value.onGlobe_toPoint hpoint).2 ?_).isFinite
      rw [hv.points_eq_nil]
      exact List.forall_mem_nil _
    | _ => cases hkey

/-- The relevance is sorted by as such. -/
theorem key_of_isScore {fields : String → Except Error Field} (h : Derives fields ts i n)
    (hscore : i.field.isScore = true) : i.key = .score := by
  cases h with
  | intro _ _ hi =>
    rw [hi.field_eq] at hscore
    cases hi with
    | score => rfl
    | distance hno | value hno | filtered hno => simp [hno] at hscore

end SortItem.Derives

namespace SortClause

variable {settings : Settings} {i : SortItem} {k : SortClause}

/-- The clause is one of those of a text. -/
def IsCompiled (k : SortClause) : Prop :=
  ∃ schema settings text ks, ofText schema settings text = .ok ks ∧ k ∈ ks

namespace IsCompiled

theorem withRadius (h : k.IsCompiled) (radius : String) : (k.withRadius radius).IsCompiled := by
  obtain ⟨schema, settings, text, ks, hks, hk⟩ := h
  exact ⟨schema, _, text, _, ofText_withRadius radius hks, List.mem_map_of_mem hk⟩

theorem exists_item (h : k.IsCompiled) :
    ∃ (schema : Snapshot) (settings : Settings) (i : SortItem) (ts : List Token) (n : Nat),
      SortItem.Derives (Reading.resolve ⟨some schema, Expr.maxFragments⟩) ts i n ∧
        ofItem settings i = .ok k := by
  obtain ⟨schema, settings, text, ks, hks, hk⟩ := h
  obtain ⟨s, -, hall⟩ := exists_read_of_ofText hks
  obtain ⟨i, -, ⟨ts, n, hd⟩, hi⟩ := exists_mem_of_forall₂ hall k hk
  exact ⟨schema, settings, i, ts, n, hd, hi⟩

/-- The filter of a clause has one radius. -/
theorem exists_radius (h : k.IsCompiled) : ∃ d, k.withRadius d = k := by
  obtain ⟨schema, settings, i, ts, n, -, hi⟩ := h.exists_item
  have hsame := ofItem_withRadius settings.nearDistance hi
  exact ⟨settings.nearDistance, Except.ok.inj (hsame.symm.trans hi)⟩

/-- No clause sorts by a value named like the relevance. -/
theorem name_ne {name : String} {direction : Direction} {scope : Option SortScope}
    (h : (field name direction scope).IsCompiled) : name ≠ Field.scoreName := by
  obtain ⟨schema, settings, i, ts, n, hd, hi⟩ := h.exists_item
  obtain ⟨q, hclause⟩ := exists_eq_clause hi
  have hname := hd.names_eq
  unfold SortItem.clause at hclause
  cases hkey : i.key with
  | value =>
    rw [hkey] at hclause
    obtain ⟨rfl, -, -⟩ := field.inj hclause
    intro hscore
    rw [hscore] at hname
    have hisScore : i.field.isScore = true := by
      rw [Field.isScore, hname]
      decide
    rw [hd.key_of_isScore hisScore] at hkey
    cases hkey
  | score =>
    rw [hkey] at hclause
    cases hclause
  | distance origin =>
    rw [hkey] at hclause
    cases hclause

/-- A field whose name has one segment lies inside nothing. -/
theorem scope_eq_none {name : String} {origin : GeoPoint} {direction : Direction}
    {scope : Option SortScope} (h : (distance name origin direction scope).IsCompiled)
    (hname : (splitDots name).length = 1) : scope = none := by
  obtain ⟨schema, settings, i, ts, n, hd, hi⟩ := h.exists_item
  obtain ⟨q, hclause⟩ := exists_eq_clause hi
  unfold SortItem.clause at hclause
  cases hkey : i.key with
  | distance origin' =>
    rw [hkey] at hclause
    obtain ⟨rfl, -, -, rfl⟩ := distance.inj hclause
    obtain ⟨name, hresolve⟩ := hd.exists_name
    rw [Reading.name_of_resolve hresolve] at hname
    rw [Snapshot.nestedPaths_of_resolve hresolve hname]
    rfl
  | value =>
    rw [hkey] at hclause
    cases hclause
  | score =>
    rw [hkey] at hclause
    cases hclause

/-- The place of a clause by distance has finite coordinates. -/
theorem isFinite_origin {name : String} {origin : GeoPoint} {direction : Direction}
    {scope : Option SortScope} (h : (distance name origin direction scope).IsCompiled) :
    origin.IsFinite := by
  obtain ⟨schema, settings, i, ts, n, hd, hi⟩ := h.exists_item
  obtain ⟨q, hclause⟩ := exists_eq_clause hi
  unfold SortItem.clause at hclause
  cases hkey : i.key with
  | distance origin' =>
    rw [hkey] at hclause
    obtain ⟨-, rfl, -⟩ := distance.inj hclause
    exact hd.isFinite hkey
  | value =>
    rw [hkey] at hclause
    cases hclause
  | score =>
    rw [hkey] at hclause
    cases hclause

/-- The filter of a clause has finite coordinates. -/
theorem isFinite_filter (h : k.IsCompiled) {c : Clauses Query} (hc : k.filter? = some c) :
    (Query.bool c).IsFinite := by
  obtain ⟨schema, settings, i, ts, n, hd, hi⟩ := h.exists_item
  obtain ⟨⟨e, he⟩, hne⟩ := exists_filter_of_ofItem hd hi hc
  obtain ⟨q, hq, -, hscope⟩ := exists_query_ofItem hd he hi
  obtain ⟨scope, hsome, -, hfilter⟩ := SortScope.exists_ofPaths (some q) hne
  rw [filter?, hscope, hsome] at hc
  obtain rfl := Option.some.inj (hfilter.symm.trans hc)
  obtain ⟨-, -, us, hus⟩ := hd.filtered he
  exact Query.isFinite_of_isLegal (hd.built he) hus.isLegal hq

end IsCompiled

/-! ### The bodies of clauses -/

/-- What a clause by value says about its field. -/
def valueBody (direction : Direction) (scope : Option SortScope) : Json :=
  Json.record (("order", .string direction.name) :: scopeMember scope)

/-- What a clause by distance says. -/
def distanceBody (name : String) (origin : GeoPoint) (direction : Direction)
    (scope : Option SortScope) : Json :=
  Json.record ([(name, origin.toJson), ("order", .string direction.name), ("unit", .string "km")] ++
    scopeMember scope)

theorem toJson_field (name : String) (direction : Direction) (scope : Option SortScope) :
    (field name direction scope).toJson = Json.record [(name, valueBody direction scope)] := rfl

theorem toJson_distance (name : String) (origin : GeoPoint) (direction : Direction)
    (scope : Option SortScope) : (distance name origin direction scope).toJson =
      Json.record [("_geo_distance", distanceBody name origin direction scope)] := rfl

theorem lookup_scopeMember (scope : Option SortScope) (key : String) :
    (scopeMember scope).reverse.lookup key =
      if key = "nested" then scope.map SortScope.toJson else none := by
  cases scope with
  | none => simp [scopeMember]
  | some s => exact Table.lookup_cons key "nested" s.toJson []

theorem member?_valueBody (direction : Direction) (scope : Option SortScope) (key : String) :
    (valueBody direction scope).member? key =
      (if key = "nested" then scope.map SortScope.toJson else none).or
        (if key = "order" then some (.string direction.name) else none) := by
  rw [valueBody, Json.member?_record, List.reverse_cons, List.lookup_append, lookup_scopeMember,
    Table.lookup_cons, List.lookup_nil]

theorem member?_distanceBody (name : String) (origin : GeoPoint) (direction : Direction)
    (scope : Option SortScope) (key : String) :
    (distanceBody name origin direction scope).member? key =
      (if key = "nested" then scope.map SortScope.toJson else none).or
        (if key = "unit" then some (.string "km")
        else if key = "order" then some (.string direction.name)
        else if key = name then some origin.toJson else none) := by
  rw [distanceBody, Json.member?_record, List.reverse_append, List.lookup_append,
    lookup_scopeMember]
  simp only [List.reverse_cons, List.reverse_nil, List.nil_append, List.cons_append,
    Table.lookup_cons, List.lookup_nil]

theorem valueBody_inj {d d' : Direction} {s s' : Option SortScope}
    (h : valueBody d s = valueBody d' s') :
    d = d' ∧ s.map SortScope.toJson = s'.map SortScope.toJson := by
  have horder := congrArg (Json.member? "order") h
  have hnested := congrArg (Json.member? "nested") h
  simp only [member?_valueBody] at horder hnested
  simp [Direction.name_injective.eq_iff] at horder hnested
  exact ⟨horder, hnested⟩

theorem valueBody_ne_distanceBody (d d' : Direction) (s s' : Option SortScope) (name : String)
    (origin : GeoPoint) : valueBody d s ≠ distanceBody name origin d' s' := by
  intro h
  have hunit := congrArg (Json.member? "unit") h
  simp only [member?_valueBody, member?_distanceBody] at hunit
  simp at hunit

theorem distanceBody_inj {n n' : String} {o o' : GeoPoint} {d d' : Direction}
    {s s' : Option SortScope} (hname : n ≠ "order" ∧ n ≠ "unit") (ho : o.IsFinite)
    (ho' : o'.IsFinite) (hs : n = "nested" → s = none)
    (h : distanceBody n o d s = distanceBody n' o' d' s') :
    n = n' ∧ o = o' ∧ d = d' ∧ s.map SortScope.toJson = s'.map SortScope.toJson := by
  have horigin : o.toJson = o'.toJson ↔ o = o' := by
    rw [GeoPoint.toJson_eq_iff, ho.visible_eq, ho'.visible_eq]
  have hfield := congrArg (Json.member? n) h
  have horder := congrArg (Json.member? "order") h
  have hnested := congrArg (Json.member? "nested") h
  simp only [member?_distanceBody, if_neg hname.1, if_neg hname.2, if_true] at hfield horder hnested
  have hdirection : d = d' := by simpa [Direction.name_injective.eq_iff] using horder
  by_cases hn : n = "nested"
  · subst hn
    obtain rfl := hs rfl
    cases s' with
    | some scope => exact absurd (by simpa using hfield.symm) (scope.toJson_ne_geoPoint o)
    | none =>
      have hplace : "nested" = n' ∧ o = o' := by
        simpa [← horigin, eq_comm] using hfield
      exact ⟨hplace.1, hplace.2, hdirection, rfl⟩
  · have hplace : n = n' ∧ o = o' := by simpa [hn, ← horigin, eq_comm] using hfield
    obtain ⟨rfl, rfl⟩ := hplace
    exact ⟨rfl, rfl, hdirection, by simpa [Ne.symm hn] using hnested⟩

/-- The clause is by distance, on a field named like another member of its object, so that its JSON
shows neither the field nor the place. -/
def hidesField : SortClause → Bool
  | distance name .. => name == "order" || name == "unit"
  | _ => false

/-- In place of the field stands what the member of its name says. -/
theorem distanceBody_of_hidden {name : String} (h : name = "order" ∨ name = "unit")
    (origin : GeoPoint) (direction : Direction) :
    distanceBody name origin direction none =
      Json.record [("order", .string direction.name), ("unit", .string "km")] := by
  have hlt : "order" < "unit" := by decide
  have hgt : ¬ "unit" < "order" := by decide
  have hne : "unit" ≠ "order" := by decide
  rcases h with rfl | rfl <;>
    simp only [distanceBody, scopeMember, Option.map_none, Option.toList_none, Json.record,
      Table.ofList, List.append_nil, List.foldl_cons, List.foldl_nil, Table.set, if_pos hlt,
      if_neg hgt, if_neg hne, if_neg hne.symm, String.lt_irrefl, if_true, if_false]

/-! ### Telling clauses apart -/

theorem scope_eq_of_toJson {s s' : Option SortScope}
    (h : s.map SortScope.toJson = s'.map SortScope.toJson)
    (hfilter : ∀ c c', s.bind SortScope.filter? = some c → s'.bind SortScope.filter? = some c' →
      (Query.bool c).toJson = (Query.bool c').toJson → c = c') : s = s' := by
  cases s <;> cases s' <;> simp only [Option.map_some, Option.map_none, reduceCtorEq,
    Option.some.injEq] at h
  · rfl
  · rw [SortScope.eq_of_toJson h hfilter]

theorem withRadius_of_filter {d : String} (h : k.withRadius d = k) {c : Clauses Query}
    (hc : k.filter? = some c) : (Query.bool c).withRadius d = Query.bool c := by
  have hfilter := k.filter?_withRadius d
  rw [h, hc] at hfilter
  rw [Query.withRadius, Query.map_bool]
  exact congrArg Query.bool (Option.some.inj hfilter).symm

/-- **The JSON shows a whole clause** unless it hides the field or the radius in the filter. -/
theorem eq_of_toJson {k k' : SortClause} (hk : k.IsCompiled) (hk' : k'.IsCompiled)
    (hfield : k.hidesField = false)
    (hradius : ∀ c, k.filter? = some c → (Query.bool c).ShowsRadius) (h : k.toJson = k'.toJson) :
    k = k' := by
  obtain ⟨d, hd⟩ := hk.exists_radius
  obtain ⟨d', hd'⟩ := hk'.exists_radius
  have hfilter : ∀ c c', k.filter? = some c → k'.filter? = some c' →
      (Query.bool c).toJson = (Query.bool c').toJson → c = c' := fun c c' hc hc' hjson =>
    Query.bool.inj (Query.eq_of_toJson (withRadius_of_filter hd hc) (withRadius_of_filter hd' hc')
      (hradius c hc) (hk.isFinite_filter hc) hjson)
  cases k with
  | field name direction scope =>
    cases k' with
    | field name' direction' scope' =>
      rw [toJson_field, toJson_field, Json.record_single_inj] at h
      obtain ⟨rfl, hbody⟩ := h
      obtain ⟨rfl, hscope⟩ := valueBody_inj hbody
      rw [scope_eq_of_toJson hscope hfilter]
    | score => exact absurd (Json.record_single_inj.1 h).1 hk.name_ne
    | distance name' origin' direction' scope' =>
      rw [toJson_field, toJson_distance, Json.record_single_inj] at h
      exact absurd h.2 (valueBody_ne_distanceBody _ _ _ _ _ _)
  | score =>
    cases k' with
    | field name' direction' scope' =>
      exact absurd (Json.record_single_inj.1 h).1.symm hk'.name_ne
    | score => rfl
    | distance name' origin' direction' scope' =>
      exact absurd (Json.record_single_inj.1 h).1 (by decide)
  | distance name origin direction scope =>
    cases k' with
    | field name' direction' scope' =>
      rw [toJson_field, toJson_distance, Json.record_single_inj] at h
      exact absurd h.2.symm (valueBody_ne_distanceBody _ _ _ _ _ _)
    | score => exact absurd (Json.record_single_inj.1 h).1 (by decide)
    | distance name' origin' direction' scope' =>
      have hname : name ≠ "order" ∧ name ≠ "unit" := by simpa [hidesField] using hfield
      -- The member for the scope is only there if the name of the field has several segments.
      have hscope : name = "nested" → scope = none := by
        rintro rfl
        exact hk.scope_eq_none (by decide)
      obtain ⟨rfl, rfl, rfl, hscope⟩ :=
        distanceBody_inj hname hk.isFinite_origin hk'.isFinite_origin hscope
          (Json.record_single_inj.1 h).2
      rw [scope_eq_of_toJson hscope hfilter]

/-- Points under the names of both members. -/
def memberNames : Mapping :=
  (Mapping.empty.field "order" (.leaf .geoPoint)).field "unit" (.leaf .geoPoint)

/-- The clause is by distance on a field inside nothing. -/
def isDistanceOn (name : String) (direction : Direction) : SortClause → Bool
  | distance n _ d none => n == name && d == direction
  | _ => false

theorem exists_distance (name : String) (hname : name = "order" ∨ name = "unit")
    (direction : Direction) : ∃ origin, (distance name origin direction none).IsCompiled := by
  have hread : ∀ name ∈ ["order", "unit"], ∀ direction ∈ [Direction.ascending, .descending],
      (ofText (Snapshot.ofMapping "listings" memberNames 1) .standard
        (name ++ " NEAR [0, 0] " ++ direction.word)).toOption.map
          (·.map (isDistanceOn name direction)) = some [true] := by decide +kernel
  obtain ⟨ks, hks, hone⟩ := toOption_map_eq_some.1
    (hread name (by simpa using hname) direction (by cases direction <;> simp))
  obtain ⟨k, rest, rfl, hk, -⟩ := List.map_eq_cons_iff.1 hone
  unfold isDistanceOn at hk
  split at hk
  · rename_i n origin d
    simp only [Bool.and_eq_true, beq_iff_eq] at hk
    obtain ⟨rfl, rfl⟩ := hk
    exact ⟨origin, _, _, _, _, hks, List.mem_cons_self⟩
  · cases hk

/-- There is another clause that looks like one with a hidden field. -/
theorem exists_alike (hk : k.IsCompiled) (h : k.hidesField = true) :
    ∃ k', k'.IsCompiled ∧ k'.toJson = k.toJson ∧ k' ≠ k := by
  cases k with
  | field | score => cases h
  | distance name origin direction scope =>
    have hname : name = "order" ∨ name = "unit" := by simpa [hidesField] using h
    obtain rfl := hk.scope_eq_none (by rcases hname with rfl | rfl <;> decide)
    obtain ⟨other, hother, hne⟩ : ∃ other, (other = "order" ∨ other = "unit") ∧ other ≠ name := by
      rcases hname with rfl | rfl
      · exact ⟨"unit", .inr rfl, by decide⟩
      · exact ⟨"order", .inl rfl, by decide⟩
    obtain ⟨place, hcompiled⟩ := exists_distance other hother direction
    refine ⟨_, hcompiled, ?_, fun heq => hne (distance.inj heq).1⟩
    rw [toJson_distance, toJson_distance, distanceBody_of_hidden hother,
      distanceBody_of_hidden hname]

/-- **The JSON of a clause tells it from all others** if and only if it hides neither the field nor
the radius in the filter. -/
theorem IsCompiled.eq_of_toJson_iff (hk : k.IsCompiled) :
    (∀ k', k'.IsCompiled → k'.toJson = k.toJson → k' = k) ↔
      k.hidesField = false ∧ ∀ c, k.filter? = some c → (Query.bool c).ShowsRadius := by
  constructor
  · intro hall
    refine ⟨Bool.eq_false_iff.2 fun hhides => ?_, fun c hc => ?_⟩
    · obtain ⟨k', hk', hjson, hne⟩ := exists_alike hk hhides
      exact hne (hall k' hk' hjson)
    · by_contra hhidden
      obtain ⟨d, hd⟩ := hk.exists_radius
      -- A longer radius is another one.
      have hother := hall _ (hk.withRadius (d ++ "m")) (toJson_withRadius fun c' hc' => by
        rw [hc] at hc'
        exact Option.some.inj hc' ▸ Query.toJson_withRadius hhidden _)
      have hradius := Query.radius_eq_of_hidden hhidden (withRadius_of_filter hd hc)
        (withRadius_of_filter hother hc)
      have hlength := congrArg String.length hradius
      simp at hlength
  · rintro ⟨hfield, hradius⟩ k' hk' hjson
    exact (eq_of_toJson hk hk' hfield hradius hjson.symm).symm

end SortClause

/-! ### What JSON tells apart -/

/-- **When JSON loses nothing.** No other query of an expression has the JSON of a given one just if
the radius is shown somewhere or hidden nowhere, and all coordinates are finite. No other clause of
a text has the JSON of a given one just if it is not by distance on a field named `order` or `unit`,
and the same goes for the radius in its filter; coordinates in texts are finite. -/
theorem toJson_determines_iff {c : Clauses Query} (hc : Query.IsCompiled c) {k : SortClause}
    (hk : k.IsCompiled) :
    ((∀ c', Query.IsCompiled c' → (Query.bool c').toJson = (Query.bool c).toJson → c' = c) ↔
        (Query.bool c).ShowsRadius ∧ (Query.bool c).IsFinite) ∧
      ((∀ k', k'.IsCompiled → k'.toJson = k.toJson → k' = k) ↔
        k.hidesField = false ∧ ∀ q, k.filter? = some q → (Query.bool q).ShowsRadius) :=
  ⟨hc.eq_of_toJson_iff, hk.eq_of_toJson_iff⟩

/-- The query for points near a place. -/
def Query.nearby (name : String) (origin : GeoPoint) (radius : String) : Clauses Query :=
  { Clauses.empty with must := [primitive (.geoDistance name origin radius)] }

theorem Query.isCompiled_nearby (name : String) (origin : GeoPoint) (radius : String) :
    IsCompiled (nearby name origin radius) := by
  let f : Filter := ⟨Field.ofName name, .near, .point origin⟩
  have hf : f.IsMade := ⟨Field.ofName name, .near, .point origin, rfl⟩
  have hbuilt : Expr.Built ⟨[.leaf none false f]⟩ := by
    refine @Expr.Built.ofItems 1 [.leaf none false f] _ (fun i hi => ?_) rfl
    rw [List.mem_singleton.1 hi]
    exact .leaf none false hf
  have hc : ofExpr ⟨radius, []⟩ ⟨[.leaf none false f]⟩ = .ok (nearby f.field.name origin radius) :=
    rfl
  rw [Field.name_ofName] at hc
  exact ⟨⟨radius, []⟩, _, hbuilt, hc⟩

/-- A search near a place is told from all others, one near a point at infinity is not, and neither
is a sort by distance on `order`. -/
theorem toJson_determines_iff_place :
    let c := Query.nearby "place" ⟨Double.zero, Double.zero⟩ "1km"
    let beyond := Query.nearby "place" ⟨.infinite false, Double.zero⟩ "1km"
    ∃ origin, let k := SortClause.distance "order" origin .ascending none
      (∀ c', Query.IsCompiled c' → (Query.bool c').toJson = (Query.bool c).toJson → c' = c) ∧
        (¬ ∀ c', Query.IsCompiled c' →
          (Query.bool c').toJson = (Query.bool beyond).toJson → c' = beyond) ∧
        ¬ ∀ k', k'.IsCompiled → k'.toJson = k.toJson → k' = k := by
  intro c beyond
  obtain ⟨origin, hk⟩ := SortClause.exists_distance "order" (.inl rfl) .ascending
  have h := toJson_determines_iff (Query.isCompiled_nearby "place" ⟨Double.zero, Double.zero⟩ "1km")
    hk
  have h' := toJson_determines_iff (Query.isCompiled_nearby "place" ⟨.infinite false, Double.zero⟩
    "1km") hk
  refine ⟨origin, h.1.2 ⟨fun _ => ⟨_, List.mem_singleton_self _, by decide⟩, ?_⟩, fun hall => ?_,
    fun hall => ?_⟩
  · exact List.forall_mem_singleton.2 (List.forall_mem_singleton.2 ⟨_, _, rfl⟩)
  · obtain ⟨lat, lon, heq⟩ := (h'.1.1 hall).2 _ (List.mem_singleton_self _) _
      (List.mem_singleton_self _)
    cases heq
  · have hfield := (h.2.1 hall).1
    cases hfield

/-- **JSON that loses something**: the radius of a search on a field named `distance`, and the field
and the place of a sort by distance on fields named `order` and `unit`. -/
theorem not_toJson_determines :
    (¬ ∀ c c', Query.IsCompiled c → Query.IsCompiled c' →
        (Query.bool c).toJson = (Query.bool c').toJson → c = c') ∧
      ¬ ∀ k k' : SortClause, k.IsCompiled → k'.IsCompiled → k.toJson = k'.toJson → k = k' := by
  refine ⟨fun hall => ?_, fun hall => ?_⟩
  · let origin : GeoPoint := ⟨Double.zero, Double.zero⟩
    have hjson : (Query.bool (Query.nearby "distance" origin "1km")).toJson =
        (Query.bool (Query.nearby "distance" origin "5km")).toJson :=
      Query.toJson_eq_iff.2 rfl
    have heq := hall _ _ (Query.isCompiled_nearby _ _ _) (Query.isCompiled_nearby _ _ _) hjson
    simp [Query.nearby] at heq
  · obtain ⟨origin, hk⟩ := SortClause.exists_distance "order" (.inl rfl) .ascending
    obtain ⟨origin', hk'⟩ := SortClause.exists_distance "unit" (.inr rfl) .ascending
    have heq := hall _ _ hk hk' (by
      rw [SortClause.toJson_distance, SortClause.toJson_distance,
        SortClause.distanceBody_of_hidden (.inl rfl), SortClause.distanceBody_of_hidden (.inr rfl)])
    simp at heq

end SearchDsl
