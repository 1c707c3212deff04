import SearchDsl.Proofs.Filter.Geometry
import SearchDsl.Proofs.Query.Rendering

/-!
# Queries with the same JSON

JSON does not tell the coordinates apart that are not finite, so a query with such coordinates has a
twin with others in their places (`Query.twin`).

* `Query.toJson_twin` and `Query.twin_eq_self_iff`: the twin has the same JSON, and is another query
  just if the query has a coordinate that is not finite;
* `Filter.IsMade.twin` and `Query.ofExpr_twin`: the twin of the query of a built expression is that
  of a built expression too;
* `Query.isFinite_of_isLegal`: the query of an expression with legal geometry has no other twin.
-/

namespace SearchDsl

/-! ### Values and filters -/

namespace Value

/-- The value with the twins of its points. A north-east corner is at the upper end. -/
def twin : Value → Value
  | point p => point (p.twin true)
  | viewport ne sw => viewport (ne.twin true) (sw.twin false)
  | polygon points => polygon (points.map (GeoPoint.twin true))
  | v => v

theorem toJson_twin (v : Value) : v.twin.toJson = v.toJson := by
  cases v with
  | point p => exact GeoPoint.toJson_twin
  | viewport ne sw => simp only [twin, toJson, GeoPoint.toJson_twin]
  | polygon points =>
    rw [twin, toJson, toJson, List.map_map]
    exact congrArg (fun f => Json.array (points.map f)) (funext fun _ => GeoPoint.toJson_twin)
  | _ => rfl

theorem shape_twin (v : Value) : v.twin.shape = v.shape := by cases v <;> rfl

end Value

namespace Filter

/-- The filter with the twins of its points. -/
def twin (f : Filter) : Filter := { f with value := f.value.twin }

variable {op : Operator} {v : Value}

theorem shapeViewport_twin {ne sw : GeoPoint} (h : makeViewport ne sw = .ok (.viewport ne sw)) :
    makeViewport (ne.twin true) (sw.twin false) =
      .ok (.viewport (ne.twin true) (sw.twin false)) := by
  obtain ⟨-, hlat⟩ := makeViewport_eq_ok h
  refine if_neg fun hlt => ?_
  rw [Coordinate.lt_of_lt_twin hlt] at hlat
  cases hlat

/-- Only operators on points take points. -/
theorem twin_eq_self_of_hasShape (hop : op.isGeo = false) (h : HasShape op v) : v.twin = v := by
  cases op with
  | equal | notEqual =>
    rcases h with h | rfl
    · cases v <;> first | rfl | cases h
    · rfl
  | greaterThan | greaterOrEqual | lessThan | lessOrEqual => cases v <;> first | rfl | cases h
  | like =>
    obtain ⟨s, rfl⟩ := h
    rfl
  | range =>
    obtain ⟨a, b, rfl, -⟩ := h
    rfl
  | isIn =>
    obtain ⟨items, rfl, -⟩ := h
    rfl
  | viewport | polygon | near => cases hop

/-- A value that is in the shape of the operator has a twin in that shape. -/
theorem shape_twin (h : shape op v = .ok v) : shape op v.twin = .ok v.twin := by
  have hshape := hasShape_of_shape h
  cases op with
  | near =>
    obtain ⟨p, rfl⟩ := hshape
    rfl
  | viewport =>
    obtain ⟨ne, sw, rfl⟩ := hshape
    exact shapeViewport_twin h
  | polygon =>
    obtain ⟨points, rfl⟩ := hshape
    obtain ⟨-, hlength⟩ := makePolygon_eq_ok h
    exact if_neg (by simpa using hlength)
  | _ =>
    rw [twin_eq_self_of_hasShape rfl hshape]
    exact h

/-- The check of a type does not look at points. -/
theorem check_twin {field : Field} (h : HasShape op v) :
    check field op v.twin = check field op v := by
  cases hop : op.isGeo with
  | true =>
    unfold check checkType
    simp only [hop, if_true]
  | false => rw [twin_eq_self_of_hasShape hop h]

theorem IsMade.twin {f : Filter} (h : f.IsMade) : f.twin.IsMade := by
  have hshape := h.hasShape
  obtain ⟨field, op, v, h⟩ := h
  obtain ⟨hfield, hop, hv, hcheck⟩ := make_eq_ok_iff.1 h
  subst hfield hop
  refine ⟨f.field, f.operator, f.value.twin, make_eq_ok_iff.2 ⟨rfl, rfl, ?_, ?_⟩⟩
  · exact shape_twin (shape_of_shape hv)
  · exact (check_twin hshape).trans hcheck

end Filter

/-! ### Primitive queries -/

namespace Primitive

/-- The points that the query looks for. -/
def points : Primitive → List GeoPoint
  | geoBoundingBox _ topRight bottomLeft => [topRight, bottomLeft]
  | geoPolygon _ points => points
  | geoDistance _ origin _ => [origin]
  | _ => []

/-- All coordinates of the points are finite. -/
def IsFinite (p : Primitive) : Prop := ∀ q ∈ p.points, q.IsFinite

/-- The primitive query with the twins of its points. -/
def twin : Primitive → Primitive
  | geoBoundingBox field topRight bottomLeft =>
    geoBoundingBox field (topRight.twin true) (bottomLeft.twin false)
  | geoPolygon field points => geoPolygon field (points.map (GeoPoint.twin true))
  | geoDistance field origin distance => geoDistance field (origin.twin true) distance
  | p => p

variable {p : Primitive}

theorem toJson_twin (p : Primitive) : p.twin.toJson = p.toJson := by
  cases p with
  | geoBoundingBox field topRight bottomLeft =>
    simp only [twin, toJson, kind, body, GeoPoint.toJson_twin]
  | geoPolygon field points =>
    have hmap : GeoPoint.toJson ∘ GeoPoint.twin true = GeoPoint.toJson :=
      funext fun _ => GeoPoint.toJson_twin
    simp only [twin, toJson, kind, body, List.map_map, hmap]
  | geoDistance field origin distance =>
    simp only [twin, toJson, kind, body, GeoPoint.toJson_twin]
  | _ => rfl

theorem twin_eq_self_iff : p.twin = p ↔ p.IsFinite := by
  cases p with
  | geoPolygon field points =>
    rw [twin, geoPolygon.injEq, and_iff_right rfl]
    nth_rewrite 2 [← List.map_id points]
    rw [List.map_inj_left]
    exact forall₂_congr fun _ _ => GeoPoint.twin_eq_self_iff
  | _ => simp [twin, IsFinite, points, GeoPoint.twin_eq_self_iff]

theorem isFinite_visible_iff : p.visible.IsFinite ↔ p.IsFinite := by
  cases p <;> simp [visible, IsFinite, points, GeoPoint.isFinite_visible_iff]

end Primitive

/-! ### Queries -/

namespace Query

/-- All coordinates of the points in the query are finite. -/
def IsFinite (q : Query) : Prop := ∀ l ∈ q.leaves, l.primitive.IsFinite

/-- The query with the twins of its points. -/
def twin (q : Query) : Query := q.map Primitive.twin

theorem toJson_twin (q : Query) : q.twin.toJson = q.toJson := toJson_map Primitive.toJson_twin q

/-- **The twin of a query is another one** if and only if a coordinate is not finite. -/
theorem twin_eq_self_iff {q : Query} : q.twin = q ↔ q.IsFinite :=
  map_eq_self_iff.trans (forall₂_congr fun _ _ => Primitive.twin_eq_self_iff)

theorem ofFilter_twin (s : Surroundings) (f : Filter) :
    ofFilter s f.twin = (ofFilter s f).map fun r => (r.1.twin, r.2) := by
  obtain ⟨field, op, v⟩ := f
  have hjson := Value.toJson_twin v
  cases op with
  | equal =>
    cases v with
    | null => rfl
    | _ => exact congrArg (fun j => Except.ok (Primitive.term field.name j, false)) hjson
  | notEqual =>
    cases v with
    | null => rfl
    | _ => exact congrArg (fun j => Except.ok (Primitive.term field.name j, true)) hjson
  | range =>
    cases v with
    | list items =>
      match items with
      | [lower, upper] =>
        -- A list is its own twin.
        change ofFilter s ⟨field, .range, .list [lower, upper]⟩ = _
        unfold ofFilter
        dsimp only
        cases Bound.ofValue? lower <;> cases Bound.ofValue? upper <;> rfl
      | [] | [_] | _ :: _ :: _ :: _ => rfl
    | _ => rfl
  | _ => cases v <;> rfl

/-- **The twin of a query is that of an expression** if the query is. -/
theorem ofExpr_twin (s : Surroundings) (e : Expr) :
    ofExpr s (e.map Filter.twin) = (ofExpr s e).map (Clauses.map twin) :=
  ofExpr_map ⟨ofFilter_twin s, fun _ => rfl⟩ e

/-! ### Legal geometry -/

/-- The points of a query are those of the filter that it is for. -/
theorem points_of_ofFilter {s : Surroundings} {f : Filter} {p : Primitive} {denied : Bool}
    (h : ofFilter s f = .ok (p, denied)) :
    ∀ q ∈ p.points, f.operator.isGeo = true ∧ q ∈ f.value.points := by
  unfold ofFilter at h
  split at h
  -- Only ranges and comparisons look at their values once more.
  case h_5 =>
    split at h <;> cases h
    exact List.forall_mem_nil _
  case h_11 =>
    split at h
    · split at h <;> cases h
      exact List.forall_mem_nil _
    · cases h
  case h_8 hop hv | h_9 hop hv | h_10 hop hv =>
    cases h
    rw [hop, hv]
    exact fun q hq => ⟨rfl, hq⟩
  all_goals
    cases h
    exact List.forall_mem_nil _

/-- **Legal geometry has finite coordinates.** -/
theorem isFinite_of_isLegal {s : Surroundings} {e : Expr} {c : Clauses Query} (he : e.Built)
    (hlegal : ∀ f ∈ e.leaves, f.operator.isGeo = true → f.value.IsLegal)
    (hc : ofExpr s e = .ok c) : (bool c).IsFinite := by
  obtain ⟨c', hc', hleaves, -⟩ := layout_ofExpr he.isMade s
  obtain rfl := Except.ok.inj (hc.symm.trans hc')
  intro l hl q hq
  obtain ⟨f, hf, hlf⟩ := hleaves.exists_filter hl
  obtain ⟨hop, hmem⟩ := points_of_ofFilter hlf.query q hq
  exact ((hlegal f hf hop).onGlobe q hmem).isFinite

end Query
end SearchDsl
