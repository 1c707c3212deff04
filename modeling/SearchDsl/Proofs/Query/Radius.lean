import SearchDsl.Proofs.Query.Twin

/-!
# The radius in the queries of an expression

The queries of an expression depend on the settings by the radius of their distance queries alone,
which is the same in all of them:

* `Query.ofExpr_withRadius`: with another radius an expression gets the same queries with that
  radius;
* `Query.eq_of_toJson_of_withRadius`: under one radius no two queries with finite coordinates have
  the same JSON;
* `Query.toJson_withRadius`: a query that hides the radius somewhere and shows it nowhere has the
  same JSON with every radius;
* `Query.IsCompiled.eq_of_toJson_iff`: any other query with finite coordinates can be told from its
  JSON, and there are no more than these.
-/

namespace SearchDsl

/-! ### Queries with another radius -/

/-- The primitive query with another radius. -/
def Primitive.withRadius (radius : String) : Primitive → Primitive
  | geoDistance field origin _ => geoDistance field origin radius
  | p => p

namespace Query

/-- The query with another radius. -/
def withRadius (radius : String) (q : Query) : Query := q.map (Primitive.withRadius radius)

section WithRadius

variable (s : Surroundings) (radius : String)

theorem ofFilter_withRadius (f : Filter) :
    ofFilter { s with nearDistance := radius } f =
      (ofFilter s f).map fun r => (r.1.withRadius radius, r.2) := by
  unfold ofFilter
  split <;> try rfl
  · split <;> rfl
  · dsimp only
    split
    · split <;> rfl
    · rfl

/-- **With another radius an expression gets the same queries with that radius.** -/
theorem ofExpr_withRadius (e : Expr) :
    ofExpr { s with nearDistance := radius } e =
      (ofExpr s e).map (Clauses.map (withRadius radius)) := by
  have h : Carries s { s with nearDistance := radius } id (Primitive.withRadius radius) :=
    ⟨ofFilter_withRadius s radius, fun _ => rfl⟩
  have hmap := ofExpr_map h e
  rwa [e.map_id] at hmap

end WithRadius

end Query

/-! ### Where the radius is shown -/

namespace Primitive

/-- The query has a radius, and its JSON does not show it. -/
def hidesRadius : Primitive → Bool
  | geoDistance field .. => field == radiusMember
  | _ => false

/-- The query has a radius, and its JSON shows it. -/
def showsRadius : Primitive → Bool
  | geoDistance field .. => field != radiusMember
  | _ => false

variable {p : Primitive} {d d' : String}

/-- The radius is all that may not be visible of finite points, so it can be put back. -/
theorem IsFinite.withRadius_visible (h : p.IsFinite) (d : String) :
    p.visible.withRadius d = p.withRadius d := by
  cases p with
  | geoBoundingBox field topRight bottomLeft =>
    have hright : topRight.visible = topRight := (h topRight (by simp [points])).visible_eq
    have hleft : bottomLeft.visible = bottomLeft := (h bottomLeft (by simp [points])).visible_eq
    rw [visible, hright, hleft]
  | geoPolygon field ps =>
    have hpoints : ps.map GeoPoint.visible = ps.map id :=
      List.map_congr_left fun q hq => (h q hq).visible_eq
    rw [visible, hpoints, List.map_id]
  | geoDistance field origin radius =>
    have horigin : origin.visible = origin := (h origin (by simp [points])).visible_eq
    rw [visible, withRadius, withRadius, horigin]
  | _ => rfl

theorem hidesRadius_visible (p : Primitive) : p.visible.hidesRadius = p.hidesRadius := by
  cases p <;> rfl

theorem showsRadius_visible (p : Primitive) : p.visible.showsRadius = p.showsRadius := by
  cases p <;> rfl

/-- What hides no radius keeps the one that it has. -/
theorem exists_withRadius_visible (h : p.hidesRadius = false) :
    ∃ d, p.withRadius d = p ∧ p.visible.withRadius d = p.visible := by
  cases p with
  | geoDistance field origin radius =>
    have hne : field ≠ radiusMember := by simpa [hidesRadius] using h
    exact ⟨radius, rfl, by rw [visible, if_neg hne, withRadius]⟩
  | _ => exact ⟨"", rfl, rfl⟩

theorem IsFinite.visible_eq (hfinite : p.IsFinite) (h : p.hidesRadius = false) :
    p.visible = p := by
  obtain ⟨d, hd, hvisible⟩ := exists_withRadius_visible h
  rw [← hvisible, hfinite.withRadius_visible, hd]

theorem hidesRadius_of_showsRadius (h : p.showsRadius = true) : p.hidesRadius = false := by
  cases p with
  | geoDistance field origin radius => simpa [hidesRadius, showsRadius] using h
  | _ => rfl

theorem visible_withRadius (h : p.showsRadius = false) (d : String) :
    (p.withRadius d).visible = p.visible := by
  cases p with
  | geoDistance field origin radius =>
    have heq : field = radiusMember := by simpa [showsRadius] using h
    rw [withRadius, visible, visible, if_pos heq, if_pos heq]
  | _ => rfl

/-- A query with a radius has one radius. -/
theorem radius_unique (h : p.hidesRadius = true ∨ p.showsRadius = true) (hd : p.withRadius d = p)
    (hd' : p.withRadius d' = p) : d = d' := by
  cases p with
  | geoDistance field origin radius =>
    rw [withRadius, geoDistance.injEq] at hd hd'
    exact hd.2.2.trans hd'.2.2.symm
  | _ => simp [hidesRadius, showsRadius] at h

end Primitive

namespace Query

variable {q q' : Query} {d d' : String}

/-- If the JSON of the query does not show the radius somewhere, it does so elsewhere. -/
def ShowsRadius (q : Query) : Prop :=
  (∃ l ∈ q.leaves, l.primitive.hidesRadius = true) → ∃ l ∈ q.leaves, l.primitive.showsRadius = true

/-- All distance queries of a query with one radius have that radius. -/
theorem withRadius_of_mem_leaves (h : q.withRadius d = q) {l : Leaf} (hl : l ∈ q.leaves) :
    l.primitive.withRadius d = l.primitive := map_eq_self_iff.1 h l hl

/-- Queries with the same JSON have leaves that look alike. -/
theorem exists_leaf_of_toJson (h : q.toJson = q'.toJson) {l : Leaf} (hl : l ∈ q.leaves) :
    ∃ l' ∈ q'.leaves, l'.primitive.visible = l.primitive.visible := by
  have hleaves : q.leaves.map (Leaf.map Primitive.visible) =
      q'.leaves.map (Leaf.map Primitive.visible) := by
    rw [← leaves_map, ← leaves_map, toJson_eq_iff.1 h]
  obtain ⟨l', hl', heq⟩ := List.mem_map.1 (hleaves ▸ List.mem_map_of_mem hl)
  exact ⟨l', hl', congrArg Leaf.primitive heq⟩

/-- Queries with the same JSON have finite coordinates in the same places. -/
theorem IsFinite.of_toJson (hfinite : q.IsFinite) (h : q.toJson = q'.toJson) : q'.IsFinite := by
  intro l' hl'
  obtain ⟨l, hl, hvisible⟩ := exists_leaf_of_toJson h.symm hl'
  rw [← Primitive.isFinite_visible_iff, ← hvisible, Primitive.isFinite_visible_iff]
  exact hfinite l hl

/-- Where the radius is shown, two queries with the same JSON have the same. -/
theorem radius_eq_of_toJson (hd : q.withRadius d = q) (hd' : q'.withRadius d' = q')
    (hfinite : q.IsFinite) (h : q.toJson = q'.toJson) {l : Leaf} (hl : l ∈ q.leaves)
    (hshows : l.primitive.showsRadius = true) : d = d' := by
  obtain ⟨l', hl', hvisible⟩ := exists_leaf_of_toJson h hl
  have hshows' : l'.primitive.showsRadius = true := by
    rw [← Primitive.showsRadius_visible, hvisible, Primitive.showsRadius_visible, hshows]
  -- A radius that is shown is part of what is visible.
  rw [(hfinite l hl).visible_eq (Primitive.hidesRadius_of_showsRadius hshows),
    (hfinite.of_toJson h l' hl').visible_eq (Primitive.hidesRadius_of_showsRadius hshows')]
    at hvisible
  exact Primitive.radius_unique (.inr hshows) (withRadius_of_mem_leaves hd hl)
    (hvisible ▸ withRadius_of_mem_leaves hd' hl')

/-- **Under one radius the JSON shows a whole query.** -/
theorem eq_of_toJson_of_withRadius (hd : q.withRadius d = q) (hd' : q'.withRadius d = q')
    (hfinite : q.IsFinite) (h : q.toJson = q'.toJson) : q = q' := by
  have restored {q : Query} (hq : q.IsFinite) :
      (q.map Primitive.visible).withRadius d = q.withRadius d := by
    rw [withRadius, map_map]
    exact map_congr q fun l hl => (hq l hl).withRadius_visible d
  rw [← hd, ← restored hfinite, toJson_eq_iff.1 h, restored (hfinite.of_toJson h), hd']

/-- **The JSON shows a whole query** if all coordinates are finite, and it shows the radius or there
is none to show. -/
theorem eq_of_toJson (hd : q.withRadius d = q) (hd' : q'.withRadius d' = q') (hs : q.ShowsRadius)
    (hfinite : q.IsFinite) (h : q.toJson = q'.toJson) : q = q' := by
  by_cases hhides : ∃ l ∈ q.leaves, l.primitive.hidesRadius = true
  · obtain ⟨l, hl, hshows⟩ := hs hhides
    obtain rfl := radius_eq_of_toJson hd hd' hfinite h hl hshows
    exact eq_of_toJson_of_withRadius hd hd' hfinite h
  · have whole {q : Query} (hq : ¬ ∃ l ∈ q.leaves, l.primitive.hidesRadius = true)
        (hfinite : q.IsFinite) : q.map Primitive.visible = q :=
      map_eq_self_iff.2 fun l hl =>
        (hfinite l hl).visible_eq (Bool.eq_false_iff.2 fun h => hq ⟨l, hl, h⟩)
    have hhides' : ¬ ∃ l ∈ q'.leaves, l.primitive.hidesRadius = true := by
      rintro ⟨l', hl', h'⟩
      obtain ⟨l, hl, heq⟩ := exists_leaf_of_toJson h.symm hl'
      refine hhides ⟨l, hl, ?_⟩
      rw [← Primitive.hidesRadius_visible, heq, Primitive.hidesRadius_visible, h']
    rw [← whole hhides hfinite, toJson_eq_iff.1 h, whole hhides' (hfinite.of_toJson h)]

/-- Where the radius is hidden and not shown, the JSON does not change with it. -/
theorem toJson_withRadius (h : ¬ q.ShowsRadius) (d : String) :
    (q.withRadius d).toJson = q.toJson := by
  rw [ShowsRadius, Classical.not_imp] at h
  rw [toJson_eq_iff, withRadius, map_map]
  exact map_congr q fun l hl =>
    Primitive.visible_withRadius (Bool.eq_false_iff.2 fun hshows => h.2 ⟨l, hl, hshows⟩) d

/-- There is a radius where one is hidden. -/
theorem radius_eq_of_hidden (h : ¬ q.ShowsRadius) (hd : q.withRadius d = q)
    (hd' : q.withRadius d' = q) : d = d' := by
  rw [ShowsRadius, Classical.not_imp] at h
  obtain ⟨⟨l, hl, hhides⟩, -⟩ := h
  exact Primitive.radius_unique (.inl hhides) (withRadius_of_mem_leaves hd hl)
    (withRadius_of_mem_leaves hd' hl)

/-! ### Queries of expressions -/

variable {c : Clauses Query}

/-- The query is that of an expression that can be built. -/
def IsCompiled (c : Clauses Query) : Prop := ∃ s e, e.Built ∧ ofExpr s e = .ok c

/-- The query of an expression has the radius of the settings. -/
theorem withRadius_of_ofExpr {s : Surroundings} {e : Expr} (h : ofExpr s e = .ok c) :
    (bool c).withRadius s.nearDistance = bool c := by
  have hc := ofExpr_withRadius s s.nearDistance e
  rw [h] at hc
  rw [withRadius, map_bool]
  exact congrArg bool (Except.ok.inj hc).symm

theorem IsCompiled.withRadius (h : IsCompiled c) (d : String) :
    IsCompiled (c.map (Query.withRadius d)) := by
  obtain ⟨s, e, he, hc⟩ := h
  refine ⟨{ s with nearDistance := d }, e, he, ?_⟩
  rw [ofExpr_withRadius, hc]
  rfl

/-- The twin of the query of a built expression is one too. -/
theorem IsCompiled.twin (h : IsCompiled c) : IsCompiled (c.map Query.twin) := by
  obtain ⟨s, e, he, hc⟩ := h
  refine ⟨s, e.map Filter.twin, he.map fun _ hf => hf.twin, ?_⟩
  rw [ofExpr_twin, hc]
  rfl

/-- **The JSON of the query of an expression tells it from all others** if and only if the radius is
shown or there is none to show, and all coordinates are finite. -/
theorem IsCompiled.eq_of_toJson_iff (h : IsCompiled c) :
    (∀ c', IsCompiled c' → (bool c').toJson = (bool c).toJson → c' = c) ↔
      (bool c).ShowsRadius ∧ (bool c).IsFinite := by
  obtain ⟨s, e, he, hc⟩ := h
  have hd := withRadius_of_ofExpr hc
  constructor
  · intro hall
    refine ⟨Classical.byContradiction fun hhidden => ?_, ?_⟩
    · -- A longer radius is another one.
      have hbool : (bool c).withRadius (s.nearDistance ++ "m") =
          bool (c.map (Query.withRadius (s.nearDistance ++ "m"))) := map_bool _ c
      have hjson := toJson_withRadius hhidden (s.nearDistance ++ "m")
      rw [hbool] at hjson
      have hother := hall _ (IsCompiled.withRadius ⟨s, e, he, hc⟩ _) hjson
      rw [hother] at hbool
      have hlength := congrArg String.length (radius_eq_of_hidden hhidden hd hbool)
      simp at hlength
    · have htwin : (bool c).twin = bool (c.map Query.twin) := map_bool _ c
      have hjson := (bool c).toJson_twin
      rw [htwin] at hjson
      rw [hall _ (IsCompiled.twin ⟨s, e, he, hc⟩) hjson] at htwin
      exact twin_eq_self_iff.1 htwin
  · rintro ⟨hs, hfinite⟩ c' hc' hjson
    obtain ⟨s', e', -, hc'⟩ := hc'
    exact bool.inj (eq_of_toJson hd (withRadius_of_ofExpr hc') hs hfinite hjson.symm).symm

end Query
end SearchDsl
