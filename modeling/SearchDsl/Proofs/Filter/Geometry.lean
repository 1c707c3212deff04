import SearchDsl.Proofs.Expr.Resolved
import SearchDsl.Proofs.Number.Rounding
import SearchDsl.Proofs.Value.Point

/-!
# The geometry in a filter

A filter with an operator on points holds a point, a viewport or a polygon. It is legal if its
points lie on the globe, its viewport is not upside down and its polygon has at least three points.
Numbers in lists are looked at when they become points; points that are given as such are not.

* `GeoPoint.isValid_iff_onGlobe`: the test of a point, by the values of its coordinates;
* `Filter.isLegal_iff_given`: a made filter is legal just if the points that were given as such lie
  on the globe. The other two conditions hold in any case but one: a corner whose latitude is no
  number stands in no order to the other;
* `Expr.isLegal_of_read`: no points are given in a text, so what is read is legal.
-/

namespace SearchDsl

/-! ### The order of coordinates -/

namespace Coordinate

/-- The first coordinate is at most the second one. Nothing is at most `nan`, and `nan` is at most
nothing. -/
inductive AtMost : Coordinate → Coordinate → Prop
  | finite {a b : Double} : a.value ≤ b.value → AtMost a b
  | bottom {c : Coordinate} : c ≠ nan → AtMost (infinite true) c
  | top {c : Coordinate} : c ≠ nan → AtMost c (infinite false)

variable {a b : Coordinate}

theorem AtMost.ne_nan (h : AtMost a b) : a ≠ nan ∧ b ≠ nan := by
  cases h with
  | finite _ => exact ⟨nofun, nofun⟩
  | bottom hc => exact ⟨nofun, hc⟩
  | top hc => exact ⟨hc, nofun⟩

theorem atMost_finite_iff {a b : Double} : AtMost a b ↔ a.value ≤ b.value := by
  constructor
  · rintro ⟨h⟩
    exact h
  · exact .finite

/-- Every number has a place between the infinities. -/
theorem exists_place {c : Coordinate} (h : c ≠ nan) :
    ∃ x, c.place? = some x ∧ -(Double.rankCount : Int) ≤ x ∧ x ≤ Double.rankCount := by
  cases c with
  | finite d => exact ⟨_, rfl, (place_lt d).1.le, (place_lt d).2.le⟩
  | infinite negative => cases negative <;> exact ⟨_, rfl, by omega, by omega⟩
  | nan => exact absurd rfl h

theorem lt_of_place? {x y : Int} (ha : a.place? = some x) (hb : b.place? = some y) :
    a.lt b = decide (x < y) := by
  rw [lt, ha, hb]

/-- **Of two numbers the first is not below the second** just if the second is at most the first. -/
theorem lt_eq_false_iff (ha : a ≠ nan) (hb : b ≠ nan) : a.lt b = false ↔ AtMost b a := by
  match a, b with
  | nan, _ => exact absurd rfl ha
  | _, nan => exact absurd rfl hb
  | finite d, finite e =>
    rw [lt_finite, atMost_finite_iff, ← not_lt, ← Double.lt_iff_value, Bool.not_eq_true]
  | a, infinite true =>
    obtain ⟨x, hx, hlow, -⟩ := exists_place ha
    refine iff_of_true ?_ (.bottom ha)
    rw [lt_of_place? hx rfl]
    simpa using hlow
  | infinite false, b =>
    obtain ⟨x, hx, -, hhigh⟩ := exists_place hb
    refine iff_of_true ?_ (.top hb)
    rw [lt_of_place? rfl hx]
    simpa using hhigh
  -- In the other cases the first is below the second.
  | finite d, infinite false =>
    exact iff_of_false (by simpa [lt, place?] using (place_lt d).2) (by rintro ⟨⟩)
  | infinite true, finite e =>
    exact iff_of_false (by simpa [lt, place?] using (place_lt e).1) (by rintro ⟨⟩)
  | infinite true, infinite false => exact iff_of_false (by decide) (by rintro ⟨⟩)

end Coordinate

/-! ### Points on the globe -/

namespace GeoPoint

/-- The latitude is at most a quarter turn and the longitude at most half a turn, to either side. -/
def OnGlobe (p : GeoPoint) : Prop :=
  ∃ lat lon : Double, p = ⟨lat, lon⟩ ∧ lat.value ∈ Set.Icc (-90) 90 ∧ lon.value ∈ Set.Icc (-180) 180

theorem within_iff_value {bound : Nat} (hbound : bound < 2 ^ 53) {c : Coordinate} :
    within bound c = true ↔ ∃ d : Double, c = d ∧ d.value ∈ Set.Icc (-bound : ℚ) bound := by
  have hlow : (Double.ofInt (-bound)).value = -bound := by
    rw [Double.value_ofInt (by omega)]
    push_cast
    rfl
  have hhigh : (Double.ofInt bound).value = bound := by
    rw [Double.value_ofInt (by omega)]
    rfl
  have hfinite (d : Double) : within bound d = true ↔ d.value ∈ Set.Icc (-bound : ℚ) bound := by
    rw [within, Bool.and_eq_true, Coordinate.le_finite, Coordinate.le_finite, Double.le_iff_value,
      Double.le_iff_value, hlow, hhigh, Set.mem_Icc]
  constructor
  · intro h
    obtain ⟨d, rfl⟩ := exists_finite_of_within h
    exact ⟨d, rfl, (hfinite d).1 h⟩
  · rintro ⟨d, rfl, h⟩
    exact (hfinite d).2 h

/-- **The test of a point asks for its place on the globe.** -/
theorem isValid_iff_onGlobe {p : GeoPoint} : p.isValid = true ↔ p.OnGlobe := by
  rw [isValid, Bool.and_eq_true, within_iff_value (by norm_num), within_iff_value (by norm_num)]
  obtain ⟨lat, lon⟩ := p
  constructor
  · rintro ⟨⟨a, rfl, ha⟩, b, rfl, hb⟩
    exact ⟨a, b, rfl, ha, hb⟩
  · rintro ⟨a, b, heq, ha, hb⟩
    cases heq
    exact ⟨⟨a, rfl, ha⟩, b, rfl, hb⟩

theorem OnGlobe.isFinite {p : GeoPoint} (h : p.OnGlobe) : p.IsFinite := by
  obtain ⟨lat, lon, heq, -⟩ := h
  exact ⟨lat, lon, heq⟩

end GeoPoint

/-! ### Points in values -/

namespace Value

/-- The points of a point, a viewport or a polygon. -/
def points : Value → List GeoPoint
  | .point p => [p]
  | .viewport ne sw => [ne, sw]
  | .polygon ps => ps
  | _ => []

/-- The points that are given as such: those of the value, or of its items if it is a list. -/
def given : Value → List GeoPoint
  | .list items => items.flatMap points
  | v => v.points

/-- A point, a viewport that is not upside down, or a polygon of at least three points. -/
inductive IsFigure : Value → Prop
  | point (p : GeoPoint) : IsFigure (.point p)
  | viewport {ne sw : GeoPoint} : Coordinate.AtMost sw.lat ne.lat → IsFigure (.viewport ne sw)
  | polygon {ps : List GeoPoint} : 3 ≤ ps.length → IsFigure (.polygon ps)

/-- A figure on the globe. -/
structure IsLegal (v : Value) : Prop where
  figure : v.IsFigure
  onGlobe : ∀ p ∈ v.points, p.OnGlobe

variable {v : Value}

/-- A point was given as such, or it was made of two numbers and has been looked at. -/
theorem toPoint_eq_ok {p : GeoPoint} (h : v.toPoint = .ok p) :
    v = .point p ∨ (∃ m n, v = .list [.number m, .number n]) ∧ p.OnGlobe := by
  unfold toPoint at h
  split at h
  · cases h
    exact .inl rfl
  · rename_i a b
    split at h
    · rename_i ha hb
      obtain ⟨-, hvalid⟩ := GeoPoint.make_eq_ok_iff.1 (mapError_eq_ok.1 h)
      refine .inr ⟨?_, GeoPoint.isValid_iff_onGlobe.1 hvalid⟩
      cases a <;> cases ha
      cases b <;> cases hb
      exact ⟨_, _, rfl⟩
    · cases h
  · cases h

theorem onGlobe_toPoint {p : GeoPoint} (h : v.toPoint = .ok p) :
    p.OnGlobe ↔ ∀ q ∈ v.points, q.OnGlobe := by
  rcases toPoint_eq_ok h with rfl | ⟨⟨m, n, rfl⟩, hp⟩
  · simp [points]
  · simpa [points] using hp

end Value

/-! ### Points in filters -/

namespace Filter

open Value (points given IsFigure IsLegal)

theorem onGlobe_mapM_toPoint {items : List Value} {ps : List GeoPoint}
    (h : items.mapM toPoint = .ok ps) :
    (∀ p ∈ ps, p.OnGlobe) ↔ ∀ p ∈ items.flatMap points, p.OnGlobe := by
  rw [mapM_eq_ok_iff] at h
  induction h with
  | nil => simp
  | cons hp _ ih =>
    rw [List.forall_mem_cons, List.flatMap_cons, List.forall_mem_append, ih,
      Value.onGlobe_toPoint (mapError_eq_ok.1 hp)]

theorem onGlobe_shapePoint {v : Value} {p : GeoPoint} (h : shapePoint v = .ok (.point p)) :
    p.OnGlobe ↔ ∀ q ∈ v.given, q.OnGlobe := by
  unfold shapePoint at h
  split at h
  · cases h
    simp [given, points]
  · simp only [map_eq_ok, Value.point.injEq] at h
    obtain ⟨_, hq, rfl⟩ := h
    rcases Value.toPoint_eq_ok (mapError_eq_ok.1 hq) with heq | ⟨⟨m, n, heq⟩, hp⟩
    · cases heq
    · cases heq
      simpa [given, points] using hp
  · cases h

theorem onGlobe_shapeViewport {v : Value} {ne sw : GeoPoint}
    (h : shapeViewport v = .ok (.viewport ne sw)) :
    (∀ p ∈ [ne, sw], p.OnGlobe) ↔ ∀ p ∈ v.given, p.OnGlobe := by
  unfold shapeViewport at h
  split at h
  · obtain ⟨heq, -⟩ := makeViewport_eq_ok h
    cases heq
    rfl
  · rename_i a b
    simp only [bind_eq_ok] at h
    obtain ⟨p, hp, q, hq, h⟩ := h
    obtain ⟨heq, -⟩ := makeViewport_eq_ok h
    cases heq
    exact onGlobe_mapM_toPoint (mapM_eq_ok_iff.2 (.cons hp (.cons hq .nil)))
  · cases h
  · cases h

theorem onGlobe_shapePolygon {v : Value} {ps : List GeoPoint}
    (h : shapePolygon v = .ok (.polygon ps)) :
    (∀ p ∈ ps, p.OnGlobe) ↔ ∀ p ∈ v.given, p.OnGlobe := by
  unfold shapePolygon at h
  split at h
  · obtain ⟨heq, -⟩ := makePolygon_eq_ok h
    cases heq
    rfl
  · simp only [bind_eq_ok] at h
    obtain ⟨qs, hqs, h⟩ := h
    obtain ⟨heq, -⟩ := makePolygon_eq_ok h
    cases heq
    exact onGlobe_mapM_toPoint hqs
  · cases h

variable {op : Operator} {v w : Value}

/-- **What an operator on points makes of a value is a figure**, unless it is a viewport one of
whose latitudes is no number. -/
theorem isFigure_iff_of_shape (hop : op.isGeo = true) (h : shape op v = .ok w) :
    w.IsFigure ↔ ∀ ne sw, w = .viewport ne sw → ne.lat ≠ .nan ∧ sw.lat ≠ .nan := by
  cases op with
  | near =>
    obtain ⟨p, rfl⟩ := hasShape_of_shape h
    exact iff_of_true (.point p) (by rintro _ _ ⟨⟩)
  | viewport =>
    obtain ⟨ne, sw, hmake⟩ := shapeViewport_eq_ok h
    obtain ⟨rfl, hlat⟩ := makeViewport_eq_ok hmake
    constructor
    · intro hfigure _ _ heq
      cases heq
      cases hfigure with
      | viewport hle => exact hle.ne_nan.symm
    · intro hnumbers
      obtain ⟨hne, hsw⟩ := hnumbers ne sw rfl
      exact .viewport ((Coordinate.lt_eq_false_iff hne hsw).1 hlat)
  | polygon =>
    obtain ⟨ps, hmake⟩ := shapePolygon_eq_ok h
    obtain ⟨rfl, hlength⟩ := makePolygon_eq_ok hmake
    exact iff_of_true (.polygon hlength) (by rintro _ _ ⟨⟩)
  | _ => cases hop

/-- **Its points lie on the globe if those do that were given as such.** -/
theorem onGlobe_of_shape (hop : op.isGeo = true) (h : shape op v = .ok w) :
    (∀ p ∈ w.points, p.OnGlobe) ↔ ∀ p ∈ v.given, p.OnGlobe := by
  have hshape := hasShape_of_shape h
  cases op with
  | near =>
    obtain ⟨p, rfl⟩ := hshape
    rw [← onGlobe_shapePoint h]
    simp [points]
  | viewport =>
    obtain ⟨ne, sw, rfl⟩ := hshape
    exact onGlobe_shapeViewport h
  | polygon =>
    obtain ⟨ps, rfl⟩ := hshape
    exact onGlobe_shapePolygon h
  | _ => cases hop

/-- On the globe all latitudes are numbers. -/
theorem isLegal_iff_of_shape (hop : op.isGeo = true) (h : shape op v = .ok w) :
    w.IsLegal ↔ ∀ p ∈ v.given, p.OnGlobe := by
  have hpoints := onGlobe_of_shape hop h
  refine ⟨fun hlegal => hpoints.1 hlegal.onGlobe, fun hgiven => ?_⟩
  have honGlobe := hpoints.2 hgiven
  refine ⟨(isFigure_iff_of_shape hop h).2 ?_, honGlobe⟩
  rintro ne sw rfl
  obtain ⟨_, _, rfl⟩ := (honGlobe ne (by simp [points])).isFinite
  obtain ⟨_, _, rfl⟩ := (honGlobe sw (by simp [points])).isFinite
  exact ⟨nofun, nofun⟩

variable {field : Field} {f : Filter}

/-- **A made filter on points holds a figure**, unless it is a viewport one of whose latitudes is no
number, and it is legal just if all points that were given as such lie on the globe. -/
theorem isLegal_iff_given (h : make field op v = .ok f) (hop : op.isGeo = true) :
    (f.value.IsFigure ↔
        ∀ ne sw, f.value = .viewport ne sw → ne.lat ≠ .nan ∧ sw.lat ≠ .nan) ∧
      (f.value.IsLegal ↔ ∀ p ∈ v.given, p.OnGlobe) := by
  obtain ⟨-, -, hshape, -⟩ := make_eq_ok_iff.1 h
  exact ⟨isFigure_iff_of_shape hop hshape, isLegal_iff_of_shape hop hshape⟩

/-- A polygon of two lists of numbers and a point that is given as such. -/
theorem isLegal_iff_given_polygon :
    let at10 : Value := .list [.number (.whole 10), .number (.whole 10)]
    let at20 : Value := .list [.number (.whole 20), .number (.double (Double.ofInt 10))]
    let corner : Value := .point ⟨Double.ofInt (-90), Double.ofInt 180⟩
    ∃ f, make (Field.ofName "geo") .polygon (.list [at10, at20, corner]) = .ok f ∧
      f.value.IsLegal := by
  intro at10 at20 corner
  have hok : (make (Field.ofName "geo") .polygon (.list [at10, at20, corner])).isOk = true := by
    decide +kernel
  obtain ⟨f, hf⟩ := exists_eq_ok hok
  refine ⟨f, hf, (isLegal_iff_given hf rfl).2.2 fun p hp => ?_⟩
  have hcorner : p = ⟨Double.ofInt (-90), Double.ofInt 180⟩ := by
    simpa [given, points, at10, at20, corner] using hp
  rw [hcorner]
  exact GeoPoint.isValid_iff_onGlobe.1 (by decide +kernel)

/-- A point that is given as such is taken as it is, also five degrees beyond the pole, and so is a
viewport with a corner that lies neither north nor south of the other one. -/
theorem not_isLegal_of_given :
    let geo := Field.ofName "geo"
    let beyond : GeoPoint := ⟨Double.ofInt 95, Double.ofInt 0⟩
    let nowhere : GeoPoint := ⟨.nan, Double.ofInt 0⟩
    (make geo .near (.point beyond) = .ok ⟨geo, .near, .point beyond⟩ ∧
        ¬ (Value.point beyond).IsLegal) ∧
      make geo .viewport (.viewport nowhere beyond) =
          .ok ⟨geo, .viewport, .viewport nowhere beyond⟩ ∧
        ¬ (Value.viewport nowhere beyond).IsFigure := by
  refine ⟨⟨rfl, fun hlegal => ?_⟩, rfl, ?_⟩
  · have hvalid := GeoPoint.isValid_iff_onGlobe.2 (hlegal.onGlobe _ (List.mem_singleton_self _))
    revert hvalid
    decide +kernel
  · intro hfigure
    cases hfigure with
    | viewport hle => exact hle.ne_nan.2 rfl

end Filter

/-! ### Filters that were read -/

namespace Value

variable {v : Value}

/-- What the tokens of a literal write. -/
theorem isScalarOrNull_of_writes {t : Token} (h : t.Writes v) :
    Filter.isScalarOrNull v = true := by
  cases h <;> rfl

theorem points_of_isScalarOrNull (h : Filter.isScalarOrNull v = true) :
    v.points = [] ∧ v.given = [] := by
  cases v <;> first | exact ⟨rfl, rfl⟩ | cases h

theorem Derives.cases {levels : Nat} {ts : List Token} (h : Derives levels ts v) :
    Filter.isScalarOrNull v = true ∨
      ∃ items, v = .list items ∧ ∀ w ∈ items, ∃ us, Derives (levels - 1) us w := by
  cases levels with
  | zero =>
    obtain ⟨t, -, ht⟩ := h
    exact .inl (isScalarOrNull_of_writes ht)
  | succ levels =>
    rcases h with ⟨t, -, ht⟩ | ⟨us, items, -, rfl, hitems⟩
    · exact .inl (isScalarOrNull_of_writes ht)
    · exact .inr ⟨items, rfl, hitems.exists_of_mem⟩

theorem Derives.points_eq_nil {levels : Nat} {ts : List Token} (h : Derives levels ts v) :
    v.points = [] := by
  rcases h.cases with hs | ⟨items, rfl, -⟩
  · exact (points_of_isScalarOrNull hs).1
  · rfl

/-- No points are given in a text. -/
theorem Derives.given_eq_nil {levels : Nat} {ts : List Token} (h : Derives levels ts v) :
    v.given = [] := by
  rcases h.cases with hs | ⟨items, rfl, hitems⟩
  · exact (points_of_isScalarOrNull hs).2
  · rw [given, List.flatMap_eq_nil_iff]
    intro w hw
    obtain ⟨us, hus⟩ := hitems w hw
    exact hus.points_eq_nil

end Value

/-- **The geometry that tokens write is legal.** -/
theorem Expr.Derives.isLegal {fields : String → Except Error Field} {ts : List Token}
    {items : List Item} {n : Nat} (h : Expr.Derives fields ts items n) :
    ∀ f ∈ Item.leavesOf items, f.operator.isGeo = true → f.value.IsLegal := by
  intro f hf hop
  obtain ⟨us, -, hus⟩ := h.exists_filter f hf
  cases hus with
  | intro _ _ _ hv hmake =>
    obtain ⟨-, rfl, hshape, -⟩ := Filter.make_eq_ok_iff.1 hmake
    rw [Filter.isLegal_iff_of_shape hop hshape, hv.given_eq_nil]
    exact List.forall_mem_nil _

/-- **The geometry that was read from a text is legal.** -/
theorem Expr.isLegal_of_read {g : Grammar} {text : String} {e : Expr} (h : read g text = .ok e) :
    ∀ f ∈ e.leaves, f.operator.isGeo = true → f.value.IsLegal := by
  obtain ⟨ts, n, -, hd, -⟩ := read_eq_ok_iff.1 h
  exact hd.isLegal

end SearchDsl
