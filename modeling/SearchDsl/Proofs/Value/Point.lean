import SearchDsl.Value.Json

/-!
# Coordinates that are not looked at

A point that is given as such may have any coordinates. Those that were made of numbers lie on the
globe, and so they are finite.

* `GeoPoint.isFinite_of_isValid`: a point on the globe has finite coordinates;
* `GeoPoint.toJson_eq_iff`: the JSON of a point shows its finite coordinates, and of the others only
  that they are none (`GeoPoint.visible`);
* `GeoPoint.twin`: a point that has the same JSON, and is another one just if a coordinate is not
  finite. Of two corners none passes the other by it (`Coordinate.lt_of_lt_twin`).
-/

namespace SearchDsl

/-! ### Finite coordinates -/

namespace Coordinate

theorem place_lt (d : Double) :
    -(Double.rankCount : Int) < d.place ∧ d.place < Double.rankCount := by
  have hrank := d.rank_lt
  unfold Double.place
  split <;> omega

theorem le_finite (a b : Double) : Coordinate.le a b = a.le b := rfl

theorem lt_finite (a b : Double) : Coordinate.lt a b = a.lt b := rfl

/-- What lies between finite numbers is finite. -/
theorem exists_finite_of_le {a b : Double} {c : Coordinate} (ha : Coordinate.le a c = true)
    (hb : c.le b = true) : ∃ d : Double, c = d := by
  cases c with
  | finite d => exact ⟨d, rfl⟩
  | infinite negative =>
    have hplace := place_lt a
    have hplace' := place_lt b
    cases negative <;> simp [le, place?] at ha hb <;> omega
  | nan => cases ha

end Coordinate

namespace GeoPoint

/-- Both coordinates are finite. -/
def IsFinite (p : GeoPoint) : Prop := ∃ lat lon : Double, p = ⟨lat, lon⟩

theorem exists_finite_of_within {bound : Nat} {c : Coordinate} (h : within bound c = true) :
    ∃ d : Double, c = d := by
  rw [within, Bool.and_eq_true] at h
  exact Coordinate.exists_finite_of_le h.1 h.2

theorem isFinite_of_isValid {p : GeoPoint} (h : p.isValid = true) : p.IsFinite := by
  rw [isValid, Bool.and_eq_true] at h
  obtain ⟨lat, hlat⟩ := exists_finite_of_within h.1
  obtain ⟨lon, hlon⟩ := exists_finite_of_within h.2
  exact ⟨lat, lon, by rw [← hlat, ← hlon]⟩

end GeoPoint

/-! ### What JSON shows -/

namespace Coordinate

/-- The coordinate as far as its JSON shows it. -/
def visible : Coordinate → Coordinate
  | finite d => finite d
  | infinite _ | nan => nan

theorem toJson_eq_iff {a b : Coordinate} : a.toJson = b.toJson ↔ a.visible = b.visible := by
  cases a <;> cases b <;> simp [toJson, visible, Json.double]

end Coordinate

namespace GeoPoint

/-- The point as far as its JSON shows it. -/
def visible (p : GeoPoint) : GeoPoint := ⟨p.lat.visible, p.lon.visible⟩

variable {p q : GeoPoint}

/-- **The JSON of a point shows its finite coordinates.** -/
theorem toJson_eq_iff : p.toJson = q.toJson ↔ p.visible = q.visible := by
  rw [visible, visible, mk.injEq, ← Coordinate.toJson_eq_iff, ← Coordinate.toJson_eq_iff]
  constructor
  · intro h
    obtain ⟨hlat, hlon⟩ := p.member?_toJson
    rw [h] at hlat hlon
    obtain ⟨hlat', hlon'⟩ := q.member?_toJson
    exact ⟨Option.some.inj (hlat.symm.trans hlat'), Option.some.inj (hlon.symm.trans hlon')⟩
  · rintro ⟨hlat, hlon⟩
    rw [toJson, toJson, hlat, hlon]

theorem toJson_visible (p : GeoPoint) : p.visible.toJson = p.toJson := by
  obtain ⟨lat, lon⟩ := p
  cases lat <;> cases lon <;> rfl

theorem IsFinite.visible_eq (h : p.IsFinite) : p.visible = p := by
  obtain ⟨lat, lon, rfl⟩ := h
  rfl

theorem isFinite_visible_iff : p.visible.IsFinite ↔ p.IsFinite := by
  constructor
  · rintro ⟨lat, lon, h⟩
    obtain ⟨a, b⟩ := p
    cases a <;> cases b <;> cases h
    exact ⟨_, _, rfl⟩
  · intro h
    rwa [h.visible_eq]

end GeoPoint

/-! ### Points with the same JSON -/

namespace Coordinate

/-- A coordinate with the same JSON: of those that are not shown another one, at the upper or at the
lower end. -/
def twin (up : Bool) : Coordinate → Coordinate
  | finite d => finite d
  | infinite _ => nan
  | nan => infinite (!up)

theorem visible_twin (up : Bool) (c : Coordinate) : (c.twin up).visible = c.visible := by
  cases c <;> rfl

theorem twin_eq_self_iff {up : Bool} {c : Coordinate} : c.twin up = c ↔ ∃ d : Double, c = d := by
  cases c <;> simp [twin]

/-- Twins of coordinates at the upper and at the lower end are in the wrong order only if the
coordinates are. -/
theorem lt_of_lt_twin {a b : Coordinate} (h : (a.twin true).lt (b.twin false) = true) :
    a.lt b = true := by
  cases a with
  | finite d =>
    have hplace := place_lt d
    cases b <;> simp [twin, lt, place?] at h ⊢ <;> omega
  | infinite negative => cases h
  | nan =>
    cases b with
    | finite d =>
      have hplace := place_lt d
      simp [twin, lt, place?] at h
      omega
    | infinite negative => cases h
    | nan =>
      simp [twin, lt, place?] at h
      omega

end Coordinate

namespace GeoPoint

/-- A point with the same JSON. -/
def twin (up : Bool) (p : GeoPoint) : GeoPoint := ⟨p.lat.twin up, p.lon.twin up⟩

variable {up : Bool} {p : GeoPoint}

theorem toJson_twin : (p.twin up).toJson = p.toJson := by
  rw [toJson_eq_iff, visible, twin, Coordinate.visible_twin, Coordinate.visible_twin]
  rfl

/-- **The twin of a point is another one** if and only if a coordinate is not finite. -/
theorem twin_eq_self_iff : p.twin up = p ↔ p.IsFinite := by
  obtain ⟨lat, lon⟩ := p
  simp only [twin, mk.injEq, Coordinate.twin_eq_self_iff, IsFinite]
  constructor
  · rintro ⟨⟨a, rfl⟩, b, rfl⟩
    exact ⟨a, b, rfl, rfl⟩
  · rintro ⟨a, b, rfl, rfl⟩
    exact ⟨⟨a, rfl⟩, b, rfl⟩

end GeoPoint
end SearchDsl
