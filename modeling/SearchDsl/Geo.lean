import SearchDsl.Number.Layout

/-!
# Points on the globe

A latitude and a longitude in degrees. `GeoPoint.make` accepts what lies on the globe; a point built
directly is not checked, and its coordinates may be infinite or no numbers at all.
-/

namespace SearchDsl

/-- A coordinate in the 64-bit format: a finite number, an infinity, or `nan`, which is no number.
Nothing tells one `nan` from another. -/
inductive Coordinate
  | finite (d : Double)
  | infinite (negative : Bool)
  | nan
  deriving DecidableEq, Repr

namespace Coordinate

instance : Coe Double Coordinate := ⟨finite⟩

/-- Where the number stands among all others. The infinities stand next to the greatest magnitudes,
and `nan` stands nowhere. -/
def place? : Coordinate → Option Int
  | finite d => some d.place
  | infinite negative => some (if negative then -(Double.rankCount : Int) else Double.rankCount)
  | nan => none

/-- Order by value. Nothing is above or below `nan`. -/
def le (a b : Coordinate) : Bool :=
  match a.place?, b.place? with
  | some x, some y => x ≤ y
  | _, _ => false

/-- Strict order by value. -/
def lt (a b : Coordinate) : Bool :=
  match a.place?, b.place? with
  | some x, some y => x < y
  | _, _ => false

/-- The coordinate as it is written. -/
def text : Coordinate → String
  | finite d => Layout.coordinate.text d
  | infinite negative => if negative then "-inf" else "inf"
  | nan => "NaN"

end Coordinate

/-- Latitude and longitude in degrees. -/
structure GeoPoint where
  lat : Coordinate
  lon : Coordinate
  deriving DecidableEq, Repr

/-- Which coordinate is off the globe. -/
inductive GeoPoint.Fault
  | latitude (c : Coordinate)
  | longitude (c : Coordinate)
  deriving DecidableEq, Repr

namespace GeoPoint

/-- The wording of the fault. -/
def Fault.message : Fault → String
  | .latitude c => "latitude " ++ c.text ++ " is outside [-90, 90]"
  | .longitude c => "longitude " ++ c.text ++ " is outside [-180, 180]"

/-- The number lies between `-bound` and `bound`, both included. -/
def within (bound : Nat) (c : Coordinate) : Bool :=
  Coordinate.le (Double.ofInt (-bound)) c && c.le (Double.ofInt bound)

/-- The point lies on the globe. -/
def isValid (p : GeoPoint) : Bool := within 90 p.lat && within 180 p.lon

/-- The point with the given coordinates, if it lies on the globe. -/
def make (lat lon : Coordinate) : Except Fault GeoPoint :=
  if !within 90 lat then .error (.latitude lat)
  else if !within 180 lon then .error (.longitude lon)
  else .ok ⟨lat, lon⟩

theorem make_eq_ok_iff {lat lon : Coordinate} {p : GeoPoint} :
    make lat lon = .ok p ↔ p = ⟨lat, lon⟩ ∧ p.isValid = true := by
  unfold make isValid
  by_cases h₁ : within 90 lat = true <;> by_cases h₂ : within 180 lon = true <;> simp [h₁, h₂]
  · exact ⟨fun h => h ▸ ⟨rfl, h₁, h₂⟩, fun h => h.1.symm⟩
  all_goals
    rintro rfl
    simp_all

/-- The point as it is written: `[lat, lon]`. -/
def text (p : GeoPoint) : String := "[" ++ p.lat.text ++ ", " ++ p.lon.text ++ "]"

end GeoPoint
end SearchDsl
