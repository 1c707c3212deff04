import SearchDsl.Json
import SearchDsl.Value

/-!
# Values in the backend's language

Scalars and lists are what they are in JSON; a point is an object of its two coordinates, and a
viewport or polygon is a list of points.
-/

namespace SearchDsl

/-- The coordinate as JSON, which has no numbers but finite ones. -/
def Coordinate.toJson : Coordinate → Json
  | finite d => .double d
  | infinite _ | nan => .null

/-- The point as JSON. -/
def GeoPoint.toJson (p : GeoPoint) : Json :=
  Json.record [("lat", p.lat.toJson), ("lon", p.lon.toJson)]

theorem GeoPoint.member?_toJson (p : GeoPoint) :
    p.toJson.member? "lat" = some p.lat.toJson ∧ p.toJson.member? "lon" = some p.lon.toJson := by
  rw [toJson, Json.member?_record, Json.member?_record]
  exact ⟨rfl, rfl⟩

namespace Value

mutual

/-- The value as JSON. -/
def toJson : Value → Json
  | null => .null
  | bool b => .bool b
  | number n => .number n
  | string s => .string s
  | list items => .array (toJsons items)
  | point p => p.toJson
  | viewport ne sw => .array [ne.toJson, sw.toJson]
  | polygon points => .array (points.map GeoPoint.toJson)

/-- A list of values as JSON. -/
def toJsons : List Value → List Json
  | [] => []
  | v :: vs => v.toJson :: toJsons vs

end

theorem toJsons_eq_map (vs : List Value) : toJsons vs = vs.map toJson := by
  induction vs with
  | nil => rfl
  | cons v vs ih => simp [toJsons, ih]

end Value
end SearchDsl
