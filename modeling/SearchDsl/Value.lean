import SearchDsl.Geo
import SearchDsl.Number.Numeral
import SearchDsl.Text.Quoted

/-!
# Literal values

The right-hand side of a filter: a scalar, a list, or one of the three shapes of points that the
geographic operators take. Each value has one written form, which reads back as the value it came
from (a shape is read as a list of lists).
-/

namespace SearchDsl

/-- A literal value. A viewport holds its north-east corner and then its south-west one. -/
inductive Value
  | null
  | bool (b : Bool)
  | number (n : Numeral)
  | string (s : String)
  | list (items : List Value)
  | point (p : GeoPoint)
  | viewport (northEast southWest : GeoPoint)
  | polygon (points : List GeoPoint)
  deriving BEq, Repr

/-- Why a value is not a point. -/
inductive Value.PointFault
  | offGlobe (fault : GeoPoint.Fault)
  | notNumbers (v : Value)
  | notPair (shape : String)
  deriving Repr

namespace Value

/-- The word for the kind of value. -/
def shape : Value → String
  | null => "null"
  | bool _ => "boolean"
  | number _ => "number"
  | string _ => "string"
  | list _ => "list"
  | point _ => "geo point"
  | viewport _ _ => "viewport"
  | polygon _ => "polygon"

/-- Truth values, numbers and strings. -/
def isScalar : Value → Bool
  | bool _ | number _ | string _ => true
  | _ => false

/-- The null literal. -/
def isNull : Value → Bool
  | null => true
  | _ => false

/-- Numbers and strings, which have an order. -/
def isOrdered : Value → Bool
  | number _ | string _ => true
  | _ => false

/-- The value of a number as a double. -/
def toDouble? : Value → Option Double
  | number n => some n.toDouble
  | _ => none

/-- Texts between brackets, with commas. -/
def bracketed (texts : List String) : String := "[" ++ ", ".intercalate texts ++ "]"

mutual

/-- The value as it is written. -/
def text : Value → String
  | null => "null"
  | bool b => if b then "true" else "false"
  | number n => n.text
  | string s => Text.Quoted.write s
  | list items => bracketed (texts items)
  | point p => p.text
  | viewport ne sw => bracketed [ne.text, sw.text]
  | polygon points => bracketed (points.map GeoPoint.text)

/-- The values as they are written. -/
def texts : List Value → List String
  | [] => []
  | v :: vs => v.text :: texts vs

end

theorem texts_eq_map (vs : List Value) : texts vs = vs.map text := by
  induction vs with
  | nil => rfl
  | cons v vs ih => simp [texts, ih]

/-- The wording of the fault. -/
def PointFault.message : PointFault → String
  | .offGlobe fault => fault.message
  | .notNumbers v => "geo point must hold two numbers, got " ++ v.text
  | .notPair shape => "expected a geo point [lat, lon], got " ++ shape

/-- The value as a point: a list of two numbers, latitude first, that lies on the globe, or a point.
-/
def toPoint : Value → Except PointFault GeoPoint
  | point p => .ok p
  | list [a, b] =>
    match a.toDouble?, b.toDouble? with
    | some lat, some lon => (GeoPoint.make lat lon).mapError .offGlobe
    | _, _ => .error (.notNumbers (list [a, b]))
  | v => .error (.notPair v.shape)

end Value
end SearchDsl
