import SearchDsl.Error
import SearchDsl.Field

/-!
# Filters

A filter relates a field to a value. `Filter.make` accepts it only if

* the operator takes values of that shape, where lists of numbers become points, viewports and
  polygons under the operators on points, and
* the value fits the type of the field, if that is known.
-/

namespace SearchDsl

/-- A field, an operator and a value. -/
structure Filter where
  field : Field
  operator : Operator
  value : Value
  deriving BEq, Repr

namespace Filter

/-- The refusal of a value for its shape. -/
def unexpected (expected : String) (v : Value) : Except ValueFault α :=
  .error (.unexpected expected v.shape)

/-- A value as a point. -/
def toPoint (v : Value) : Except ValueFault GeoPoint := v.toPoint.mapError .notPoint

/-- The bounds of a range: two numbers or strings, and of two numbers the lower one first. -/
def shapeRange (v : Value) : Except ValueFault Value :=
  match v with
  | .list items =>
    match items with
    | [lower, upper] =>
      match items.find? fun b => !b.isOrdered with
      | some bound => unexpected "numeric or string bounds" bound
      | none =>
        match lower.toDouble?, upper.toDouble? with
        | some a, some b => if b.lt a then .error (.boundsReversed lower upper) else .ok v
        | _, _ => .ok v
    | _ => .error (.boundCount items.length)
  | v => unexpected "a list of 2 bounds" v

/-- A viewport of the two corners, the north-east one first. It may not lie south of the other. -/
def makeViewport (northEast southWest : GeoPoint) : Except ValueFault Value :=
  if northEast.lat.lt southWest.lat then .error (.cornersReversed northEast southWest)
  else .ok (.viewport northEast southWest)

/-- Two corners of a viewport. -/
def shapeViewport : Value → Except ValueFault Value
  | .viewport ne sw => makeViewport ne sw
  | .list [a, b] => do makeViewport (← toPoint a) (← toPoint b)
  | .list items => .error (.cornerCount items.length)
  | v => unexpected "2 corner points" v

/-- A polygon of the points, which are at least three. -/
def makePolygon (points : List GeoPoint) : Except ValueFault Value :=
  if points.length < 3 then .error (.polygonSize points.length) else .ok (.polygon points)

/-- The points of a polygon. -/
def shapePolygon : Value → Except ValueFault Value
  | .polygon points => makePolygon points
  | .list items => do makePolygon (← items.mapM toPoint)
  | v => unexpected "a list of at least 3 points" v

/-- A non-empty list of scalars. -/
def shapeList : Value → Except ValueFault Value
  | .list items =>
    if !items.isEmpty && items.all Value.isScalar then .ok (.list items)
    else unexpected "a non-empty list of scalars" (.list items)
  | v => unexpected "a non-empty list of scalars" v

/-- A single point. -/
def shapePoint : Value → Except ValueFault Value
  | .point p => .ok (.point p)
  | .list items => (toPoint (.list items)).map .point
  | v => unexpected "a geo point [lat, lon]" v

/-- A value that passes a test. -/
def shapeIf (test : Value → Bool) (expected : String) (v : Value) : Except ValueFault Value :=
  if test v then .ok v else unexpected expected v

/-- A scalar or null. -/
def isScalarOrNull (v : Value) : Bool := v.isScalar || v.isNull

/-- A string. -/
def isString : Value → Bool
  | .string _ => true
  | _ => false

/-- The value in the shape that the operator takes. -/
def shape : Operator → Value → Except ValueFault Value
  | .equal | .notEqual => shapeIf isScalarOrNull "a scalar or null"
  | .greaterThan | .greaterOrEqual | .lessThan | .lessOrEqual =>
    shapeIf Value.isOrdered "a number or string"
  | .like => shapeIf isString "a string"
  | .range => shapeRange
  | .isIn => shapeList
  | .near => shapePoint
  | .viewport => shapeViewport
  | .polygon => shapePolygon

/-- The values that a comparison with the value looks at: the items of a list, or the value itself.
-/
def compared : Value → List Value
  | .list items => items
  | v => [v]

/-- Fields of the type can hold the value. -/
def accepts (type : FieldType) (v : Value) : Bool :=
  if type.isNumeric then match v with
    | .number _ => true
    | _ => false
  else match type, v with
    | .boolean, .bool _ => true
    | .boolean, _ => false
    | .date, v => v.isOrdered
    | _, _ => true

/-- The value fits a field of the type. -/
def checkType (field : String) (type : FieldType) (op : Operator) (v : Value) :
    Except ValueFault Unit :=
  if op.isGeo then if type.isGeo then .ok () else .error (.needsGeoField field type op)
  else if v.isNull then .ok ()
  else if type.isGeo then .error (.geoFieldOnly field)
  else if type.isContainer then .error (.containerOnly type field)
  else if op = .like && !type.isString then .error (.likeNeedsString field type)
  else match (compared v).find? fun x => !accepts type x with
    | some x => .error (.notAccepted type field x)
    | none => .ok ()

/-- The value fits the field. A field of unknown type takes every value. -/
def check (field : Field) (op : Operator) (v : Value) : Except ValueFault Unit :=
  match field.type? with
  | none => .ok ()
  | some type => checkType field.name type op v

/-- The filter, if the operator takes the value and the value fits the field. -/
def make (field : Field) (op : Operator) (v : Value) : Except Error Filter :=
  match shape op v with
  | .error fault => .error (.badValue op.name fault)
  | .ok v =>
    match check field op v with
    | .error fault => .error (.badValue op.name fault)
    | .ok () => .ok ⟨field, op, v⟩

/-- The filter as it is written. -/
def text (f : Filter) : String := f.field.name ++ " " ++ f.operator.name ++ " " ++ f.value.text

/-- The filter without the types of its field. -/
def untyped (f : Filter) : Filter := { f with field := f.field.untyped }

end Filter
end SearchDsl
