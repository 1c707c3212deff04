/-!
# Field types

The types that an index mapping gives to its fields. Numbers, strings, points and containers are
told apart because the filter operators treat them differently; a type without special treatment is
`other`.
-/

namespace SearchDsl

/-- The type of a mapped field. -/
inductive FieldType
  | text
  | keyword
  | long
  | integer
  | short
  | byte
  | double
  | float
  | halfFloat
  | scaledFloat
  | boolean
  | date
  | geoPoint
  | nested
  | object
  | other
  deriving DecidableEq, Repr, Inhabited

namespace FieldType

/-- Every type, `other` last. -/
def all : List FieldType :=
  [text, keyword, long, integer, short, byte, double, float, halfFloat, scaledFloat, boolean, date,
   geoPoint, nested, object, other]

/-- The name in a mapping. -/
def name : FieldType → String
  | text => "text"
  | keyword => "keyword"
  | long => "long"
  | integer => "integer"
  | short => "short"
  | byte => "byte"
  | double => "double"
  | float => "float"
  | halfFloat => "half_float"
  | scaledFloat => "scaled_float"
  | boolean => "boolean"
  | date => "date"
  | geoPoint => "geo_point"
  | nested => "nested"
  | object => "object"
  | other => "other"

/-- The type with the given name; a name that is not known is `other`. -/
def ofName (s : String) : FieldType := (all.find? (·.name == s)).getD other

/-- Whole and fractional numbers of any width. -/
def isNumeric : FieldType → Bool
  | long | integer | short | byte | double | float | halfFloat | scaledFloat => true
  | _ => false

/-- Analysed text and exact keywords. -/
def isString : FieldType → Bool
  | text | keyword => true
  | _ => false

/-- Points on the globe. -/
def isGeo : FieldType → Bool
  | geoPoint => true
  | _ => false

/-- Lists of documents that are indexed on their own: a query below such a field looks at one of
them at a time. -/
def isNested : FieldType → Bool
  | nested => true
  | _ => false

/-- Types that hold further fields instead of a value. -/
def isContainer : FieldType → Bool
  | nested | object => true
  | _ => false

/-- Fields of the type have values to sort by. -/
def supportsSorting (t : FieldType) : Bool := t != text && !t.isContainer

/-- Fields of the type have values to count. -/
def supportsAggregation (t : FieldType) : Bool := t != text && t != geoPoint && !t.isContainer

theorem isNumeric_iff {t : FieldType} :
    t.isNumeric = true ↔
      t ∈ [long, integer, short, byte, double, float, halfFloat, scaledFloat] := by
  cases t <;> decide

theorem isNested_iff {t : FieldType} : t.isNested = true ↔ t = nested := by cases t <;> decide

theorem ofName_name (t : FieldType) : ofName t.name = t := by cases t <;> decide

end FieldType
end SearchDsl
