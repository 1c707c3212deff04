import SearchDsl.Expr

/-!
# Sorts

A sort is a list of items, at most one for a field: by the value of the field, by relevance, or by
distance from a point. An item on a field inside nested documents may say by a filter which of them
count.
-/

namespace SearchDsl

/-- What an item sorts by. -/
inductive SortKey
  | value
  | score
  | distance (origin : GeoPoint)
  deriving DecidableEq, Repr

/-- An item of a sort. -/
structure SortItem where
  field : Field
  direction : Direction
  key : SortKey
  filter : Option Expr
  deriving Repr

namespace SortItem

/-- The item that sorts by the value of a field. -/
def byValue (field : Field) (direction : Direction) : SortItem := ⟨field, direction, .value, none⟩

/-- The item that sorts by relevance, the most relevant first. -/
def byScore (field : Field) : SortItem := ⟨field, .descending, .score, none⟩

/-- The item that sorts by distance. -/
def byDistance (field : Field) (origin : GeoPoint) (direction : Direction) : SortItem :=
  ⟨field, direction, .distance origin, none⟩

/-- The item as it is written. -/
def text (i : SortItem) : String :=
  i.field.name ++
    (match i.key with
      | .distance origin => " NEAR " ++ origin.text
      | _ => "") ++
    " " ++ i.direction.word ++
    (match i.filter with
      | some e => " sortFilter: " ++ e.text
      | none => "")

/-- The item without the types of its fields. -/
def untyped (i : SortItem) : SortItem :=
  { i with field := i.field.untyped, filter := i.filter.map Expr.untyped }

/-- The items are equal. -/
def beq (i j : SortItem) : Bool :=
  i.field == j.field && i.direction == j.direction && i.key == j.key && i.filter == j.filter

instance : BEq SortItem := ⟨beq⟩

end SortItem

/-- A sort. -/
structure Sorting where
  items : List SortItem
  deriving BEq, Repr

namespace Sorting

/-- The sort of the items, of two on one field the earlier one. -/
def ofItems (items : List SortItem) : Sorting := ⟨distinctOn (fun i => i.field.names) items⟩

/-- The sort as it is written. -/
def text (s : Sorting) : String := ", ".intercalate (s.items.map SortItem.text)

/-- The sort without the types of its fields. -/
def untyped (s : Sorting) : Sorting := ⟨s.items.map SortItem.untyped⟩

end Sorting
end SearchDsl
