import SearchDsl.Expr.Reader
import SearchDsl.Sorting

/-!
# Reading sorts

The items of a sort stand between commas. An item is a field with an optional direction, and then
possibly `sortFilter:` and an expression; or a field with `NEAR`, a point and an optional direction;
or `_score` with an optional direction, which has no effect. A field of a known type has to have
values to sort by, and a filter needs a field inside nested documents.
-/

namespace SearchDsl

namespace Reading

/-- The word in front of the filter of an item. -/
def sortFilterWord : String := "sortFilter"

/-- An optional direction. Nothing but the end of the item may stand in its place. -/
def direction (r : Reading) : Except Error (Option Direction × Reading) :=
  if r.token = .comma || r.atEnd || r.token.isKeyword sortFilterWord then pure (none, r)
  else
    let unknown := .error (r.fault (.badDirection r.token))
    match r.token with
    | .word w =>
      match Direction.ofWord? w with
      | some d => do
        let r ← r.advance
        pure (some d, r)
      | none => unknown
    | _ => unknown

/-- The rest of an item that sorts by distance, after `NEAR`. -/
def distanceItem (field : Field) (r : Reading) : Except Error (SortItem × Reading) := do
  let refuse (f : ValueFault) := Error.badValue Operator.near.name f
  let (v, r) ← r.value
  let origin ← v.toPoint.mapError fun f => refuse (.notPoint f)
  match field.type? with
  | some type =>
    if !type.isGeo then throw (refuse (.needsGeoField field.name type .near))
  | none => pure ()
  let (d, r) ← r.direction
  pure (.byDistance field origin (d.getD .ascending), r)

/-- The field has values to sort by, as far as its type is known. -/
def checkSortable (field : Field) : Except Error Unit :=
  match field.type? with
  | some type =>
    if type.isGeo || !type.supportsSorting then
      .error (.badRequest (.notSortable type field.name))
    else .ok ()
  | none => .ok ()

/-- The filter of an item, after its word. -/
def sortFilter (g : Grammar) (field : Field) (r : Reading) : Except Error (Expr × Reading) := do
  let r ← r.expect .colon
  let (e, r) ← r.expr g r.fuel
  if field.isTyped && field.nestedPaths.isEmpty then
    .error (.badRequest (.sortFilterScope field.name))
  else pure (e, r)

/-- An item of a sort. -/
def sortItem (g : Grammar) (r : Reading) : Except Error (SortItem × Reading) := do
  let (field, r) ← r.field g
  if field.isScore then
    let (_, r) ← r.direction
    pure (.byScore field, r)
  else if r.token.isKeyword "NEAR" then
    let r ← r.advance
    distanceItem field r
  else
    checkSortable field
    let (d, r) ← r.direction
    let i := SortItem.byValue field (d.getD .ascending)
    if r.token.isKeyword sortFilterWord then
      let r ← r.advance
      let (e, r) ← r.sortFilter g field
      pure ({ i with filter := some e }, r)
    else pure (i, r)

end Reading

namespace Sorting

/-- The sort that a text holds. -/
def read (schema : Option Snapshot) (text : String) : Except Error Sorting := do
  let g : Grammar := ⟨schema, Expr.maxFragments⟩
  let r ← Reading.start text
  if r.atEnd then .error (r.fault .emptySort)
  else
    let (items, r) ← Reading.commaList (Reading.sortItem g) r.fuel r
    if r.atEnd then pure (ofItems items)
    else .error (r.fault (.expected "',' or end of input" r.token))

end Sorting
end SearchDsl
