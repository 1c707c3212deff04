import SearchDsl.Query.OfExpr
import SearchDsl.Settings
import SearchDsl.Sorting.Reader

/-!
# Sort clauses

The backend's form of a sort. A clause on a field inside nested documents names them from the
outermost to the innermost one, where the filter of the item holds.

A sort that is missing, cannot be read or names an unknown field is replaced by the default one of
the index; if that cannot be used either, nothing is left of it. In any case the last resort is the
`_id`, descending, unless there is a clause of that name: so no two documents are left in an
accidental order.
-/

namespace SearchDsl

/-- The nested documents that a clause looks into, outermost first. A filter holds in the innermost.
-/
inductive SortScope
  | innermost (path : String) (filter : Option (Clauses Query))
  | outer (path : String) (inner : SortScope)
  deriving Repr

namespace SortScope

/-- The scope of a chain of paths, if there are any. -/
def ofPaths (filter : Option (Clauses Query)) : List String → Option SortScope
  | [] => none
  | path :: paths =>
    match ofPaths filter paths with
    | none => some (innermost path filter)
    | some inner => some (outer path inner)

/-- How many documents lie in one another. -/
def depth : SortScope → Nat
  | innermost .. => 1
  | outer _ inner => inner.depth + 1

/-- The scope as JSON. -/
def toJson : SortScope → Json
  | innermost path filter =>
    Json.record (("path", .string path) ::
      (filter.map fun c => ("filter", (Query.bool c).toJson)).toList)
  | outer path inner => Json.record [("path", .string path), ("nested", inner.toJson)]

end SortScope

/-- A clause of a sort. Relevance is always descending. -/
inductive SortClause
  | field (name : String) (direction : Direction) (scope : Option SortScope)
  | score
  | distance (name : String) (origin : GeoPoint) (direction : Direction) (scope : Option SortScope)
  deriving Repr

namespace SortClause

/-- The clause that decides between documents that are equal so far. -/
def tiebreak : SortClause := field Field.idName .descending none

/-- The name of the field that the clause sorts by. -/
def fieldName : SortClause → String
  | field name .. | distance name .. => name
  | score => Field.scoreName

/-- The nested documents that the clause looks into. -/
def scope? : SortClause → Option SortScope
  | field _ _ scope | distance _ _ _ scope => scope
  | score => none

/-- The scope of a clause as a member of its object. -/
def scopeMember (scope : Option SortScope) : List (String × Json) :=
  (scope.map fun s => ("nested", s.toJson)).toList

/-- The clause as JSON. A clause by distance names its field beside the direction, the unit and the
scope. -/
def toJson : SortClause → Json
  | field name direction scope =>
    Json.record [(name, Json.record (("order", .string direction.name) :: scopeMember scope))]
  | score =>
    Json.record [(Field.scoreName, Json.record [("order", .string Direction.descending.name)])]
  | distance name origin direction scope =>
    Json.record [("_geo_distance", Json.record
      ([(name, origin.toJson), ("order", .string direction.name), ("unit", .string "km")] ++
        scopeMember scope))]

/-- The clause for an item of a sort. -/
def ofItem (settings : Settings) (i : SortItem) : Except Error SortClause := do
  let paths := i.field.nestedPaths
  let filter ← match i.filter with
    | some e => do pure (some (← Query.ofExpr ⟨settings.nearDistance, paths⟩ e))
    | none => pure none
  let scope := SortScope.ofPaths filter paths
  pure <| match i.key with
    | .score => score
    | .value => field i.field.name i.direction scope
    | .distance origin => distance i.field.name origin i.direction scope

/-- The clauses for the sort that a text holds. -/
def ofText (schema : Snapshot) (settings : Settings) (text : String) :
    Except Error (List SortClause) :=
  if Text.isBlankText text then .error (.badRequest .emptySort)
  else do
    let s ← Sorting.read (some schema) text
    s.items.mapM (ofItem settings)

/-- The clauses for the default sort of the index, or none if it cannot be used. -/
def ofDefault (schema : Snapshot) (settings : Settings) : List SortClause :=
  if Text.isBlankText settings.defaultSort then []
  else ((ofText schema settings settings.defaultSort).toOption).getD []

/-- The clauses with the tiebreak at the end, unless one of them has its name. -/
def withTiebreak (clauses : List SortClause) : List SortClause :=
  if clauses.any fun c => c.fieldName == Field.idName then clauses else clauses ++ [tiebreak]

/-- The clauses for a requested sort, and whether the default took its place. Where sorting is
disabled there are none. -/
def ofRequest (schema : Snapshot) (settings : Settings) (requested : Option String)
    (disabled : Bool) : List SortClause × Bool :=
  if disabled || settings.sortDisabled then ([], false)
  else match ofText schema settings (requested.getD "") with
    | .ok clauses => (withTiebreak clauses, false)
    | .error _ => (withTiebreak (ofDefault schema settings), true)

end SortClause
end SearchDsl
