import SearchDsl.Query

/-!
# Queries by their parts

Some primitive queries also have a plain form, an object of the field and what is asked of it, in
which they can be stored and read back. The bounds of a range stand beside its field.
-/

namespace SearchDsl.Primitive

/-- The parts of a query of one of the kinds that have a plain form. -/
def parts? : Primitive → Option Json
  | present field => some (Json.record [("field", .string field)])
  | term field value => some (Json.record [("field", .string field), ("value", value)])
  | terms field values => some (Json.record [("field", .string field), ("values", .array values)])
  | range field bounds => some (Json.record (("field", .string field) :: bounds.members))
  | wildcard field pattern =>
    some (Json.record [("field", .string field), ("pattern", .string pattern)])
  | _ => none

/-- The field and one more part, both of which have to be there. -/
def pair? (name : String) (j : Json) : Option (String × Json) := do
  let [some field, some part] ← j.fields? ["field", name] | none
  pure (← field.string?, part)

/-- The existence query that a JSON value describes. -/
def presentOfJson? (j : Json) : Option Primitive := do
  let [some field] ← j.fields? ["field"] | none
  pure (present (← field.string?))

/-- The term query that a JSON value describes. -/
def termOfJson? (j : Json) : Option Primitive := do
  let (field, value) ← pair? "value" j
  pure (term field value)

/-- The query for several terms that a JSON value describes. -/
def termsOfJson? (j : Json) : Option Primitive := do
  let (field, values) ← pair? "values" j
  pure (terms field (← values.list? some))

/-- The wildcard query that a JSON value describes. -/
def wildcardOfJson? (j : Json) : Option Primitive := do
  let (field, pattern) ← pair? "pattern" j
  pure (wildcard field (← pattern.string?))

/-- The range query that an object describes. -/
def rangeOfJson? : Json → Option Primitive
  | .object members => do
    let some field :: bounds ← (Json.object members).fields? ("field" :: Bounds.names) | none
    pure (range (← field.string?) (← Bounds.ofFields? bounds))
  | _ => none

end SearchDsl.Primitive
