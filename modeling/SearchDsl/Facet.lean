import SearchDsl.Json
import SearchDsl.Settings
import SearchDsl.Token.Reading

/-!
# Facets

A facet list names fields, between commas, whose values are to be counted. A NOT in front of a field
has no effect on that. Each field of the list is counted once; a field inside nested documents is
counted inside them, from the outermost to the innermost.
-/

namespace SearchDsl

/-- The fields of a facet list, each once. -/
structure Facets where
  fields : List Field
  deriving Repr

namespace Facets

/-- The facet list of the fields, of two of one path the earlier one. -/
def ofFields (fields : List Field) : Facets := ⟨distinctOn Field.names fields⟩

/-- The facet list as it is written. -/
def text (f : Facets) : String := ", ".intercalate (f.fields.map Field.name)

end Facets

namespace Reading

/-- The field has values to count, as far as its type is known. -/
def checkCountable (field : Field) : Except Error Unit :=
  match field.type? with
  | some type =>
    if type.supportsAggregation then .ok ()
    else .error (.badRequest (.notCountable type field.name))
  | none => .ok ()

/-- A NOT or nothing. -/
def leadingNot (r : Reading) : Except Error (Bool × Reading) :=
  if r.token.isKeyword "NOT" then do
    let r ← r.advance
    pure (true, r)
  else pure (false, r)

/-- A field whose values can be counted, with or without a NOT. -/
def facet (g : Grammar) (r : Reading) : Except Error (Field × Reading) := do
  let (negated, r) ← r.leadingNot
  let (field, r) ← r.field g
  checkCountable field
  pure ({ field with negated := negated }, r)

end Reading

namespace Facets

/-- The facet list that a text holds. -/
def read (schema : Option Snapshot) (text : String) : Except Error Facets := do
  let g : Grammar := ⟨schema, Expr.maxFragments⟩
  let r ← Reading.start text
  if r.atEnd then .error (r.fault .emptyFacets)
  else
    let (fields, r) ← Reading.commaList (Reading.facet g) r.fuel r
    if r.atEnd then pure (ofFields fields)
    else .error (r.fault (.expected "',' or end of input" r.token))

end Facets

/-- The count of the values of a field, the most frequent first. -/
structure Aggregation where
  name : String
  field : String
  size : Nat
  nestedPaths : List String
  deriving DecidableEq, Repr

namespace Aggregation

/-- The count of a field inside nested documents, outermost first. -/
def within (name : String) (paths : List String) (counted : Json) : Json :=
  paths.foldr (fun path inner => Json.record [
    ("nested", Json.record [("path", .string path)]),
    ("aggs", Json.record [(name, inner)])]) counted

/-- What the aggregation says under its name. -/
def body (a : Aggregation) : Json :=
  within a.name a.nestedPaths <| Json.record [("terms", Json.record
    [("field", .string a.field), ("size", .nat a.size),
     ("order", Json.record [("_count", .string "desc")])])]

/-- The aggregations as JSON, by their names. -/
def toJson (as : List Aggregation) : Json := Json.record (as.map fun a => (a.name, a.body))

/-- The aggregations for a facet list. A size of zero stands for the default one. -/
def ofFacets (settings : Settings) (size : Option Nat) (f : Facets) : List Aggregation :=
  let size := (size.filter fun n => 0 < n).getD settings.defaultFacetSize
  f.fields.map fun field => ⟨field.name, field.name, size, field.nestedPaths⟩

/-- The aggregations for the facet list that a text holds. -/
def ofText (schema : Snapshot) (settings : Settings) (size : Option Nat) (text : String) :
    Except Error (List Aggregation) := do
  pure (ofFacets settings size (← Facets.read (some schema) text))

end Aggregation
end SearchDsl
