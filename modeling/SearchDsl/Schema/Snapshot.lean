import SearchDsl.Error
import SearchDsl.Schema.Mapping

/-!
# Snapshots

The mapping of an index as it was when it was published, with the table of its fields. A name
resolves to the field of the table; the meta fields resolve without a mapping, and `*` where
wildcards are allowed.
-/

namespace SearchDsl

/-- The mapping of an index at one moment. The generation counts the changes up to then. -/
structure Snapshot where
  index : String
  mapping : Mapping
  generation : Nat
  fields : List (String × Field)
  fields_eq : fields = mapping.fields

namespace Snapshot

/-- The snapshot of a mapping. -/
def ofMapping (index : String) (mapping : Mapping) (generation : Nat) : Snapshot :=
  ⟨index, mapping, generation, mapping.fields, rfl⟩

/-- The fields that every document has. -/
def metaFields : List String := [Field.idName, Field.scoreName, "_index"]

/-- The name that stands for all fields. -/
def wildcard : String := "*"

/-- How many fields the table has. -/
def fieldCount (s : Snapshot) : Nat := s.fields.length

/-- The type of the field at a dotted path. -/
def type? (s : Snapshot) (path : String) : Option FieldType := (s.fields.lookup path).bind (·.type?)

/-- The field of a dotted name. -/
def resolve (s : Snapshot) (name : String) (allowWildcard : Bool) : Except Error Field :=
  if name = wildcard then
    if allowWildcard then .ok (Field.ofName name) else .error (.unknownField name s.index)
  else if metaFields.contains name then .ok (Field.ofName name)
  else match s.fields.lookup name with
    | some field => .ok field
    | none => .error (.unknownField name s.index)

end Snapshot
end SearchDsl
