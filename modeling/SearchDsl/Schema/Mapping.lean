import SearchDsl.Distinct
import SearchDsl.Field
import SearchDsl.Table

/-!
# Mappings

The tree of the fields of an index. A field has a type and may have fields below it; a path leads
from the root through the fields of its segments. Names may hold dots themselves; such a field is
listed by `Mapping.flatten`, but no path leads to it.
-/

namespace SearchDsl

/-- A field with its type and, if it can have any, the fields below it. -/
structure FieldMapping where
  type : FieldType
  properties : Option (List (String × FieldMapping))
  deriving Repr

/-- The fields of an index, in a table by their names. -/
structure Mapping where
  properties : List (String × FieldMapping)
  deriving Repr

namespace FieldMapping

/-- A field without fields below it. -/
def leaf (type : FieldType) : FieldMapping := ⟨type, none⟩

/-- The field with another field below it, in place of one of the same name. -/
def property (m : FieldMapping) (name : String) (child : FieldMapping) : FieldMapping :=
  { m with properties := some (Table.set name child (m.properties.getD [])) }

instance : Inhabited FieldMapping := ⟨leaf .object⟩

/-- The fields along a path, outermost first; none if one of them is missing. -/
def along : Option (List (String × FieldMapping)) → List String → Option (List FieldMapping)
  | _, [] => some []
  | none, _ :: _ => none
  | some fields, name :: names => do
    let field ← fields.lookup name
    let below ← along field.properties names
    pure (field :: below)

/-- The name of a field below the named one. Below a nameless field names stand alone. -/
def fullName (above name : String) : String := if above.isEmpty then name else above ++ "." ++ name

mutual

/-- The names and types of the fields below the named one, each field before the fields below it. -/
def flattenField (name : String) : FieldMapping → List (String × FieldType)
  | ⟨_, none⟩ => []
  | ⟨_, some fields⟩ => flattenFields name fields

/-- The names and types of the fields and of those below them. -/
def flattenFields (above : String) : List (String × FieldMapping) → List (String × FieldType)
  | [] => []
  | (name, field) :: rest =>
    (fullName above name, field.type) ::
      (flattenField (fullName above name) field ++ flattenFields above rest)

end

end FieldMapping

namespace Mapping

/-- No fields. -/
def empty : Mapping := ⟨[]⟩

/-- The mapping with another field, in place of one of the same name. -/
def field (m : Mapping) (name : String) (f : FieldMapping) : Mapping :=
  ⟨Table.set name f m.properties⟩

/-- The fields along a dotted path. -/
def along (m : Mapping) (path : String) : Option (List FieldMapping) :=
  FieldMapping.along (some m.properties) (splitDots path)

/-- The field at a dotted path. -/
def get? (m : Mapping) (path : String) : Option FieldMapping := (m.along path).bind (·.getLast?)

/-- The types along a dotted path, outermost first. -/
def types? (m : Mapping) (path : String) : Option (List FieldType) :=
  (m.along path).map (·.map (·.type))

/-- Every field's dotted name and type. -/
def flatten (m : Mapping) : List (String × FieldType) := FieldMapping.flattenFields "" m.properties

/-- The fields that a path leads to, by their dotted names, each with the types along its path. -/
def fields (m : Mapping) : List (String × Field) :=
  distinctOn Prod.fst <| m.flatten.filterMap fun (name, _) =>
    (m.types? name).map fun types => (name, Field.typed name types)

end Mapping
end SearchDsl
