import SearchDsl.Json.Decode
import SearchDsl.Schema.Mapping

/-!
# Mappings as JSON

A field is an object with its `type` and, if it can have fields below it, its `properties`. When
read, a missing type is `object`, missing or null properties are none, and members of other names
are skipped. An array stands for the two fields in that order.
-/

namespace SearchDsl

/-- The type of a field, by its name. -/
def FieldType.ofJson? : Json → Option FieldType := Json.named? fun s => some (FieldType.ofName s)

namespace FieldMapping

mutual

/-- The field as JSON. -/
def toJson : FieldMapping → Json
  | ⟨type, none⟩ => Json.record [("type", .string type.name)]
  | ⟨type, some fields⟩ =>
    Json.record [("properties", Json.record (tableToJson fields)), ("type", .string type.name)]

/-- The fields below another one as members of an object. -/
def tableToJson : List (String × FieldMapping) → List (String × Json)
  | [] => []
  | (name, field) :: rest => (name, field.toJson) :: tableToJson rest

end

mutual

/-- The field that the JSON value describes. -/
def ofJson? : Json → Option FieldMapping
  | .object members => do
    let (type, fields) ← readMembers members
    pure ⟨type.getD .object, fields.getD none⟩
  | .array [] => some (leaf .object)
  | .array [type] => (FieldType.ofJson? type).map leaf
  | .array [type, fields] => do
    pure ⟨← FieldType.ofJson? type, ← readProperties fields⟩
  | _ => none

/-- The type and the properties among the members of an object. Each may stand once. -/
def readMembers : List (String × Json) →
    Option (Option FieldType × Option (Option (List (String × FieldMapping))))
  | [] => some (none, none)
  | (name, j) :: rest => do
    let (type, fields) ← readMembers rest
    if name = "type" then
      if type.isSome then none else pure (some (← FieldType.ofJson? j), fields)
    else if name = "properties" then
      if fields.isSome then none else pure (type, some (← readProperties j))
    else pure (type, fields)

/-- The properties of a field, or null. -/
def readProperties : Json → Option (Option (List (String × FieldMapping)))
  | .null => some none
  | .object members => (readTable members).map some
  | _ => none

/-- The fields that the members of an object describe, of two of one name the later one. -/
def readTable : List (String × Json) → Option (List (String × FieldMapping))
  | [] => some []
  | (name, j) :: rest => do
    let field ← ofJson? j
    let table ← readTable rest
    pure (if (table.lookup name).isSome then table else Table.set name field table)

end

end FieldMapping

namespace Mapping

/-- The mapping as JSON. -/
def toJson (m : Mapping) : Json :=
  Json.record [("properties", Json.record (FieldMapping.tableToJson m.properties))]

/-- A table of fields. -/
def tableOfJson? : Json → Option Mapping
  | .object members => (FieldMapping.readTable members).map Mapping.mk
  | _ => none

/-- The mapping that the JSON value describes. -/
def ofJson? (j : Json) : Option Mapping := do
  let [properties] ← j.fields? ["properties"] | none
  Json.orDefault empty tableOfJson? properties

end Mapping
end SearchDsl
