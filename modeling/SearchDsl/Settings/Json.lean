import SearchDsl.Json.Decode
import SearchDsl.Json.Reader
import SearchDsl.Settings

/-!
# Settings as JSON

Settings and configurations are objects in which every member may be missing; a missing one has its
default value. Members of other names are skipped.
-/

namespace SearchDsl

namespace Settings

/-- The settings as JSON. -/
def toJson (s : Settings) : Json := Json.record [
  ("default_sort", .string s.defaultSort),
  ("sort_disabled", .bool s.sortDisabled),
  ("default_size", .nat s.defaultSize),
  ("max_size", .nat s.maxSize),
  ("default_facet_size", .nat s.defaultFacetSize),
  ("source_includes", Json.strings s.sourceIncludes),
  ("source_excludes", Json.strings s.sourceExcludes),
  ("query_default_fields", Json.strings s.queryDefaultFields),
  ("default_minimum_should_match", .string s.defaultMinimumShouldMatch),
  ("near_distance", .string s.nearDistance)]

/-- The names of the members, in the order of the fields. -/
def names : List String :=
  ["default_sort", "sort_disabled", "default_size", "max_size", "default_facet_size",
   "source_includes", "source_excludes", "query_default_fields", "default_minimum_should_match",
   "near_distance"]

/-- The settings that a JSON value describes. -/
def ofJson? (j : Json) : Option Settings := do
  let [sort, disabled, size, max, facetSize, includes, excludes, fields, minimum, distance] ←
    j.fields? names | none
  let d := standard
  pure {
    defaultSort := ← Json.orDefault d.defaultSort Json.string? sort
    sortDisabled := ← Json.orDefault d.sortDisabled Json.bool? disabled
    defaultSize := ← Json.orDefault d.defaultSize Json.unsigned? size
    maxSize := ← Json.orDefault d.maxSize Json.unsigned? max
    defaultFacetSize := ← Json.orDefault d.defaultFacetSize Json.unsigned? facetSize
    sourceIncludes := ← Json.orDefault d.sourceIncludes Json.strings? includes
    sourceExcludes := ← Json.orDefault d.sourceExcludes Json.strings? excludes
    queryDefaultFields := ← Json.orDefault d.queryDefaultFields Json.strings? fields
    defaultMinimumShouldMatch := ← Json.orDefault d.defaultMinimumShouldMatch Json.string? minimum
    nearDistance := ← Json.orDefault d.nearDistance Json.string? distance }

end Settings

namespace Config

/-- The configuration as JSON. -/
def toJson (c : Config) : Json := Json.record [
  ("max_fragments", .nat c.maxFragments),
  ("indices", Json.record (c.indices.map fun (index, s) => (index, s.toJson)))]

/-- The configuration that a JSON value describes. -/
def ofJson? (j : Json) : Option Config := do
  let [limit, indices] ← j.fields? ["max_fragments", "indices"] | none
  pure {
    maxFragments := ← Json.orDefault standard.maxFragments Json.unsigned? limit
    indices := ← Json.orDefault standard.indices (Json.table? Settings.ofJson?) indices }

/-- The valid configuration that a text holds. -/
def ofText (text : String) : Except Error Config :=
  match (Json.read? text).bind ofJson? with
  | none => .error .badJson
  | some c =>
    match c.validate with
    | .ok () => .ok c
    | .error fault => .error (.badConfig fault)

end Config
end SearchDsl
