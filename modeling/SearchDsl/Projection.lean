import SearchDsl.Json.Decode
import SearchDsl.Schema.Snapshot
import SearchDsl.Settings

/-!
# Projections

Which fields of the documents are returned: those that are included, or all if none is named,
without those that are excluded. A request that names fields takes the place of the defaults of the
index, for includes and excludes apart; an excluded field is taken out of the includes, and an
exclude that is included has no further use.

The defaults of an index are its settings without the names that the mapping does not know.
-/

namespace SearchDsl

/-- The names of the fields to include and to exclude. -/
structure Projection where
  includes : List String
  excludes : List String
  deriving DecidableEq, Repr, Inhabited

namespace Projection

/-- All fields but the excluded ones are returned. -/
def isExcludeOnly (p : Projection) : Bool := p.includes.isEmpty

/-- The projection as JSON. -/
def toJson (p : Projection) : Json :=
  Json.record [("includes", Json.strings p.includes), ("excludes", Json.strings p.excludes)]

/-- The projection that a JSON value describes. -/
def ofJson? (j : Json) : Option Projection := do
  let [some includes, some excludes] ← j.fields? ["includes", "excludes"] | none
  pure ⟨← includes.strings?, ← excludes.strings?⟩

/-- Names without the blanks around them, each once, and without blank names. -/
def cleaned (names : List String) : List String :=
  distinctOn id ((names.map Text.trim).filter fun n => !n.isEmpty)

/-- Some name is not blank. -/
def isRequested (names : List String) : Bool := names.any fun n => !Text.isBlankText n

/-- The mapping knows the name, or it stands for all fields. -/
def isKnown (schema : Snapshot) (name : String) : Bool := (schema.resolve name true).isOk

/-- The cleaned names, all of which the mapping has to know. -/
def checked (schema : Snapshot) (names : List String) : Except Error (List String) := do
  let names := cleaned names
  names.forM fun n => do
    let _ ← schema.resolve n true
  pure names

/-- The defaults of an index. -/
def defaults (schema : Snapshot) (settings : Settings) : Projection where
  includes := (cleaned settings.sourceIncludes).filter (isKnown schema)
  excludes := (cleaned settings.sourceExcludes).filter (isKnown schema)

/-- The requested names, or the default ones if none is requested. -/
def chosen (schema : Snapshot) (default requested : List String) : Except Error (List String) :=
  if isRequested requested then checked schema requested else .ok default

/-- The includes without the excludes, and the excludes that are of use beside them. -/
def subtract (includes excludes : List String) : Projection :=
  if includes.isEmpty then ⟨[], excludes⟩
  else
    ⟨includes.filter fun n => !excludes.contains n, excludes.filter fun n => !includes.contains n⟩

/-- The projection of a request, on top of the defaults. -/
def ofRequest (schema : Snapshot) (defaults : Projection) (includes excludes : List String) :
    Except Error Projection := do
  let includes ← chosen schema defaults.includes includes
  let excludes ← chosen schema defaults.excludes excludes
  pure (subtract includes excludes)

end Projection
end SearchDsl
