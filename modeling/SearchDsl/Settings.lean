import SearchDsl.Error
import SearchDsl.Expr
import SearchDsl.Table
import SearchDsl.Text.Character

/-!
# Settings

What the operator of the gateway sets for each index, and the limits that hold for all of them.
Settings that no request could satisfy are refused by `Settings.validate`. An index without settings
of its own has the default ones.
-/

namespace SearchDsl

/-- The settings of an index. -/
structure Settings where
  defaultSort : String
  sortDisabled : Bool
  defaultSize : Nat
  maxSize : Nat
  defaultFacetSize : Nat
  sourceIncludes : List String
  sourceExcludes : List String
  queryDefaultFields : List String
  defaultMinimumShouldMatch : String
  nearDistance : String
  deriving DecidableEq, Repr

namespace Settings

/-- The settings of an index for which nothing is set. -/
def standard : Settings where
  defaultSort := ""
  sortDisabled := false
  defaultSize := 20
  maxSize := 200
  defaultFacetSize := 20
  sourceIncludes := []
  sourceExcludes := []
  queryDefaultFields := []
  defaultMinimumShouldMatch := "75%"
  nearDistance := "1km"

instance : Inhabited Settings := ⟨standard⟩

/-- Some request could be satisfied: pages have a positive greatest size that the default size keeps
to, and searches by distance have a radius. -/
def validate (s : Settings) : Except ConfigFault Unit :=
  if s.maxSize = 0 then .error .maxSizeZero
  else if s.maxSize < s.defaultSize then .error (.sizeAboveMax s.defaultSize s.maxSize)
  else if Text.isBlankText s.nearDistance then .error .emptyNearDistance
  else .ok ()

/-- The settings are valid. -/
def isValid (s : Settings) : Bool := s.validate.isOk

end Settings

/-- The settings of the indices that have any. -/
structure SettingsTable where
  entries : List (String × Settings)
  deriving DecidableEq, Repr, Inhabited

namespace SettingsTable

/-- No index has settings. -/
def empty : SettingsTable := ⟨[]⟩

/-- The settings of an index, its own or the default ones. -/
def get (t : SettingsTable) (index : String) : Settings :=
  (t.entries.lookup index).getD .standard

/-- The index has settings of its own. -/
def contains (t : SettingsTable) (index : String) : Bool := (t.entries.lookup index).isSome

/-- The table with the settings of one index replaced. -/
def set (t : SettingsTable) (index : String) (s : Settings) : SettingsTable :=
  ⟨Table.set index s t.entries⟩

/-- The table without the settings of one index. -/
def erase (t : SettingsTable) (index : String) : SettingsTable := ⟨Table.erase index t.entries⟩

end SettingsTable

/-- The configuration of the gateway. -/
structure Config where
  maxFragments : Nat
  indices : List (String × Settings)
  deriving DecidableEq, Repr

namespace Config

/-- The configuration if nothing is set. -/
def standard : Config := ⟨Expr.maxFragments, []⟩

instance : Inhabited Config := ⟨standard⟩

/-- The configuration with the settings of one index replaced. -/
def withIndex (c : Config) (index : String) (s : Settings) : Config :=
  { c with indices := Table.set index s c.indices }

/-- Expressions may have fragments at all, and the settings of every index are valid. -/
def validate (c : Config) : Except ConfigFault Unit :=
  if c.maxFragments = 0 then .error .maxFragmentsZero
  else c.indices.forM fun (index, s) => s.validate.mapError (.index index)

end Config
end SearchDsl
