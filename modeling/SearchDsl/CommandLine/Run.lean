import SearchDsl.CommandLine
import SearchDsl.Gateway.Refresh
import SearchDsl.Json.Printer
import SearchDsl.Schema.Mapping.Json
import SearchDsl.Settings.Json
import SearchDsl.Text.Case

/-!
# Running the command line

A run loads the configuration and the mappings, publishes every mapping by the queue of refresh
events, and prints the query body for the one request. The first thing that goes wrong ends it.
-/

namespace SearchDsl

/-- Why a run fails. -/
inductive RunFault
  | badConfigFile (file : String)
  | missingMappingsFile (file : String)
  | badMappings
  | unknownOperator (word : String)
  | rejected (error : Error)
  deriving Repr

/-- The wording of the fault. -/
def RunFault.message : RunFault → String
  | badConfigFile file => "loading config " ++ file
  | missingMappingsFile file => "reading mappings " ++ file
  | badMappings => "parsing mappings"
  | unknownOperator word => "unknown operator '" ++ word ++ "', expected 'and' or 'or'"
  | rejected error => error.message

/-- What a run that succeeds prints: the body, and the counters where they are asked for. -/
structure Report where
  body : String
  metrics : List String
  deriving DecidableEq, Repr

/-- The counters that are kept in total, as lines of name and value. -/
def Counters.totals (c : Counters) : List String :=
  ["searchgate_requests_compiled_total " ++ toString c.compiled,
   "searchgate_snapshot_refreshes_total " ++ toString c.refreshes,
   "searchgate_sort_fallbacks_total " ++ toString c.sortFallbacks]

/-- The configuration in a file, or the standard one if no file is named. -/
def Config.ofFile (files : String → Option String) : Option String → Except RunFault Config
  | none => .ok standard
  | some file =>
    match (files file).map Config.ofText with
    | some (.ok c) => .ok c
    | _ => .error (.badConfigFile file)

/-- The mappings of all indices, as the members of an object. -/
def Mapping.tableOfText? (text : String) : Option (List (String × Mapping)) :=
  (Json.read? text).bind (Json.table? Mapping.ofJson?)

/-- The operator that a word names, in any case. -/
def MatchOperator.ofWord? (word : String) : Option MatchOperator := ofName? (Text.lower word)

/-- The gateway at its start, with every mapping published. -/
def Gateway.load (config : Config) (mappings : List (String × Mapping)) : Gateway :=
  let events := mappings.map fun (index, m) => RefreshEvent.mappingChanged index m
  let queue := events.foldl (fun q e => (q.send e).2) RefreshQueue.empty
  queue.drain { Gateway.ofConfig config with counters := some .zero }

namespace Invocation

/-- The operator of the free text. -/
def matchOperator (i : Invocation) : Except RunFault (Option MatchOperator) :=
  match i.operator with
  | none => .ok none
  | some word =>
    match MatchOperator.ofWord? word with
    | some o => .ok (some o)
    | none => .error (.unknownOperator (Text.lower word))

/-- The run of an invocation over files given by their names. -/
def run (files : String → Option String) (i : Invocation) : Except RunFault Report := do
  let config ← Config.ofFile files i.configFile
  let some text := files i.mappingsFile | .error (.missingMappingsFile i.mappingsFile)
  let some mappings := Mapping.tableOfText? text | .error .badMappings
  let operator ← i.matchOperator
  let (result, gateway) := (Gateway.load config mappings).compile { i.request with operator }
  match result with
  | .error e => .error (.rejected e)
  | .ok search => .ok {
      body := search.toJson.pretty
      metrics := if i.printMetrics then (gateway.counters.getD .zero).totals else [] }

end Invocation
end SearchDsl
