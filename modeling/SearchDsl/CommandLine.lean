import SearchDsl.Number.Decimal
import SearchDsl.Request

/-!
# The command line

A request can be given by options, together with the files that hold the configuration and the
mappings. Options stand in any order; the value of an option is the next word, or is attached to the
name by `=`.

* A switch takes no value.
* A value that is a word of its own may begin with a hyphen only where it is a signed number.
* A list is cut at its commas, and its option may stand several times; any other option stands at
  most once.

Everything else on the command line is refused (`Invocation.ofWords?` is none), and so are numbers
that are not whole numbers of 64 bits. A file that is not named by an option may be named by the
environment.
-/

namespace SearchDsl
namespace CommandLine

/-- What an option takes: nothing, a value, a value that may begin with a hyphen, or a list. -/
inductive Takes
  | nothing
  | value
  | signed
  | list
  deriving DecidableEq, Repr

/-- The options. -/
def options : List (String × Takes) :=
  [("config", .value), ("mappings", .value), ("index", .value), ("filter", .value),
   ("sort", .value), ("disable-sort", .nothing), ("facets", .value), ("facet-size", .value),
   ("include", .list), ("exclude", .list), ("q", .value), ("fields", .list), ("operator", .value),
   ("mm", .value), ("from", .signed), ("size", .signed), ("print-metrics", .nothing)]

/-- An option and its value, which is empty for a switch. -/
abbrev Setting := String × String

/-- The name in a word that begins with two hyphens, and the value that is attached to it. -/
def nameAndValue? (word : String) : Option (String × Option String) :=
  match word.toList with
  | '-' :: '-' :: cs =>
    let name := String.ofList (cs.takeWhile (· ≠ '='))
    match cs.dropWhile (· ≠ '=') with
    | [] => some (name, none)
    | _ :: value => some (name, some (String.ofList value))
  | _ => none

/-- The word can be the value of the option before it. -/
def isValue (takes : Takes) (word : String) : Bool :=
  takes = .signed || word = "-" || word.toList.head? ≠ some '-'

/-- The options on the command line, in their order. A lone `--` may stand at the end. -/
def settings? : List String → Option (List Setting)
  | [] => some []
  | ["--"] => some []
  | word :: rest => do
    let (name, attached) ← nameAndValue? word
    match ← options.lookup name, attached, rest with
    | .nothing, none, rest => return (name, "") :: (← settings? rest)
    | .nothing, some _, _ => none
    | _, some value, rest => return (name, value) :: (← settings? rest)
    | _, none, [] => none
    | takes, none, value :: rest =>
      if isValue takes value then return (name, value) :: (← settings? rest) else none

/-- The values of an option. -/
def valuesOf (name : String) (settings : List Setting) : List String :=
  (settings.filter (·.1 = name)).map (·.2)

/-- Options that stand several times are lists. -/
def areSingle (settings : List Setting) : Bool :=
  options.all fun (name, takes) => takes = .list || (valuesOf name settings).length ≤ 1

/-- The value of digits, of which there is at least one. -/
def digits? (cs : List Char) : Option Nat :=
  if !cs.isEmpty && cs.all Char.isDigit then some (Decimal.ofDigits cs) else none

/-- A whole number of the unsigned 64-bit range; it may have a plus sign. -/
def unsigned? (word : String) : Option Nat := do
  let n ← match word.toList with
    | '+' :: cs => digits? cs
    | cs => digits? cs
  if Numeral.isUnsigned64 n then some n else none

/-- A whole number of the signed 64-bit range. -/
def signed? (word : String) : Option Int := do
  let i ← match word.toList with
    | '-' :: cs => (digits? cs).map fun n => -(n : Int)
    | '+' :: cs => (digits? cs).map Int.ofNat
    | cs => (digits? cs).map Int.ofNat
  if Numeral.isSigned64 i then some i else none

/-- The value of an option that may be missing. -/
def optional? (read? : String → Option α) : Option String → Option (Option α)
  | none => some none
  | some word => (read? word).map some

/-- A file's name is not empty. -/
def fileName? (word : String) : Option String := if word.isEmpty then none else some word

end CommandLine

/-- What the command line asks for. The operator of the free text is still a word. -/
structure Invocation where
  configFile : Option String
  mappingsFile : String
  operator : Option String
  printMetrics : Bool
  request : Request
  deriving DecidableEq, Repr

namespace Invocation

open CommandLine

/-- The variable that may name the configuration. -/
def configVariable : String := "SEARCHGATE_CONFIG"

/-- The variable that may name the mappings. -/
def mappingsVariable : String := "SEARCHGATE_MAPPINGS"

/-- The invocation by the words of the command line, in an environment. -/
def ofWords? (environment : String → Option String) (words : List String) : Option Invocation := do
  let settings ← settings? words
  guard (areSingle settings)
  let value (name : String) : Option String := (valuesOf name settings).head?
  let file (name key : String) : Option (Option String) :=
    optional? fileName? ((value name).or (environment key))
  let names (name : String) : List String := (valuesOf name settings).flatMap (·.splitOn ",")
  return {
    configFile := ← file "config" configVariable
    mappingsFile := ← ← file "mappings" mappingsVariable
    operator := value "operator"
    printMetrics := (value "print-metrics").isSome
    request := {
      index := ← value "index"
      filter := value "filter"
      sort := value "sort"
      disableSort := (value "disable-sort").isSome
      facets := value "facets"
      facetSize := ← optional? unsigned? (value "facet-size")
      includeFields := names "include"
      excludeFields := names "exclude"
      text := value "q"
      fields := names "fields"
      operator := none
      minimumShouldMatch := value "mm"
      offset := ← optional? signed? (value "from")
      size := ← optional? signed? (value "size") } }

end Invocation
end SearchDsl
