import SearchDsl.Query
import SearchDsl.Request
import SearchDsl.Schema.Snapshot
import SearchDsl.Settings

/-!
# Free text

A text is looked for in the fields that the request names, or in the default ones of the index. A
field may carry a boost after `^`, a positive number. Fields inside the same nested documents are
searched together, those of different ones apart, and it is enough if one of the searches finds
something.
-/

namespace SearchDsl

/-- A number as a boost may be written: digits with or without a point, an exponent, a sign, or a
word for infinity. -/
inductive Boost
  | finite (d : Double)
  | infinite (negative : Bool)
  deriving DecidableEq, Repr

namespace Boost

/-- The characters after a sign at their front, and whether the sign is a minus. -/
def unsigned : List Char → Bool × List Char
  | '+' :: cs => (false, cs)
  | '-' :: cs => (true, cs)
  | cs => (false, cs)

/-- The words for infinity. -/
def infinityWords : List String := ["inf", "infinity"]

/-- The exponent after the digits of a number, zero if there is none. -/
def exponent? : List Char → Option Int
  | [] => some 0
  | c :: cs =>
    if c = 'e' || c = 'E' then
      let (negative, digits) := unsigned cs
      let n : Int := Decimal.ofDigits digits
      if digits.isEmpty || !digits.all Char.isDigit then none
      else some (if negative then -n else n)
    else none

/-- The number written by digits, with or without a point and an exponent. -/
def decimal? (negative : Bool) (cs : List Char) : Option Decimal := do
  let whole := cs.takeWhile Char.isDigit
  let rest := cs.dropWhile Char.isDigit
  let (fraction, rest) := match rest with
    | '.' :: cs => (cs.takeWhile Char.isDigit, cs.dropWhile Char.isDigit)
    | rest => ([], rest)
  if whole.isEmpty && fraction.isEmpty then none
  else pure ⟨negative, Decimal.ofDigits (whole ++ fraction), (← exponent? rest) - fraction.length⟩

/-- The number that a text writes. -/
def ofText? (text : String) : Option Boost :=
  let (negative, cs) := unsigned text.toList
  if infinityWords.contains (String.ofList (cs.map Char.toLower)) then some (infinite negative)
  else (decimal? negative cs).map fun x =>
    match x.nearest? with
    | some d => finite d
    | none => infinite negative

/-- The number is greater than zero. -/
def isPositive : Boost → Bool
  | finite d => !d.negative && d.rank ≠ 0
  | infinite negative => !negative

end Boost

namespace FreeText

/-- The text before the first `^`, and the one after it. -/
def splitBoost (spec : String) : String × Option String :=
  let cs := spec.toList
  let name := String.ofList (cs.takeWhile (· != '^'))
  match cs.dropWhile (· != '^') with
  | [] => (name, none)
  | _ :: boost => (name, some (String.ofList boost))

/-- The name of the field in a specification whose boost, if any, is a positive number. -/
def fieldName (spec : String) : Except Error String :=
  match splitBoost spec with
  | (name, none) => .ok name
  | (name, some boost) =>
    if (Boost.ofText? boost).any Boost.isPositive then .ok name
    else .error (.badRequest (.badBoost spec))

/-- The nested paths of the field that a specification names. -/
def pathsOf (schema : Snapshot) (spec : String) : Except Error (List String) := do
  let field ← schema.resolve (← fieldName spec) true
  pure field.nestedPaths

/-- Fields that are searched together, and the nested documents they lie in. -/
structure Group where
  paths : List String
  specs : List String
  deriving DecidableEq, Repr

/-- The groups with one more field, in the group of its paths or in a new one at the end. -/
def addTo (paths : List String) (spec : String) : List Group → List Group
  | [] => [⟨paths, [spec]⟩]
  | g :: gs =>
    if g.paths = paths then { g with specs := g.specs ++ [spec] } :: gs
    else g :: addTo paths spec gs

/-- The fields by the nested documents they lie in, in order of first mention. -/
def groups (schema : Snapshot) (specs : List String) : Except Error (List Group) :=
  specs.foldlM (fun gs spec => do pure (addTo (← pathsOf schema spec) spec gs)) []

/-- The fields to search: those of the request that are not blank, or the default ones of the index.
-/
def specs (settings : Settings) (fields : List String) : List String :=
  let requested := fields.filter fun f => !Text.isBlankText f
  (if requested.isEmpty then settings.queryDefaultFields else requested).map Text.trim

/-- The search of a group. -/
def search (text : String) (operator : MatchOperator) (minimum : String) (g : Group) : Query :=
  Query.within g.paths (.primitive (.multiMatch text g.specs operator (some minimum)))

/-- The searches of all groups as one query. -/
def combine : List Query → Query
  | [q] => q
  | qs => .bool { Clauses.empty with should := qs }

/-- The query for the text of a request, if it has one that is not blank. -/
def query (schema : Snapshot) (settings : Settings) (request : Request) :
    Except Error (Option Query) :=
  match Text.nonBlank request.text with
  | none => .ok none
  | some text => do
    let gs ← groups schema (specs settings request.fields)
    let gs := if gs.isEmpty then [⟨[], []⟩] else gs
    let operator := request.operator.getD .or
    let minimum := request.minimumShouldMatch.getD settings.defaultMinimumShouldMatch
    pure (some (combine (gs.map (search (Text.trim text) operator minimum))))

end FreeText
end SearchDsl
