import SearchDsl.Json

/-!
# Reading values out of JSON

Readers of the parts of a JSON value; a value of another kind is refused. Whole numbers are read
only from numbers written without a fraction and an exponent.

The fields of a structure are read from an object, where members of other names are skipped and no
field may stand twice, or from an array of the fields in their order, which may break off early
(`Json.fields?`).
-/

namespace SearchDsl.Json

/-- A truth value. -/
def bool? : Json → Option Bool
  | bool b => some b
  | _ => none

/-- A text. -/
def string? : Json → Option String
  | string s => some s
  | _ => none

/-- A whole number of the unsigned 64-bit range. -/
def unsigned? : Json → Option Nat
  | number n => n.toUnsigned64?
  | _ => none

/-- A whole number of the signed 64-bit range. -/
def signed? : Json → Option Int
  | number n => n.toSigned64?
  | _ => none

/-- Any number, as a double. -/
def double? : Json → Option Double
  | number n => some n.toDouble
  | _ => none

/-- A list, each item of which is read by `item?`. -/
def list? (item? : Json → Option α) : Json → Option (List α)
  | array items => items.mapM item?
  | _ => none

/-- A list of texts. -/
def strings? : Json → Option (List String) := list? string?

/-- Null, or what `value?` reads. -/
def nullable? (value? : Json → Option α) : Json → Option (Option α)
  | null => some none
  | j => (value? j).map some

/-- A name out of a fixed list, alone or as the only key of an object whose member is null. -/
def named? (ofName? : String → Option α) : Json → Option α
  | string s => ofName? s
  | object [(s, null)] => ofName? s
  | _ => none

/-- No name of the list stands twice among the members. -/
def areUnique (names : List String) (members : List (String × Json)) : Bool :=
  names.all fun name => (members.filter (·.1 == name)).length ≤ 1

/-- The fields of a structure, in the order of their names. A missing one is none. -/
def fields? (names : List String) : Json → Option (List (Option Json))
  | object members =>
    if areUnique names members then some (names.map fun name => members.lookup name) else none
  | array items =>
    if items.length ≤ names.length then
      some (items.map some ++ List.replicate (names.length - items.length) none)
    else none
  | _ => none

/-- A field that may be missing. -/
def orDefault (default : α) (value? : Json → Option α) : Option Json → Option α
  | none => some default
  | some j => value? j

/-- The values of an object by their keys, of two members of one key the later one. -/
def table? (value? : Json → Option α) : Json → Option (List (String × α))
  | object members =>
    (members.mapM fun m => (value? m.2).map fun v => (m.1, v)).map Table.ofList
  | _ => none

end SearchDsl.Json
