import SearchDsl.Number.Numeral
import SearchDsl.Table

/-!
# JSON values

The format of mappings, settings, requests and of the backend's query bodies. An object keeps its
members in the order they were written in; `Json.record` builds an object with its members in key
order, of two members of one key the later one.

A text can be well-formed and still hold a part without a value: a number beyond the finite doubles,
a string with half a surrogate pair, or arrays and objects nested more than `Json.maxDepth` levels
deep. Such a part is `unreadable`. Whoever needs it fails; whoever skips it does not notice.
-/

namespace SearchDsl

/-- A JSON value. -/
inductive Json
  | null
  | bool (b : Bool)
  | number (n : Numeral)
  | string (s : String)
  | array (items : List Json)
  | object (members : List (String × Json))
  | unreadable
  deriving BEq, Repr, Inhabited

namespace Json

/-- How deep arrays and objects may be nested. -/
def maxDepth : Nat := 127

/-- An object with its members in key order; of two members of one key the later one counts. -/
def record (members : List (String × Json)) : Json := .object (Table.ofList members)

/-- A whole number. -/
def nat (n : Nat) : Json := .number (.whole n)

/-- A whole number. -/
def int (n : Int) : Json := .number (.whole n)

/-- A double. -/
def double (d : Double) : Json := .number (.double d)

/-- A list of texts. -/
def strings (texts : List String) : Json := .array (texts.map .string)

/-- The member of a key, the first one if there are several. -/
def member? (key : String) : Json → Option Json
  | object members => members.lookup key
  | _ => none

theorem member?_record (members : List (String × Json)) (key : String) :
    (record members).member? key = members.reverse.lookup key :=
  Table.lookup_ofList members key

theorem record_single_inj {k k' : String} {j j' : Json} :
    record [(k, j)] = record [(k', j')] ↔ k = k' ∧ j = j' := by
  show object [(k, j)] = object [(k', j')] ↔ _
  simp

theorem string_injective : Function.Injective string := fun _ _ => string.inj

/-- A value is one text at most. -/
theorem string_unique {j? : Option Json} {s s' : String} (h : j? = some (string s))
    (h' : j? = some (string s')) : s = s' :=
  string.inj (Option.some.inj (h.symm.trans h'))

mutual

/-- The value with every object's members in key order, the later of two members of one key. -/
def sorted : Json → Json
  | array items => .array (sortedItems items)
  | object members => record (sortedMembers members)
  | j => j

/-- `sorted` on the items of an array. -/
def sortedItems : List Json → List Json
  | [] => []
  | j :: js => j.sorted :: sortedItems js

/-- `sorted` on the members of an object. -/
def sortedMembers : List (String × Json) → List (String × Json)
  | [] => []
  | (k, j) :: rest => (k, j.sorted) :: sortedMembers rest

end

end Json
end SearchDsl
