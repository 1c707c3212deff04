import SearchDsl.Text.Case

/-!
# Operators, connectives and directions

The fixed words of the language. A relational operator has a canonical name, for some a short name,
and for some a symbol; words are read without regard to case.
-/

namespace SearchDsl

/-- The relation between a field and a value. -/
inductive Operator
  | equal
  | notEqual
  | greaterThan
  | greaterOrEqual
  | lessThan
  | lessOrEqual
  | like
  | range
  | isIn
  | viewport
  | polygon
  | near
  deriving DecidableEq, Repr, Inhabited

namespace Operator

/-- Every operator, in the order in which words are looked up. -/
def all : List Operator :=
  [equal, notEqual, greaterThan, greaterOrEqual, lessThan, lessOrEqual, like, range, isIn, viewport,
   polygon, near]

/-- The canonical name. -/
def name : Operator → String
  | equal => "EQUAL"
  | notEqual => "NOT_EQUAL"
  | greaterThan => "GREATER_THAN"
  | greaterOrEqual => "GREATER_OR_EQUAL"
  | lessThan => "LESS_THAN"
  | lessOrEqual => "LESS_OR_EQUAL"
  | like => "LIKE"
  | range => "RANGE"
  | isIn => "IN"
  | viewport => "VIEWPORT"
  | polygon => "POLYGON"
  | near => "NEAR"

/-- The short name. -/
def shortName? : Operator → Option String
  | equal => some "EQ"
  | notEqual => some "NE"
  | greaterThan => some "GT"
  | greaterOrEqual => some "GTE"
  | lessThan => some "LT"
  | lessOrEqual => some "LTE"
  | _ => none

/-- The operator that a word names, in any case. -/
def ofWord? (word : String) : Option Operator :=
  let w := Text.upper word
  all.find? fun op => op.name == w || op.shortName? == some w

/-- The operator that a symbol stands for. -/
def ofSymbol? (symbol : String) : Option Operator :=
  if symbol = "=" || symbol = ":" then some equal
  else if symbol = "<>" || symbol = "!=" then some notEqual
  else if symbol = ">" then some greaterThan
  else if symbol = ">=" then some greaterOrEqual
  else if symbol = "<" then some lessThan
  else if symbol = "<=" then some lessOrEqual
  else none

/-- Operators on points. -/
def isGeo : Operator → Bool
  | viewport | polygon | near => true
  | _ => false

/-- Comparisons with a single bound. -/
def isComparison : Operator → Bool
  | greaterThan | greaterOrEqual | lessThan | lessOrEqual => true
  | _ => false

end Operator

/-- How an item of an expression is joined to the one before it. -/
inductive Connective
  | and
  | or
  deriving DecidableEq, Repr, Inhabited

namespace Connective

/-- The word for the connective. -/
def name : Connective → String
  | and => "AND"
  | or => "OR"

/-- The connective that a word names, in any case. -/
def ofWord? (word : String) : Option Connective :=
  let w := Text.upper word
  if w = "AND" then some and else if w = "OR" then some or else none

end Connective

/-- The direction of a sort. -/
inductive Direction
  | ascending
  | descending
  deriving DecidableEq, Repr, Inhabited

namespace Direction

/-- The word for the direction in an expression. -/
def word : Direction → String
  | ascending => "ASC"
  | descending => "DESC"

/-- The word for the direction in the backend's language. -/
def name : Direction → String
  | ascending => "asc"
  | descending => "desc"

theorem name_injective : Function.Injective name := by
  intro a b
  cases a <;> cases b <;> decide

/-- The direction that a word names, in any case. -/
def ofWord? (word : String) : Option Direction :=
  let w := Text.upper word
  if w = "ASC" then some ascending else if w = "DESC" then some descending else none

end Direction

/-- How the terms of a free text are combined: all of them, or at least one. -/
inductive MatchOperator
  | and
  | or
  deriving DecidableEq, Repr, Inhabited

/-- The word for the operator. -/
def MatchOperator.name : MatchOperator → String
  | .and => "and"
  | .or => "or"

theorem MatchOperator.name_injective : Function.Injective MatchOperator.name := by
  intro a b
  cases a <;> cases b <;> decide

/-- The operator with the given name. -/
def MatchOperator.ofName? (s : String) : Option MatchOperator :=
  if s = "and" then some .and else if s = "or" then some .or else none

/-- The direction with the given name. -/
def Direction.ofName? (s : String) : Option Direction :=
  if s = "asc" then some .ascending else if s = "desc" then some .descending else none

end SearchDsl
