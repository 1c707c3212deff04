import SearchDsl.Json

/-!
# Writing JSON

A value on one line (`Json.compact`), or spread over lines with two more spaces for each level
(`Json.pretty`), where an empty array or object stays on its line. In a string the quotation mark,
the backslash and the control characters are escaped; five of the latter have short escapes, the
others are written with four hexadecimal digits.
-/

namespace SearchDsl.Json

/-- A hexadecimal digit. -/
def hexDigit (n : Nat) : Char := Nat.digitChar n

/-- A character inside a string. -/
def escapeChar (c : Char) : List Char :=
  if c = '"' then ['\\', '"']
  else if c = '\\' then ['\\', '\\']
  else if c = '\n' then ['\\', 'n']
  else if c = '\r' then ['\\', 'r']
  else if c = '\t' then ['\\', 't']
  else if c.toNat = 0x08 then ['\\', 'b']
  else if c.toNat = 0x0C then ['\\', 'f']
  else if c.toNat < 0x20 then
    ['\\', 'u', '0', '0', hexDigit (c.toNat / 16), hexDigit (c.toNat % 16)]
  else [c]

/-- A string between quotation marks. -/
def quote (s : String) : String := String.ofList ('"' :: s.toList.flatMap escapeChar ++ ['"'])

mutual

/-- The value on one line. -/
def compact : Json → String
  | null => "null"
  | bool b => if b then "true" else "false"
  | number n => n.text
  | string s => quote s
  | array items => "[" ++ ",".intercalate (compactItems items) ++ "]"
  | object members => "\x7b" ++ ",".intercalate (compactMembers members) ++ "\x7d"
  | unreadable => "null"

/-- The items of an array, each on one line. -/
def compactItems : List Json → List String
  | [] => []
  | j :: js => j.compact :: compactItems js

/-- The members of an object, each on one line. -/
def compactMembers : List (String × Json) → List String
  | [] => []
  | (k, j) :: rest => (quote k ++ ":" ++ j.compact) :: compactMembers rest

end

/-- The lines of a bracket with something in it, the first and the last at the given level. -/
def block (level : Nat) (opening closing : String) (lines : List String) : String :=
  let inner := "\n" ++ String.ofList (List.replicate (2 * (level + 1)) ' ')
  let outer := "\n" ++ String.ofList (List.replicate (2 * level) ' ')
  opening ++ inner ++ ("," ++ inner).intercalate lines ++ outer ++ closing

mutual

/-- The value over several lines, at the given level. -/
def prettyAt (level : Nat) : Json → String
  | array [] => "[]"
  | array (j :: js) => block level "[" "]" (prettyItems (level + 1) (j :: js))
  | object [] => "\x7b\x7d"
  | object (m :: ms) => block level "\x7b" "\x7d" (prettyMembers (level + 1) (m :: ms))
  | j => j.compact

/-- The items of an array at the given level. -/
def prettyItems (level : Nat) : List Json → List String
  | [] => []
  | j :: js => j.prettyAt level :: prettyItems level js

/-- The members of an object at the given level. -/
def prettyMembers (level : Nat) : List (String × Json) → List String
  | [] => []
  | (k, j) :: rest => (quote k ++ ": " ++ j.prettyAt level) :: prettyMembers level rest

end

/-- The value over several lines. -/
def pretty (j : Json) : String := j.prettyAt 0

end SearchDsl.Json
