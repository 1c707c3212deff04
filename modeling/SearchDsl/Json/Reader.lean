import SearchDsl.Json

/-!
# Reading JSON

A reader of JSON texts. Only space, tab, line feed and carriage return separate tokens; control
characters may not stand in a string; numbers have no leading zeros.

A number without fraction and exponent is a whole number if it fits into 64 bits (unsigned, or
signed after a minus sign), except that `-0` is a double. Every other number is a double. Its digits
are used as long as together they stay below `2^64`; digits of the whole part beyond that only count
as places, those of the fraction are dropped. The digits are rounded to a double first and then
scaled (`Decimal.scaled?`).
-/

namespace SearchDsl.Json.Reader

/-- The characters that separate tokens. -/
def isSpace (c : Char) : Bool := c = ' ' || c = '\t' || c = '\n' || c = '\r'

/-- The text without the spaces at its front. -/
def skip (cs : List Char) : List Char := cs.dropWhile isSpace

/-- The value of a hexadecimal digit. -/
def hexValue? (c : Char) : Option Nat :=
  if c.isDigit then some (c.toNat - '0'.toNat)
  else if 'a' ≤ c && c ≤ 'f' then some (c.toNat - 'a'.toNat + 10)
  else if 'A' ≤ c && c ≤ 'F' then some (c.toNat - 'A'.toNat + 10)
  else none

/-- The number written by four hexadecimal digits. -/
def hex4? (a b c d : Char) : Option Nat := do
  pure ((((← hexValue? a) * 16 + (← hexValue? b)) * 16 + (← hexValue? c)) * 16 + (← hexValue? d))

/-- The first half of a surrogate pair. -/
def isHighSurrogate (n : Nat) : Bool := 0xD800 ≤ n && n ≤ 0xDBFF

/-- The second half of a surrogate pair. -/
def isLowSurrogate (n : Nat) : Bool := 0xDC00 ≤ n && n ≤ 0xDFFF

/-- The character after a backslash that stands for the given one. -/
def escaped? (c : Char) : Option Char :=
  match c with
  | '"' => some '"'
  | '\\' => some '\\'
  | '/' => some '/'
  | 'b' => some (Char.ofNat 0x08)
  | 'f' => some (Char.ofNat 0x0C)
  | 'n' => some '\n'
  | 'r' => some '\r'
  | 't' => some '\t'
  | _ => none

/-- A character in front of the string that was read. -/
def push (c : Char) (r : Option (Option (List Char) × List Char)) :
    Option (Option (List Char) × List Char) :=
  r.map fun (s, rest) => (s.map (c :: ·), rest)

/-- A string that cannot be read on account of what came before. -/
def spoil (r : Option (Option (List Char) × List Char)) : Option (Option (List Char) × List Char) :=
  r.map fun (_, rest) => (none, rest)

/-- The string whose opening mark has been read, and what follows it. The string is missing if it
holds half a surrogate pair. -/
def readString : List Char → Option (Option (List Char) × List Char)
  | '"' :: cs => some (some [], cs)
  | '\\' :: 'u' :: a :: b :: c :: d :: cs =>
    match hex4? a b c d with
    | none => none
    | some n =>
      if isHighSurrogate n then
        match cs with
        | '\\' :: 'u' :: e :: f :: g :: h :: cs' =>
          match hex4? e f g h with
          | none => none
          | some m =>
            if isLowSurrogate m then
              push (Char.ofNat (0x10000 + (n - 0xD800) * 0x400 + (m - 0xDC00))) (readString cs')
            else spoil (readString ('\\' :: 'u' :: e :: f :: g :: h :: cs'))
        | cs => spoil (readString cs)
      else if isLowSurrogate n then spoil (readString cs)
      else push (Char.ofNat n) (readString cs)
  | '\\' :: c :: cs =>
    match escaped? c with
    | none => none
    | some e => push e (readString cs)
  | c :: cs => if c = '\\' || c.toNat < 0x20 then none else push c (readString cs)
  | [] => none
termination_by cs => cs.length

/-- The digits that keep the number so far below `2^64`, added to it; and how many of them there
are. -/
def keepDigits : (n : Nat) → List Char → Nat × Nat
  | n, [] => (n, 0)
  | n, c :: cs =>
    let m := 10 * n + Decimal.digitValue c
    if m < Nat.pow 2 64 then
      let (r, k) := keepDigits m cs
      (r, k + 1)
    else (n, 0)

/-- The value of a number from its written parts; none beyond the finite doubles. An absent fraction
or exponent has no digits. -/
def numeral? (negative : Bool) (whole fraction : List Char) (exponent : Option Int) :
    Option Numeral :=
  let (n, kept) := keepDigits 0 whole
  let dropped := whole.length - kept
  let value : Int := if negative then -n else n
  if fraction.isEmpty && exponent.isNone && dropped = 0 &&
      (if negative then n ≠ 0 && Numeral.isSigned64 value else true) then some (.whole value)
  else
    let (m, places) := keepDigits n fraction
    (Decimal.scaled? ⟨negative, m, exponent.getD 0 + dropped - places⟩).map .double

/-- The digits of an exponent after its mark, with their sign, and what follows. -/
def readExponent (cs : List Char) : Option (Int × List Char) :=
  let (negative, cs) := match cs with
    | '+' :: cs => (false, cs)
    | '-' :: cs => (true, cs)
    | cs => (false, cs)
  let digits := cs.takeWhile Char.isDigit
  let n : Int := Decimal.ofDigits digits
  if digits.isEmpty then none else some (if negative then -n else n, cs.dropWhile Char.isDigit)

/-- The number at the front and what follows it. -/
def readNumber (cs : List Char) : Option (Json × List Char) :=
  let (negative, cs) := match cs with
    | '-' :: cs => (true, cs)
    | cs => (false, cs)
  let whole := cs.takeWhile Char.isDigit
  if whole.isEmpty || (whole.head? = some '0' && 1 < whole.length) then none
  else do
    let (fraction, cs) ← match cs.dropWhile Char.isDigit with
      | '.' :: cs =>
        let digits := cs.takeWhile Char.isDigit
        if digits.isEmpty then none else some (digits, cs.dropWhile Char.isDigit)
      | cs => some ([], cs)
    let (exponent, cs) ← match cs with
      | c :: cs =>
        if c = 'e' || c = 'E' then (readExponent cs).map fun (e, rest) => (some e, rest)
        else some (none, c :: cs)
      | [] => some (none, [])
    let value := match numeral? negative whole fraction exponent with
      | some n => .number n
      | none => .unreadable
    pure (value, cs)

/-- The text after a fixed word at its front. -/
def expect (word : String) (cs : List Char) : Option (List Char) :=
  if word.toList.isPrefixOf cs then some (cs.drop word.length) else none

/-- An array or object at the given depth, which is unreadable if nested too deep or if one of its
keys is missing. -/
def container (depth : Nat) (whole : Bool) (j : Json) : Json :=
  if depth ≤ maxDepth && whole then j else .unreadable

mutual

/-- The value at the front and what follows it. The fuel bounds the number of steps. -/
def readValue : (fuel depth : Nat) → List Char → Option (Json × List Char)
  | 0, _, _ => none
  | fuel + 1, depth, text =>
    match skip text with
    | [] => none
    | '"' :: cs => (readString cs).map fun (s, rest) =>
        (match s with | some s => .string (String.ofList s) | none => .unreadable, rest)
    | '[' :: cs =>
      match skip cs with
      | ']' :: rest => some (container (depth + 1) true (.array []), rest)
      | cs => do
        let (items, rest) ← readItems fuel (depth + 1) cs
        pure (container (depth + 1) true (.array items), rest)
    | '\x7b' :: cs =>
      match skip cs with
      | '\x7d' :: rest => some (container (depth + 1) true (.object []), rest)
      | cs => do
        let (members, whole, rest) ← readMembers fuel (depth + 1) cs
        pure (container (depth + 1) whole (.object members), rest)
    | 't' :: cs => (expect "rue" cs).map fun rest => (.bool true, rest)
    | 'f' :: cs => (expect "alse" cs).map fun rest => (.bool false, rest)
    | 'n' :: cs => (expect "ull" cs).map fun rest => (.null, rest)
    | cs => readNumber cs

/-- The items of an array up to its closing bracket. -/
def readItems : (fuel depth : Nat) → List Char → Option (List Json × List Char)
  | 0, _, _ => none
  | fuel + 1, depth, text => do
    let (item, rest) ← readValue fuel depth text
    match skip rest with
    | ',' :: rest =>
      let (items, rest) ← readItems fuel depth rest
      pure (item :: items, rest)
    | ']' :: rest => pure ([item], rest)
    | _ => none

/-- The members of an object up to its closing brace, and whether all keys could be read. -/
def readMembers : (fuel depth : Nat) → List Char → Option (List (String × Json) × Bool × List Char)
  | 0, _, _ => none
  | fuel + 1, depth, text => do
    let .cons '"' rest := skip text | none
    let (key, rest) ← readString rest
    let .cons ':' rest := skip rest | none
    let (value, rest) ← readValue fuel depth rest
    let member := (String.ofList (key.getD []), value)
    match skip rest with
    | ',' :: rest =>
      let (members, whole, rest) ← readMembers fuel depth rest
      pure (member :: members, key.isSome && whole, rest)
    | '\x7d' :: rest => pure ([member], key.isSome, rest)
    | _ => none

end

end Reader

/-- The value that a text holds, with nothing but spaces around it. -/
def read? (text : String) : Option Json := do
  let cs := text.toList
  let (value, rest) ← Reader.readValue (2 * cs.length + 2) 0 cs
  if (Reader.skip rest).isEmpty then pure value else none

end SearchDsl.Json
