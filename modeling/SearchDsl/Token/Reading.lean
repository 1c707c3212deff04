import SearchDsl.Schema.Snapshot
import SearchDsl.Token.Lexer

/-!
# Texts being read

The state of a reader of one of the three grammars: the tokens ahead, the first of which is looked
at, and the number of fragments counted so far. A fault among the tokens is reported when it comes
to be looked at. What the grammars share is here: fields, operators, literal values and lists with
commas.
-/

namespace SearchDsl

/-- What the readers know besides the text: the mapping that fields have to belong to, if any, and
how many fragments an expression may have. -/
structure Grammar where
  schema : Option Snapshot
  limit : Nat

/-- A text being read. -/
structure Reading where
  source : List Char
  ahead : List Lexeme
  fragments : Nat

namespace Reading

/-- The token that is looked at. -/
def token (r : Reading) : Token :=
  match r.ahead with
  | ⟨_, .ok t⟩ :: _ => t
  | _ => .eof

/-- Where the token that is looked at starts. -/
def position (r : Reading) : Nat :=
  match r.ahead with
  | l :: _ => l.start
  | [] => r.source.length

/-- The error of a fault at the token that is looked at. -/
def fault (r : Reading) (f : TextFault) : Error := Error.atPosition r.source r.position f

/-- The reading itself, unless the next token is a fault. -/
def settle (r : Reading) : Except Error Reading :=
  match r.ahead with
  | ⟨_, .error f⟩ :: _ => .error (r.fault f)
  | _ => .ok r

/-- The start of a text. -/
def start (text : String) : Except Error Reading :=
  settle ⟨text.toList, Lexeme.read text.toList, 0⟩

/-- The next token. After the end there is only the end. -/
def advance (r : Reading) : Except Error Reading :=
  match r.ahead with
  | _ :: l :: rest => settle { r with ahead := l :: rest }
  | _ => .ok r

/-- The next token, after one of the given kind. -/
def expect (r : Reading) (t : Token) : Except Error Reading :=
  if r.token = t then r.advance else .error (r.fault (.expected t.describe r.token))

/-- Nothing is left. -/
def atEnd (r : Reading) : Bool := r.token = .eof

/-- The bound on the number of steps of a reader of what is ahead. -/
def fuel (r : Reading) : Nat := 2 * r.ahead.length + 2

/-- Some more fragments, unless there are too many of them now. -/
def count (g : Grammar) (n : Nat) (r : Reading) : Except Error Reading :=
  let fragments := r.fragments + n
  if g.limit < fragments then .error (.tooManyFragments fragments g.limit)
  else .ok { r with fragments := fragments }

/-- The words that are no field names. -/
def reserved : List String := ["AND", "OR", "NOT"]

/-- The name of a field: a word that is not reserved and has no empty segment. -/
def fieldName (r : Reading) : Except Error String :=
  match r.token with
  | .word w =>
    if reserved.any fun k => (Token.word w).isKeyword k then
      .error (r.fault (.expected "field name" (.word w)))
    else if (splitDots w).any String.isEmpty then .error (r.fault (.badFieldName w))
    else .ok w
  | t => .error (r.fault (.expected "field name" t))

/-- The field of a name, which the mapping has to know. -/
def resolve (g : Grammar) (name : String) : Except Error Field :=
  match g.schema with
  | some s => s.resolve name false
  | none => .ok (Field.ofName name)

/-- A field. -/
def field (g : Grammar) (r : Reading) : Except Error (Field × Reading) := do
  let name ← r.fieldName
  let r ← r.advance
  let f ← resolve g name
  pure (f, r)

/-- The operator that a token stands for. -/
def operatorOf? : Token → Option Operator
  | .symbol s => Operator.ofSymbol? s.text
  | .colon => some .equal
  | .word w => Operator.ofWord? w
  | _ => none

/-- An operator. -/
def operator (r : Reading) : Except Error (Operator × Reading) := do
  match operatorOf? r.token with
  | some op =>
    let r ← r.advance
    pure (op, r)
  | none => .error (r.fault (.expected "operator" r.token))

/-- The connective that a token stands for. -/
def connectiveOf? : Token → Option Connective
  | .word w => Connective.ofWord? w
  | _ => none

/-- Elements with commas between them. The fuel bounds the number of elements. -/
def commaList (element : Reading → Except Error (α × Reading)) :
    (fuel : Nat) → Reading → Except Error (List α × Reading)
  | 0, r => .ok ([], r)
  | fuel + 1, r => do
    let (a, r) ← element r
    if r.token = .comma then
      let r ← r.advance
      let (as, r) ← commaList element fuel r
      pure (a :: as, r)
    else pure ([a], r)

/-- The literal that a single token stands for. -/
def scalarOf? (t : Token) : Option Value :=
  match t with
  | .string s => some (.string s)
  | .number n => some (.number n)
  | t =>
    if t.isKeyword "true" then some (.bool true)
    else if t.isKeyword "false" then some (.bool false)
    else if t.isKeyword "null" then some .null
    else none

/-- A literal value, with lists nested at most `levels` deep. -/
def valueWithin : (levels : Nat) → Reading → Except Error (Value × Reading)
  | levels, r =>
    match scalarOf? r.token with
    | some v => do
      let r ← r.advance
      pure (v, r)
    | none =>
      if r.token = .leftBracket then
        match levels with
        | 0 => .error (r.fault .deepList)
        | levels + 1 => do
          let r ← r.advance
          if r.token = .rightBracket then .error (r.fault .emptyList)
          else
            let (items, r) ← commaList (valueWithin levels) r.fuel r
            let r ← r.expect .rightBracket
            pure (.list items, r)
      else .error (r.fault (.expected "value" r.token))

/-- How deep the lists of a literal may be nested: a polygon is a list of lists. -/
def maxListDepth : Nat := 2

/-- A literal value. -/
def value (r : Reading) : Except Error (Value × Reading) := valueWithin maxListDepth r

end Reading
end SearchDsl
