import SearchDsl.Expr
import SearchDsl.Token.Reading

/-!
# Reading expressions

An expression is a list of items with AND or OR between them; an item is a filter or an expression
in parentheses, with or without a NOT in front; a filter is a field, an operator and a value.
Filters are counted as they are read, groups when the expression around them is complete, since only
then it is known which of them are left.
-/

namespace SearchDsl

namespace Reading

/-- A filter. -/
def filter (g : Grammar) (r : Reading) : Except Error (Filter × Reading) := do
  let (field, r) ← r.field g
  let (op, r) ← r.operator
  let (v, r) ← r.value
  let f ← Filter.make field op v
  pure (f, r)

/-- The presence of a NOT, of which there may be only one. -/
def negation (r : Reading) : Except Error (Bool × Reading) :=
  if r.token.isKeyword "NOT" then do
    let r ← r.advance
    if r.token.isKeyword "NOT" then .error (r.fault .doubledNot) else pure (true, r)
  else pure (false, r)

mutual

/-- An expression, up to the first token that cannot go on with it. The fuel bounds the number of
steps. -/
def expr (g : Grammar) : (fuel : Nat) → Reading → Except Error (Expr × Reading)
  | 0, r => .error (r.fault .emptyExpression)
  | fuel + 1, r =>
    if (connectiveOf? r.token).isSome then .error (r.fault .leadingConnective)
    else do
      let (first, r) ← item g fuel none r
      let (more, r) ← joinedItems g fuel r
      let e ← Expr.ofItems g.limit (first :: more)
      let r ← r.count g (e.items.countP Item.isGroup)
      pure (e, r)

/-- The items that follow the first one, each after a connective. -/
def joinedItems (g : Grammar) : (fuel : Nat) → Reading → Except Error (List Item × Reading)
  | 0, r => .error (r.fault .emptyExpression)
  | fuel + 1, r =>
    match connectiveOf? r.token with
    | none => pure ([], r)
    | some c => do
      let r ← r.advance
      let (i, r) ← item g fuel (some c) r
      let (is, r) ← joinedItems g fuel r
      pure (i :: is, r)

/-- An item after its connective. -/
def item (g : Grammar) : (fuel : Nat) → Option Connective → Reading →
    Except Error (Item × Reading)
  | 0, _, r => .error (r.fault .emptyExpression)
  | fuel + 1, join, r => do
    let (negated, r) ← r.negation
    if r.token = .leftParen then
      let r ← r.advance
      if r.token = .rightParen then .error (r.fault .emptyGroup)
      else
        let (e, r) ← expr g fuel r
        let r ← r.expect .rightParen
        pure (.group join negated e.items, r)
    else
      let (f, r) ← r.filter g
      let r ← r.count g 1
      pure (.leaf join negated f, r)

end

end Reading

namespace Expr

/-- The expression that a text holds. -/
def read (g : Grammar) (text : String) : Except Error Expr := do
  let r ← Reading.start text
  if r.atEnd then .error (r.fault .emptyExpression)
  else
    let (e, r) ← Reading.expr g r.fuel r
    if r.atEnd then pure e
    else .error (r.fault (.expected "AND, OR or end of input" r.token))

end Expr
end SearchDsl
