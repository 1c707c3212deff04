import SearchDsl.Expr
import SearchDsl.Query

/-!
# Queries for expressions

An expression becomes one bool query. Each item goes where the connective in front of it sends it,
the first item where the second one's does, and a lone item is joined by AND:

* under AND a positive item goes to `must` and a negative one to `mustNot`;
* under OR both go to `should`, a negative item as a bool query that denies it.

A filter is negative if it is negated, or if it asks for a value to differ or to be missing, but not
if both. A positive filter on a field inside nested documents shares the query for the outermost of
them with the other such filters of its list under the same connective, at the place of the first of
them, so that all of them hold of one sub-document; inside, the same happens again. A negative
filter stands alone.
-/

namespace SearchDsl.Query

/-- What the queries depend on besides the expression: the radius of a search by distance, and the
nested documents that are already looked at, outermost first. -/
structure Surroundings where
  nearDistance : String
  scope : List String

/-- The length of the longest common beginning of two lists. -/
def commonLength [BEq α] : List α → List α → Nat
  | a :: as, b :: bs => if a == b then commonLength as bs + 1 else 0
  | _, _ => 0

/-- The paths that are not already looked at. -/
def Surroundings.remaining (s : Surroundings) (paths : List String) : List String :=
  paths.drop (commonLength s.scope paths)

/-- The range on one side of a bound. -/
def bounds (op : Operator) (b : Bound) : Bounds :=
  match op with
  | .greaterThan => { Bounds.none with gt := some b }
  | .greaterOrEqual => { Bounds.none with gte := some b }
  | .lessThan => { Bounds.none with lt := some b }
  | _ => { Bounds.none with lte := some b }

/-- The primitive query for a filter, and whether the filter denies it. -/
def ofFilter (s : Surroundings) (f : Filter) : Except Error (Primitive × Bool) :=
  let field := f.field.name
  let refuse := .error (.badValue f.operator.name (.noQuery f.value.shape))
  match f.operator, f.value with
  | .equal, .null => .ok (.present field, true)
  | .notEqual, .null => .ok (.present field, false)
  | .equal, v => .ok (.term field v.toJson, false)
  | .notEqual, v => .ok (.term field v.toJson, true)
  | .range, .list [lower, upper] =>
    match Bound.ofValue? lower, Bound.ofValue? upper with
    | some a, some b => .ok (.range field { Bounds.none with gte := some a, lte := some b }, false)
    | _, _ => refuse
  | .isIn, .list items => .ok (.terms field (Value.toJsons items), false)
  | .like, .string pattern => .ok (.wildcard field (Pattern.ofLike pattern), false)
  | .viewport, .viewport ne sw => .ok (.geoBoundingBox field ne sw, false)
  | .polygon, .polygon points => .ok (.geoPolygon field points, false)
  | .near, .point p => .ok (.geoDistance field p s.nearDistance, false)
  | op, v =>
    if op.isComparison then
      match Bound.ofValue? v with
      | some b => .ok (.range field (bounds op b), false)
      | none => refuse
    else refuse

/-- A query on its way to its role: the connective that sends it there, whether it is denied, and
the nested paths that it still has to be put in, outermost first. -/
structure Entry where
  connective : Connective
  negated : Bool
  paths : List String
  query : Query

/-- A query that is ready for its role. -/
structure Placed where
  connective : Connective
  negated : Bool
  query : Query

/-- The bool query with one more query in its role. -/
def place (c : Clauses Query) (p : Placed) : Clauses Query :=
  match p.connective, p.negated with
  | .and, false => { c with must := c.must ++ [p.query] }
  | .and, true => { c with mustNot := c.mustNot ++ [p.query] }
  | .or, false => { c with should := c.should ++ [p.query] }
  | .or, true => { c with should := c.should ++ [bool { Clauses.empty with mustNot := [p.query] }] }

/-- The bool query of a list of queries. -/
def placeAll (ps : List Placed) : Clauses Query := ps.foldl place Clauses.empty

/-- A place among the clauses: for one query, or for all that share a nested path. -/
inductive Slot
  | single (p : Placed)
  | shared (connective : Connective) (path : String) (members : List Entry)

/-- The slots with one more query in the slot of its path, which is opened at the end if need be. -/
def Slot.share (connective : Connective) (path : String) (e : Entry) : List Slot → List Slot
  | [] => [.shared connective path [e]]
  | .shared c p members :: rest =>
    if c = connective && p = path then .shared c p (members ++ [e]) :: rest
    else .shared c p members :: share connective path e rest
  | slot :: rest => slot :: share connective path e rest

/-- The slots with one more query. -/
def Slot.add (slots : List Slot) (e : Entry) : List Slot :=
  match e.negated, e.paths with
  | false, path :: paths => share e.connective path { e with paths := paths } slots
  | _, paths => slots ++ [.single ⟨e.connective, e.negated, within paths e.query⟩]

/-- A single query for queries that belong together. -/
def together (ps : List Placed) : Query :=
  match ps with
  | [p] => p.query
  | ps => bool (placeAll ps)

/-- The queries put into their nested paths. No path is longer than the depth. -/
def gather : (depth : Nat) → List Entry → List Placed
  | 0, es => es.map fun e => ⟨e.connective, e.negated, within e.paths e.query⟩
  | depth + 1, es =>
    (es.foldl Slot.add []).map fun
      | .single p => p
      | .shared c path members => ⟨c, false, nested path (together (gather depth members))⟩

/-- The length of the longest chain of paths. -/
def depthOf (es : List Entry) : Nat := (es.map fun e => e.paths.length).foldl max 0

/-- The bool query of the entries of a list of items. -/
def ofEntries (es : List Entry) : Clauses Query := placeAll (gather (depthOf es) es)

/-- The connective that sends the first item of a list: the one in front of it, or else of the
second item. -/
def firstConnective : List Item → Connective
  | first :: second :: _ => (first.join.or second.join).getD .and
  | [first] => first.join.getD .and
  | [] => .and

mutual

/-- The entry of an item that is sent by the given connective. -/
def ofItem (s : Surroundings) (c : Connective) : Item → Except Error Entry
  | .leaf _ negated f => do
    let (p, denied) ← ofFilter s f
    pure ⟨c, negated != denied, s.remaining f.field.nestedPaths, primitive p⟩
  | .group _ negated items => do
    let es ← ofItems s (firstConnective items) items
    pure ⟨c, negated, [], bool (ofEntries es)⟩

/-- The entries of a list of items, the first of which is sent by the given connective. -/
def ofItems (s : Surroundings) (c : Connective) : List Item → Except Error (List Entry)
  | [] => .ok []
  | i :: is => do
    let e ← ofItem s c i
    let es ← ofItems s ((is.head?.bind Item.join).getD .and) is
    pure (e :: es)

end

/-- The bool query for an expression. -/
def ofExpr (s : Surroundings) (e : Expr) : Except Error (Clauses Query) := do
  pure (ofEntries (← ofItems s (firstConnective e.items) e.items))

end SearchDsl.Query
