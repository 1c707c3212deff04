import SearchDsl.Operator
import SearchDsl.Query.Bound
import SearchDsl.Query.Pattern
import SearchDsl.Value.Json

/-!
# Queries

The queries that the backend runs. A primitive query looks at one document, a nested query asks for
a sub-document under a path, and a bool query combines others by their roles: clauses of `must` and
`filter` have to hold, those of `mustNot` may not, and of `should` at least one has to hold if
nothing else is asked for.

Every query has one JSON form. In it empty roles are left out, and object members stand in key
order.
-/

namespace SearchDsl

/-- A query about the document itself. -/
inductive Primitive
  | matchAll
  | present (field : String)
  | term (field : String) (value : Json)
  | terms (field : String) (values : List Json)
  | range (field : String) (bounds : Bounds)
  | wildcard (field pattern : String)
  | geoBoundingBox (field : String) (topRight bottomLeft : GeoPoint)
  | geoPolygon (field : String) (points : List GeoPoint)
  | geoDistance (field : String) (origin : GeoPoint) (distance : String)
  | multiMatch (text : String) (fields : List String) (operator : MatchOperator)
      (minimumShouldMatch : Option String)
  deriving BEq, Repr

/-- The parts of a bool query, by role. -/
structure Clauses (α : Type) where
  must : List α
  should : List α
  mustNot : List α
  filter : List α
  minimumShouldMatch : Option String
  deriving BEq, Repr

/-- A query. -/
inductive Query
  | primitive (p : Primitive)
  | nested (path : String) (query : Query)
  | bool (clauses : Clauses Query)
  deriving Repr

namespace Primitive

/-- The name of the kind of query. -/
def kind : Primitive → String
  | matchAll => "match_all"
  | present _ => "exists"
  | term .. => "term"
  | terms .. => "terms"
  | range .. => "range"
  | wildcard .. => "wildcard"
  | geoBoundingBox .. => "geo_bounding_box"
  | geoPolygon .. => "geo_polygon"
  | geoDistance .. => "geo_distance"
  | multiMatch .. => "multi_match"

/-- What the query of its kind says. A distance query names its field beside the distance. -/
def body : Primitive → Json
  | matchAll => .object []
  | present field => Json.record [("field", .string field)]
  | term field value => Json.record [(field, Json.record [("value", value)])]
  | terms field values => Json.record [(field, .array values)]
  | range field bounds => Json.record [(field, bounds.toJson)]
  | wildcard field pattern => Json.record [(field, Json.record [("value", .string pattern)])]
  | geoBoundingBox field topRight bottomLeft =>
    Json.record [(field, Json.record
      [("top_right", topRight.toJson), ("bottom_left", bottomLeft.toJson)])]
  | geoPolygon field points =>
    Json.record [(field, Json.record [("points", .array (points.map GeoPoint.toJson))])]
  | geoDistance field origin distance =>
    Json.record [("distance", .string distance), (field, origin.toJson)]
  | multiMatch text fields operator minimum =>
    Json.record <|
      [("query", .string text), ("operator", .string operator.name)] ++
        (if fields.isEmpty then [] else [("fields", Json.strings fields)]) ++
        (minimum.map fun m => ("minimum_should_match", Json.string m)).toList

/-- The query as JSON. -/
def toJson (p : Primitive) : Json := Json.record [(p.kind, p.body)]

end Primitive

namespace Clauses

/-- No clauses. -/
def empty : Clauses α := ⟨[], [], [], [], none⟩

/-- The number of clauses. -/
def count (c : Clauses α) : Nat :=
  c.must.length + c.should.length + c.mustNot.length + c.filter.length

/-- There is no clause. -/
def isEmpty (c : Clauses α) : Bool :=
  c.must.isEmpty && c.should.isEmpty && c.mustNot.isEmpty && c.filter.isEmpty

end Clauses

namespace Query

/-- The name of the kind of query. -/
def kind : Query → String
  | primitive p => p.kind
  | nested .. => "nested"
  | bool _ => "bool"

/-- The query about the sub-documents under a chain of paths, outermost first. -/
def within (paths : List String) (q : Query) : Query := paths.foldr nested q

/-- A role with its clauses, if it has any. -/
def role (name : String) (clauses : List Json) : List (String × Json) :=
  if clauses.isEmpty then [] else [(name, .array clauses)]

mutual

/-- The query as JSON. -/
def toJson : Query → Json
  | primitive p => p.toJson
  | nested path q =>
    Json.record [("nested", Json.record [("path", .string path), ("query", q.toJson)])]
  | bool ⟨must, should, mustNot, filter, minimum⟩ =>
    Json.record [("bool", Json.record <|
      role "must" (toJsons must) ++ role "should" (toJsons should) ++
      role "must_not" (toJsons mustNot) ++ role "filter" (toJsons filter) ++
      (minimum.map fun m => ("minimum_should_match", Json.string m)).toList)]

/-- A list of queries as JSON. -/
def toJsons : List Query → List Json
  | [] => []
  | q :: qs => q.toJson :: toJsons qs

end

end Query
end SearchDsl
