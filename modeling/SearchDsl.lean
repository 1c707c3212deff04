import SearchDsl.Main
import SearchDsl.Query.Meaning
import SearchDsl.Query.Parts
import SearchDsl.Token.Stepwise
import SearchDsl.CommandLine.Run
import SearchDsl.Proofs.Filter.Shape
import SearchDsl.Proofs.Query.Rest
import SearchDsl.Proofs.Expr.Meaning
import SearchDsl.Proofs.Query.Gathering
import SearchDsl.Proofs.Expr.Built
import SearchDsl.Proofs.Filter.Query
import SearchDsl.Proofs.Query.Faithful
import SearchDsl.Proofs.Token.Contents
import SearchDsl.Proofs.Token.Breaks
import SearchDsl.Proofs.Token.Passing
import SearchDsl.Proofs.Value.Literal
import SearchDsl.Proofs.Expr.Grammar
import SearchDsl.Proofs.Expr.Reading
import SearchDsl.Proofs.Expr.Parentheses
import SearchDsl.Proofs.Number.Nearest
import SearchDsl.Proofs.Number.Decimal
import SearchDsl.Proofs.Number.Shortest
import SearchDsl.Proofs.Number.Written
import SearchDsl.Proofs.Token.Plain
import SearchDsl.Proofs.Value.Point
import SearchDsl.Proofs.Value.Written
import SearchDsl.Proofs.Expr.Canonical
import SearchDsl.Proofs.Projection.Cache
import SearchDsl.Proofs.Schema.Alike
import SearchDsl.Proofs.Search.Direct
import SearchDsl.Proofs.Gateway.Run
import SearchDsl.Proofs.Gateway.Standing
import SearchDsl.Proofs.Expr.Limit
import SearchDsl.Proofs.Expr.Size
import SearchDsl.Proofs.Expr.Phrase
import SearchDsl.Proofs.Expr.Phrase.Reading
import SearchDsl.Proofs.Text.Trim
import SearchDsl.Proofs.Projection.Returned
import SearchDsl.Proofs.Projection.Listed
import SearchDsl.Proofs.Query.Arrangement
import SearchDsl.Proofs.Query.Leaves
import SearchDsl.Proofs.Query.Layout
import SearchDsl.Proofs.Schema.Resolved
import SearchDsl.Proofs.Schema.Lookup
import SearchDsl.Proofs.Expr.Resolved
import SearchDsl.Proofs.Query.Typed
import SearchDsl.Proofs.Sorting.Grammar
import SearchDsl.Proofs.Sorting.Reading
import SearchDsl.Proofs.Sorting.InUse
import SearchDsl.Proofs.Sorting.Scope
import SearchDsl.Proofs.Sorting.Tiebreak
import SearchDsl.Proofs.Search.Filters
import SearchDsl.Proofs.Gateway.Limit
import SearchDsl.Proofs.Sorting.Fallback
import SearchDsl.Proofs.Expr.Refusals
import SearchDsl.Proofs.Gateway.Refusals
import SearchDsl.Proofs.Expr.Untyped
import SearchDsl.Proofs.Facet.Grammar
import SearchDsl.Proofs.Schema.Validation
import SearchDsl.Proofs.Expr.WellFormed
import SearchDsl.Proofs.Expr.Map
import SearchDsl.Proofs.Query.Map
import SearchDsl.Proofs.Query.Rendering
import SearchDsl.Proofs.Query.Twin
import SearchDsl.Proofs.Query.Radius
import SearchDsl.Proofs.Sorting.Rendering
import SearchDsl.Proofs.Sorting.Canonical
import SearchDsl.Proofs.Gateway.Settings
import SearchDsl.Proofs.Gateway.Published
import SearchDsl.Proofs.Query.Like
import SearchDsl.Proofs.Query.Like.Written
import SearchDsl.Proofs.Json.Decode
import SearchDsl.Proofs.Schema.Json
import SearchDsl.Proofs.Json.Models
import SearchDsl.Proofs.Number.Order
import SearchDsl.Proofs.Filter.Geometry
import SearchDsl.Proofs.Query.Total
import SearchDsl.Proofs.Facet.Counted
import SearchDsl.Proofs.FreeText.Specs
import SearchDsl.Proofs.FreeText.Groups
import SearchDsl.Proofs.FreeText.Search
import SearchDsl.Proofs.Field.Prefix
import SearchDsl.Proofs.Expr.Names
import SearchDsl.Proofs.Token.Spacing
import SearchDsl.Proofs.Token.Alone
import SearchDsl.Proofs.Token.Stepwise
import SearchDsl.Proofs.Number.Rounding
import SearchDsl.Proofs.Filter.Range
