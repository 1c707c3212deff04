import SearchDsl.Facet
import SearchDsl.FreeText
import SearchDsl.Projection
import SearchDsl.Sorting.Clause

/-!
# What a snapshot is used for

Two snapshots are alike if they are of the same mapping of the same index, whenever each of them was
published. Alike snapshots resolve names alike, and nothing else of a snapshot is looked at when a
request is compiled:

* `Reading.expr_congr`, `Expr.read_congr`: the readers of expressions see the names that resolve;
* `Snapshot.Alike.sortOfRequest`, `Snapshot.Alike.freeText`, `Snapshot.Alike.facets`: so do the
  readers of sorts, free texts and facets;
* `Snapshot.Alike.defaults`, `Snapshot.Alike.projection`: and so do projections.
-/

namespace SearchDsl

/-- The snapshots are of the same mapping of the same index. -/
structure Snapshot.Alike (s t : Snapshot) : Prop where
  index : s.index = t.index
  mapping : s.mapping = t.mapping

namespace Snapshot.Alike

variable {s t : Snapshot}

theorem resolve (h : Alike s t) : s.resolve = t.resolve := by
  have hfields : s.fields = t.fields := by rw [s.fields_eq, t.fields_eq, h.mapping]
  funext name allowWildcard
  simp only [Snapshot.resolve, hfields, h.index]

end Snapshot.Alike

/-! ### Expressions -/

namespace Reading

variable {g g' : Grammar}

theorem field_congr (h : resolve g = resolve g') : field g = field g' := by
  funext r
  simp only [field, h]

theorem filter_congr (h : resolve g = resolve g') : filter g = filter g' := by
  funext r
  simp only [filter, field_congr h]

theorem count_congr (h : g.limit = g'.limit) : count g = count g' := by
  funext n r
  simp only [count, h]

/-- The three readers of expressions see the names that resolve and the limit. -/
theorem expr_congr (hresolve : resolve g = resolve g') (hlimit : g.limit = g'.limit) (fuel : Nat) :
    expr g fuel = expr g' fuel ∧ joinedItems g fuel = joinedItems g' fuel ∧
      item g fuel = item g' fuel := by
  -- Without fuel an error is answered that does not depend on the grammar.
  induction fuel with
  | zero =>
    refine ⟨?_, ?_, ?_⟩
    · funext r
      simp only [expr]
    · funext r
      simp only [joinedItems]
    · funext join r
      simp only [item]
  | succ fuel ih =>
    obtain ⟨hexpr, hjoined, hitem⟩ := ih
    refine ⟨?_, ?_, ?_⟩
    · funext r
      simp only [expr, hitem, hjoined, hlimit, count_congr hlimit]
    · funext r
      simp only [joinedItems, hitem, hjoined]
    · funext join r
      simp only [item, hexpr, filter_congr hresolve, count_congr hlimit]

theorem sortItem_congr (hresolve : resolve g = resolve g') (hlimit : g.limit = g'.limit) :
    sortItem g = sortItem g' := by
  have hfilter : sortFilter g = sortFilter g' := by
    funext field r
    simp only [sortFilter, (expr_congr hresolve hlimit _).1]
  funext r
  simp only [sortItem, field_congr hresolve, hfilter]

theorem facet_congr (h : resolve g = resolve g') : facet g = facet g' := by
  funext r
  simp only [facet, field_congr h]

end Reading

theorem Expr.read_congr {g g' : Grammar} (hresolve : Reading.resolve g = Reading.resolve g')
    (hlimit : g.limit = g'.limit) : Expr.read g = Expr.read g' := by
  funext text
  simp only [Expr.read, (Reading.expr_congr hresolve hlimit _).1]

/-! ### The parts of a request -/

namespace Snapshot.Alike

variable {s t : Snapshot}

theorem resolveName (h : Alike s t) (limit : Nat) :
    Reading.resolve ⟨some s, limit⟩ = Reading.resolve ⟨some t, limit⟩ := by
  funext name
  simp only [Reading.resolve, h.resolve]

/-- Alike snapshots have the same expressions. -/
theorem expr (h : Alike s t) (limit : Nat) :
    Expr.read ⟨some s, limit⟩ = Expr.read ⟨some t, limit⟩ :=
  Expr.read_congr (h.resolveName limit) rfl

theorem sorting (h : Alike s t) : Sorting.read (some s) = Sorting.read (some t) := by
  funext text
  simp only [Sorting.read, Reading.sortItem_congr (h.resolveName _) rfl]

/-- Alike snapshots have the same sort clauses. -/
theorem sortOfRequest (h : Alike s t) : SortClause.ofRequest s = SortClause.ofRequest t := by
  have htext : SortClause.ofText s = SortClause.ofText t := by
    funext settings text
    simp only [SortClause.ofText, h.sorting]
  funext settings requested disabled
  simp only [SortClause.ofRequest, SortClause.ofDefault, htext]

/-- Alike snapshots have the same aggregations. -/
theorem facets (h : Alike s t) : Aggregation.ofText s = Aggregation.ofText t := by
  have hread : Facets.read (some s) = Facets.read (some t) := by
    funext text
    simp only [Facets.read, Reading.facet_congr (h.resolveName _)]
  funext settings size text
  simp only [Aggregation.ofText, hread]

/-- Alike snapshots have the same queries for free texts. -/
theorem freeText (h : Alike s t) : FreeText.query s = FreeText.query t := by
  have hpaths : FreeText.pathsOf s = FreeText.pathsOf t := by
    funext spec
    simp only [FreeText.pathsOf, h.resolve]
  funext settings request
  simp only [FreeText.query, FreeText.groups, hpaths]

/-- Alike snapshots have the same default projections. -/
theorem defaults (h : Alike s t) : Projection.defaults s = Projection.defaults t := by
  have hknown : Projection.isKnown s = Projection.isKnown t := by
    funext name
    simp only [Projection.isKnown, h.resolve]
  funext settings
  simp only [Projection.defaults, hknown]

/-- Alike snapshots have the same projections on top of the same defaults. -/
theorem projection (h : Alike s t) : Projection.ofRequest s = Projection.ofRequest t := by
  have hchosen : Projection.chosen s = Projection.chosen t := by
    funext default requested
    simp only [Projection.chosen, Projection.checked, h.resolve]
  funext defaults includes excludes
  simp only [Projection.ofRequest, hchosen]

end Snapshot.Alike
end SearchDsl
