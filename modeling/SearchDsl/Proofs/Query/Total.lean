import SearchDsl.Proofs.Expr.Built
import SearchDsl.Proofs.Filter.Query
import SearchDsl.Settings

/-!
# Expressions with a query

An expression is refused only for the value of one of its filters, and of several such filters for
that of the first one.

* `failure?_ofExpr`: the error of an expression, whether or not its filters were made;
* `exists_ofExpr_of_built`: built expressions have no such filter, so all of them have a query.
-/

namespace SearchDsl.Query

/-- The refusal of the filter, if there is no query for its value. -/
def refusal? (f : Filter) : Option Error :=
  if Filter.hasQuery f.operator f.value then none else some (noQuery f)

theorem failure?_ofFilter (s : Surroundings) (f : Filter) :
    failure? (ofFilter s f) = refusal? f := by
  unfold refusal?
  cases h : Filter.hasQuery f.operator f.value with
  | true =>
    obtain ⟨p, hp⟩ := ofFilter_of_hasQuery h s
    rw [hp]
    rfl
  | false =>
    rw [ofFilter_of_not_hasQuery h s]
    rfl

theorem refusal?_of_isMade {f : Filter} (h : f.IsMade) : refusal? f = none :=
  if_pos (Filter.hasQuery_of_hasShape h.hasShape)

section Compiler

variable (s : Surroundings)

mutual

/-- An item is refused for the first of its filters that has no query. -/
theorem failure?_ofItem (c : Connective) :
    (i : Item) → failure? (ofItem s c i) = i.leaves.findSome? refusal?
  | .leaf join negated f => by
    rw [ofItem, failure?_bind none fun _ => rfl, failure?_ofFilter, Option.or_none, Item.leaves,
      List.findSome?_singleton]
  | .group join negated items => by
    rw [ofItem, failure?_bind none fun _ => rfl, failure?_ofItems, Option.or_none, Item.leaves]

theorem failure?_ofItems (c : Connective) :
    (items : List Item) → failure? (ofItems s c items) = (Item.leavesOf items).findSome? refusal?
  | [] => rfl
  | i :: is => by
    rw [ofItems, failure?_bind _ fun _ => failure?_bind none fun _ => rfl, failure?_ofItem,
      failure?_ofItems, Option.or_none, Item.leavesOf, List.findSome?_append]

end

/-- **An expression is refused for the first of its filters that has no query**, and otherwise it
has one. -/
theorem failure?_ofExpr (e : Expr) : failure? (ofExpr s e) = e.leaves.findSome? refusal? := by
  rw [ofExpr, failure?_bind none fun _ => rfl, failure?_ofItems, Option.or_none, Expr.leaves]

end Compiler

/-- **Every built expression has a query, and so has each of its filters**, whatever the fields,
the settings and the nested documents that are already looked at. -/
theorem exists_ofExpr_of_built {e : Expr} (he : e.Built) (settings : Settings)
    (scope : List String) :
    (∃ c, ofExpr ⟨settings.nearDistance, scope⟩ e = .ok c) ∧
      ∀ f ∈ e.leaves, ∃ p, ofFilter ⟨settings.nearDistance, scope⟩ f = .ok (p, f.denies) := by
  have hmade := he.isMade
  constructor
  · rw [← failure?_eq_none_iff, failure?_ofExpr, List.findSome?_eq_none_iff]
    exact fun f hf => refusal?_of_isMade (hmade f hf)
  · exact fun f hf => ofFilter_of_isMade (hmade f hf) _

/-- A point, and a denied group of a viewport and a polygon, all of them given as such. -/
theorem exists_ofExpr_of_built_figures :
    let p : GeoPoint := ⟨Double.zero, Double.zero⟩
    ∃ e : Expr, e.Built ∧
      e.leaves.map Filter.value = [.point p, .viewport p p, .polygon [p, p, p]] ∧
      ∃ c, ofExpr ⟨Settings.standard.nearDistance, ["units"]⟩ e = .ok c := by
  intro p
  let near : Filter := ⟨Field.ofName "units.geo", .near, .point p⟩
  let viewport : Filter := ⟨Field.ofName "units.geo", .viewport, .viewport p p⟩
  let polygon : Filter := ⟨Field.ofName "units.geo", .polygon, .polygon [p, p, p]⟩
  have hnear : near.IsMade := ⟨near.field, .near, near.value, rfl⟩
  have hviewport : viewport.IsMade := ⟨viewport.field, .viewport, viewport.value, rfl⟩
  have hpolygon : polygon.IsMade := ⟨polygon.field, .polygon, polygon.value, rfl⟩
  let inner : List Item := [.leaf none false viewport, .leaf (some .and) false polygon]
  let outer : List Item := [.leaf none false near, .group (some .or) true inner]
  have hinner : Expr.ofItems 2 inner = .ok ⟨inner⟩ := rfl
  have houter : Expr.ofItems 2 outer = .ok ⟨outer⟩ := rfl
  have he : Expr.Built ⟨outer⟩ := by
    refine .ofItems (List.forall_mem_cons.2 ⟨.leaf _ _ hnear, ?_⟩) houter
    refine List.forall_mem_singleton.2 (.group _ _ (.ofItems ?_ hinner))
    exact List.forall_mem_cons.2
      ⟨.leaf _ _ hviewport, List.forall_mem_singleton.2 (.leaf _ _ hpolygon)⟩
  exact ⟨_, he, rfl, (exists_ofExpr_of_built he Settings.standard ["units"]).1⟩

end SearchDsl.Query
