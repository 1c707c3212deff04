import SearchDsl.Proofs.Expr.Meaning
import SearchDsl.Proofs.Filter.Shape

/-!
# Filters with a query

Which values an operator has a query for is settled apart from which values a filter may hold. Both
agree on every filter that `Filter.make` lets through:

* `ofFilter_of_hasQuery`, `ofFilter_of_not_hasQuery`: the values that have a query, and the refusal
  of all others;
* `hasQuery_of_hasShape`: each shape that an operator takes is one of them;
* `ofFilter_of_isMade`: so a made filter has a primitive query, which is denied just where the
  filter asks for a value to differ or to be missing.
-/

namespace SearchDsl

/-- There is a query for the operator with such a value. -/
def Filter.hasQuery : Operator → Value → Bool
  | .equal, _ | .notEqual, _ => true
  | .greaterThan, v | .greaterOrEqual, v | .lessThan, v | .lessOrEqual, v => v.isOrdered
  | .range, .list [a, b] => a.isOrdered && b.isOrdered
  | .isIn, .list _ | .like, .string _ => true
  | .viewport, .viewport _ _ | .polygon, .polygon _ | .near, .point _ => true
  | _, _ => false

theorem Filter.hasQuery_of_hasShape {op : Operator} {v : Value} (h : HasShape op v) :
    hasQuery op v = true := by
  cases op with
  | equal | notEqual => rfl
  | greaterThan | greaterOrEqual | lessThan | lessOrEqual => exact h
  | like =>
    obtain ⟨s, rfl⟩ := h
    rfl
  | range =>
    obtain ⟨a, b, rfl, ha, hb⟩ := h
    exact Bool.and_eq_true_iff.2 ⟨ha, hb⟩
  | isIn =>
    obtain ⟨items, rfl, -, -⟩ := h
    rfl
  | viewport =>
    obtain ⟨ne, sw, rfl⟩ := h
    rfl
  | polygon =>
    obtain ⟨points, rfl⟩ := h
    rfl
  | near =>
    obtain ⟨p, rfl⟩ := h
    rfl

namespace Query

theorem ofValue?_of_isOrdered {v : Value} (h : v.isOrdered = true) :
    ∃ b, Bound.ofValue? v = some b := by
  cases v <;> first | exact ⟨_, rfl⟩ | cases h

theorem ofValue?_of_not_isOrdered {v : Value} (h : v.isOrdered = false) :
    Bound.ofValue? v = none := by
  cases v <;> first | rfl | cases h

/-- The refusal of a value that there is no query for. -/
def noQuery (f : Filter) : Error := .badValue f.operator.name (.noQuery f.value.shape)

variable {f : Filter}

theorem ofFilter_of_hasQuery (h : Filter.hasQuery f.operator f.value = true) (s : Surroundings) :
    ∃ p, ofFilter s f = .ok (p, f.denies) := by
  obtain ⟨field, op, v⟩ := f
  cases op with
  | equal | notEqual => cases v <;> exact ⟨_, rfl⟩
  | greaterThan | greaterOrEqual | lessThan | lessOrEqual =>
    cases v <;> first | exact ⟨_, rfl⟩ | cases h
  | range =>
    match v, h with
    | .list [a, b], h =>
      obtain ⟨ha, hb⟩ := Bool.and_eq_true_iff.1 h
      obtain ⟨x, hx⟩ := ofValue?_of_isOrdered ha
      obtain ⟨y, hy⟩ := ofValue?_of_isOrdered hb
      refine ⟨.range field.name { Bounds.none with gte := some x, lte := some y }, ?_⟩
      simp [ofFilter, hx, hy, Filter.denies]
  | isIn | like | viewport | polygon | near => cases v <;> first | exact ⟨_, rfl⟩ | cases h

theorem ofFilter_of_not_hasQuery (h : Filter.hasQuery f.operator f.value = false)
    (s : Surroundings) : ofFilter s f = .error (noQuery f) := by
  obtain ⟨field, op, v⟩ := f
  cases op with
  | equal | notEqual => cases h
  | range =>
    match v, h with
    | .null, _ | .bool _, _ | .number _, _ | .string _, _ | .point _, _ | .viewport _ _, _
    | .polygon _, _ | .list [], _ | .list [_], _ | .list (_ :: _ :: _ :: _), _ => rfl
    | .list [a, b], h =>
      rcases Bool.and_eq_false_iff.1 h with ha | hb
      · simp [ofFilter, ofValue?_of_not_isOrdered ha, noQuery]
      · cases hx : Bound.ofValue? a <;> simp [ofFilter, hx, ofValue?_of_not_isOrdered hb, noQuery]
  | _ => cases v <;> first | rfl | cases h

/-- **A made filter has a primitive query.** -/
theorem ofFilter_of_isMade (h : f.IsMade) (s : Surroundings) :
    ∃ p, ofFilter s f = .ok (p, f.denies) :=
  ofFilter_of_hasQuery (Filter.hasQuery_of_hasShape h.hasShape) s

end Query
end SearchDsl
