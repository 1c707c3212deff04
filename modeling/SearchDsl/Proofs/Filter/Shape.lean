import SearchDsl.Filter
import SearchDsl.Proofs.Outcome

/-!
# The shapes of accepted values

`Filter.HasShape op v` says which values may stand in a filter with the operator `op`; in it the
geographic operators hold points, viewports and polygons and no lists. `Filter.IsMade` tells the
filters that `Filter.make` has let through from those that were put together by hand.

* `hasShape_of_shape`: what `Filter.shape` answers has the shape of its operator;
* `shape_of_shape`: and it is answered for itself;
* `IsMade.hasShape`: hence so does the value of every made filter;
* `IsMade.checked`: and it has passed the check of the type of its field.
-/

namespace SearchDsl
namespace Filter

/-- The value is one that a filter with the operator may hold. -/
def HasShape : Operator → Value → Prop
  | .equal, v | .notEqual, v => v.isScalar = true ∨ v = .null
  | .greaterThan, v | .greaterOrEqual, v | .lessThan, v | .lessOrEqual, v => v.isOrdered = true
  | .like, v => ∃ s, v = .string s
  | .range, v => ∃ a b, v = .list [a, b] ∧ a.isOrdered = true ∧ b.isOrdered = true
  | .isIn, v => ∃ items, v = .list items ∧ items ≠ [] ∧ ∀ i ∈ items, i.isScalar = true
  | .viewport, v => ∃ ne sw, v = .viewport ne sw
  | .polygon, v => ∃ points, v = .polygon points
  | .near, v => ∃ p, v = .point p

/-- The filter has come out of the checks of `Filter.make`. -/
def IsMade (f : Filter) : Prop := ∃ field op v, make field op v = .ok f

theorem isNull_iff {v : Value} : v.isNull = true ↔ v = .null := by
  cases v <;> simp [Value.isNull]

theorem isScalar_of_isOrdered {v : Value} (h : v.isOrdered = true) : v.isScalar = true := by
  cases v <;> simp [Value.isOrdered] at h <;> rfl

theorem shapeIf_eq_ok {test : Value → Bool} {expected : String} {v w : Value}
    (h : shapeIf test expected v = .ok w) : w = v ∧ test v = true := by
  unfold shapeIf at h
  split at h
  · rename_i ht
    exact ⟨(Except.ok.inj h).symm, ht⟩
  · cases h

theorem shapeRange_eq_ok {v w : Value} (h : shapeRange v = .ok w) :
    w = v ∧ ∃ a b, v = .list [a, b] ∧ a.isOrdered = true ∧ b.isOrdered = true := by
  unfold shapeRange at h
  split at h
  · split at h
    · rename_i lower upper
      split at h
      · cases h
      · rename_i hb
        have hall : ∀ x ∈ [lower, upper], x.isOrdered = true := by
          intro x hx
          simpa using List.find?_eq_none.1 hb x hx
        have hw : w = .list [lower, upper] := by
          split at h
          · split at h
            · cases h
            · exact (Except.ok.inj h).symm
          · exact (Except.ok.inj h).symm
        exact ⟨hw, lower, upper, rfl, hall lower (by simp), hall upper (by simp)⟩
    · cases h
  · cases h

theorem shapeList_eq_ok {v w : Value} (h : shapeList v = .ok w) :
    w = v ∧ ∃ items, v = .list items ∧ items ≠ [] ∧ ∀ i ∈ items, i.isScalar = true := by
  unfold shapeList at h
  split at h
  · rename_i items
    split at h
    · rename_i hc
      simp only [Bool.and_eq_true, Bool.not_eq_true', List.isEmpty_eq_false_iff,
        List.all_eq_true] at hc
      exact ⟨(Except.ok.inj h).symm, items, rfl, hc.1, hc.2⟩
    · cases h
  · cases h

theorem makeViewport_eq_ok {ne sw : GeoPoint} {w : Value} (h : makeViewport ne sw = .ok w) :
    w = .viewport ne sw ∧ ne.lat.lt sw.lat = false := by
  unfold makeViewport at h
  split at h
  · cases h
  · rename_i hl
    exact ⟨(Except.ok.inj h).symm, by simpa using hl⟩

theorem makePolygon_eq_ok {points : List GeoPoint} {w : Value} (h : makePolygon points = .ok w) :
    w = .polygon points ∧ 3 ≤ points.length := by
  unfold makePolygon at h
  split at h
  · cases h
  · rename_i hl
    exact ⟨(Except.ok.inj h).symm, by omega⟩

theorem shapeViewport_eq_ok {v w : Value} (h : shapeViewport v = .ok w) :
    ∃ ne sw, makeViewport ne sw = .ok w := by
  unfold shapeViewport at h
  split at h
  · exact ⟨_, _, h⟩
  · simp only [bind_eq_ok] at h
    obtain ⟨a, -, b, -, h⟩ := h
    exact ⟨a, b, h⟩
  · cases h
  · cases h

theorem shapePolygon_eq_ok {v w : Value} (h : shapePolygon v = .ok w) :
    ∃ points, makePolygon points = .ok w := by
  unfold shapePolygon at h
  split at h
  · exact ⟨_, h⟩
  · simp only [bind_eq_ok] at h
    obtain ⟨points, -, h⟩ := h
    exact ⟨points, h⟩
  · cases h

/-- **An operator answers only values of its own shape.** -/
theorem hasShape_of_shape {op : Operator} {v w : Value} (h : shape op v = .ok w) :
    HasShape op w := by
  cases op with
  | equal | notEqual =>
    obtain ⟨rfl, ht⟩ := shapeIf_eq_ok h
    simpa [HasShape, isScalarOrNull, isNull_iff] using ht
  | greaterThan | greaterOrEqual | lessThan | lessOrEqual =>
    obtain ⟨rfl, ht⟩ := shapeIf_eq_ok h
    exact ht
  | like =>
    obtain ⟨rfl, ht⟩ := shapeIf_eq_ok h
    cases w <;> simp [isString] at ht
    exact ⟨_, rfl⟩
  | range =>
    obtain ⟨rfl, hw⟩ := shapeRange_eq_ok h
    exact hw
  | isIn =>
    obtain ⟨rfl, hw⟩ := shapeList_eq_ok h
    exact hw
  | viewport =>
    obtain ⟨ne, sw, hmake⟩ := shapeViewport_eq_ok h
    exact ⟨ne, sw, (makeViewport_eq_ok hmake).1⟩
  | polygon =>
    obtain ⟨points, hmake⟩ := shapePolygon_eq_ok h
    exact ⟨points, (makePolygon_eq_ok hmake).1⟩
  | near =>
    change shapePoint v = .ok w at h
    unfold shapePoint at h
    split at h
    · exact ⟨_, (Except.ok.inj h).symm⟩
    · simp only [map_eq_ok] at h
      obtain ⟨p, -, rfl⟩ := h
      exact ⟨p, rfl⟩
    · cases h

/-- **A value in the shape of the operator stays as it is.** -/
theorem shape_of_shape {op : Operator} {v w : Value} (h : shape op v = .ok w) :
    shape op w = .ok w := by
  cases op with
  | equal | notEqual | greaterThan | greaterOrEqual | lessThan | lessOrEqual | like =>
    obtain ⟨rfl, -⟩ := shapeIf_eq_ok h
    exact h
  | range =>
    obtain ⟨rfl, -⟩ := shapeRange_eq_ok h
    exact h
  | isIn =>
    obtain ⟨rfl, -⟩ := shapeList_eq_ok h
    exact h
  | near =>
    obtain ⟨p, rfl⟩ := hasShape_of_shape h
    rfl
  | viewport =>
    obtain ⟨ne, sw, hmake⟩ := shapeViewport_eq_ok h
    obtain ⟨rfl, -⟩ := makeViewport_eq_ok hmake
    exact hmake
  | polygon =>
    obtain ⟨points, hmake⟩ := shapePolygon_eq_ok h
    obtain ⟨rfl, -⟩ := makePolygon_eq_ok hmake
    exact hmake

/-- What `make` has looked at: the value in the shape of the operator, and the type of the field. -/
theorem make_eq_ok_iff {field : Field} {op : Operator} {v : Value} {f : Filter} :
    make field op v = .ok f ↔
      f.field = field ∧ f.operator = op ∧ shape op v = .ok f.value ∧
        check field op f.value = .ok () := by
  unfold make
  constructor
  · intro h
    split at h
    · cases h
    · rename_i w hw
      split at h
      · cases h
      · rename_i hc
        cases h
        exact ⟨rfl, rfl, hw, hc⟩
  · rintro ⟨rfl, rfl, hw, hc⟩
    rw [hw]
    simp only [hc]

theorem IsMade.hasShape {f : Filter} (h : f.IsMade) : HasShape f.operator f.value := by
  obtain ⟨field, op, v, h⟩ := h
  obtain ⟨-, hop, hv, -⟩ := make_eq_ok_iff.1 h
  rw [hop]
  exact hasShape_of_shape hv

theorem IsMade.checked {f : Filter} (h : f.IsMade) :
    check f.field f.operator f.value = .ok () := by
  obtain ⟨field, op, v, h⟩ := h
  obtain ⟨rfl, rfl, -, hcheck⟩ := make_eq_ok_iff.1 h
  exact hcheck

end Filter
end SearchDsl
