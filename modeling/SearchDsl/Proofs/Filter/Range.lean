import SearchDsl.Proofs.Filter.Shape
import SearchDsl.Proofs.Number.Rounding
import SearchDsl.Query.OfExpr

/-!
# The order of the bounds in a range

The bounds of a range have to be in order, which is looked at after both were rounded to doubles.
The query gets the bounds as they were given.

* `make_range_numbers`: a range of two numbers is refused just if its doubles are reversed;
* `make_range_whole`: for whole numbers that is almost the order of the numbers themselves. Reversed
  bounds pass if they share a double; beyond `2^53` there are such bounds (`reversed_bounds_made`).
-/

namespace SearchDsl
namespace Filter

variable {field : Field}

/-- Numeric fields, and fields of which nothing is known, take ranges of numbers. -/
theorem check_range_numbers (h : ∀ t, field.type? = some t → t.isNumeric = true) (m n : Numeral) :
    check field .range (.list [.number m, .number n]) = .ok () := by
  unfold check
  split
  · rfl
  · rename_i t ht
    have hnumeric := h t ht
    cases t <;> first | rfl | cases hnumeric

theorem shapeRange_numbers (m n : Numeral) :
    shapeRange (.list [.number m, .number n]) =
      if n.toDouble.lt m.toDouble then .error (.boundsReversed (.number m) (.number n))
      else .ok (.list [.number m, .number n]) := rfl

/-- **A range of two numbers is refused just if their doubles are reversed.** -/
theorem make_range_numbers (h : ∀ t, field.type? = some t → t.isNumeric = true) (m n : Numeral) :
    make field .range (.list [.number m, .number n]) =
      if m.toDouble.place ≤ n.toDouble.place then
        .ok ⟨field, .range, .list [.number m, .number n]⟩
      else .error (.badValue Operator.range.name (.boundsReversed (.number m) (.number n))) := by
  have hshape : shape .range (.list [.number m, .number n]) = _ := shapeRange_numbers m n
  by_cases hle : m.toDouble.place ≤ n.toDouble.place
  · have hlt : ¬ n.toDouble.lt m.toDouble = true := by simpa [Double.lt] using hle
    rw [make, hshape, if_neg hlt, if_pos hle]
    simp only [check_range_numbers h]
  · have hlt : n.toDouble.lt m.toDouble = true := by simpa [Double.lt] using hle
    rw [make, hshape, if_pos hlt, if_neg hle]

/-- The filter on a range of whole numbers exists just if the first is not the greater one, or if
both share a double. -/
theorem exists_make_range_iff (h : ∀ t, field.type? = some t → t.isNumeric = true) (a b : ℤ) :
    (∃ f, make field .range (.list [.number (.whole a), .number (.whole b)]) = .ok f) ↔
      a ≤ b ∨ Double.ofInt a = Double.ofInt b := by
  rw [make_range_numbers h, ← Double.le_ofInt_iff]
  by_cases hle : (Double.ofInt a).place ≤ (Double.ofInt b).place <;> simp [Numeral.toDouble, hle]

theorem natAbs_le_of_isSigned64 {i : ℤ} (h : Numeral.isSigned64 i = true) : i.natAbs ≤ 2 ^ 63 := by
  simp only [Numeral.isSigned64, Nat.pow_eq, Bool.and_eq_true, decide_eq_true_eq] at h
  omega

/-- **Which ranges of whole numbers there are.** On a numeric field, or one of which nothing is
known, a range of two 64-bit numbers is accepted just if they are in order or share a double, and
refused for its order otherwise. So the order is exact up to `2^53`, and in any case the bounds are
reversed by no more than 1024. The query of the range has the very bounds that were given. -/
theorem make_range_whole (field : Field) (a b : ℤ)
    (htype : ∀ t, field.type? = some t → t.isNumeric = true)
    (ha : Numeral.isSigned64 a = true) (hb : Numeral.isSigned64 b = true) :
    let bounds : Value := .list [.number (.whole a), .number (.whole b)]
    (make field .range bounds =
      if a ≤ b ∨ Double.ofInt a = Double.ofInt b then .ok ⟨field, .range, bounds⟩
      else .error (.badValue "RANGE"
        (.boundsReversed (.number (.whole a)) (.number (.whole b))))) ∧
    (a.natAbs ≤ 2 ^ 53 → b.natAbs ≤ 2 ^ 53 → ((∃ f, make field .range bounds = .ok f) ↔ a ≤ b)) ∧
    ∀ f, make field .range bounds = .ok f →
      a ≤ b + 1024 ∧
      ∀ s, Query.ofFilter s f =
        .ok (.range field.name { Bounds.none with gte := some (.long a), lte := some (.long b) },
          false) := by
  intro bounds
  have hmake := make_range_numbers htype (.whole a) (.whole b)
  simp only [Numeral.toDouble, Double.le_ofInt_iff] at hmake
  have hexists := exists_make_range_iff htype a b
  refine ⟨hmake, fun ha' hb' => ?_, fun f hf => ⟨?_, fun s => ?_⟩⟩
  · rw [hexists]
    exact or_iff_left_of_imp fun h => (Double.eq_of_ofInt_eq ha' hb' h).le
  · rcases hexists.1 ⟨f, hf⟩ with hle | hshared
    · omega
    · have hnear := Double.abs_sub_le_of_ofInt_eq (natAbs_le_of_isSigned64 ha)
        (natAbs_le_of_isSigned64 hb) hshared
      have := (abs_le.1 hnear).2
      omega
  · rw [hmake] at hf
    split at hf
    · cases hf
      simp [Query.ofFilter, Bound.ofValue?, Bound.ofNumeral, Numeral.toSigned64?, ha, hb]
    · cases hf

/-- Prices in order, equal ones and reversed ones, on a field of prices; and reversed ones beyond
`2^53` that share a double. -/
theorem make_range_whole_prices :
    let price := Field.typed "price" [.long]
    let bounds (a b : ℤ) : Value := .list [.number (.whole a), .number (.whole b)]
    (∃ f, make price .range (bounds (-5) 1) = .ok f ∧ ∀ s, Query.ofFilter s f =
      .ok (.range "price" { Bounds.none with gte := some (.long (-5)), lte := some (.long 1) },
        false)) ∧
    (∃ f, make price .range (bounds 7 7) = .ok f) ∧
    make price .range (bounds 5 1) =
      .error (.badValue "RANGE" (.boundsReversed (.number (.whole 5)) (.number (.whole 1)))) ∧
    ∃ f, make price .range (bounds 9007199254740993 9007199254740992) = .ok f ∧
      (9007199254740993 : ℤ) ≤ 9007199254740992 + 1024 := by
  intro price bounds
  have htype : ∀ t, price.type? = some t → t.isNumeric = true := by
    rintro t ⟨⟩
    rfl
  obtain ⟨-, hexact, hquery⟩ := make_range_whole price (-5) 1 htype (by decide) (by decide)
  obtain ⟨f, hf⟩ := (hexact (by decide) (by decide)).2 (by decide)
  obtain ⟨-, hequal, -⟩ := make_range_whole price 7 7 htype (by decide) (by decide)
  obtain ⟨hreversed, -, -⟩ := make_range_whole price 5 1 htype (by decide) (by decide)
  obtain ⟨hshared, -, hnear⟩ := make_range_whole price 9007199254740993 9007199254740992 htype
    (by decide) (by decide)
  rw [if_neg (by decide)] at hreversed
  rw [if_pos (by decide)] at hshared
  exact ⟨⟨f, hf, (hquery f hf).2⟩, (hequal (by decide) (by decide)).2 le_rfl, hreversed,
    _, hshared, (hnear _ hshared).1⟩

/-- **Reversed bounds that are accepted**: both have the double `2^53`. -/
theorem reversed_bounds_made :
    ¬ ∀ (field : Field) (a b : ℤ), (∀ t, field.type? = some t → t.isNumeric = true) →
      Numeral.isSigned64 a = true → Numeral.isSigned64 b = true →
      ((∃ f, make field .range (.list [.number (.whole a), .number (.whole b)]) = .ok f) ↔
        a ≤ b) := by
  intro hall
  have hshared : Double.ofInt 9007199254740993 = Double.ofInt 9007199254740992 := by decide
  have htype : ∀ t, (Field.ofName "price").type? = some t → t.isNumeric = true := by
    rintro t ⟨⟩
  have hle := (hall (Field.ofName "price") 9007199254740993 9007199254740992 htype (by decide)
    (by decide)).1 ((exists_make_range_iff htype _ _).2 (.inr hshared))
  exact absurd hle (by decide)

end Filter
end SearchDsl
