import SearchDsl.Number.Decimal
import SearchDsl.Proofs.Number.Nearest

/-!
# Decimals of equal value

A decimal with `k` more zeros and an exponent less by `k` is the same number, and is read as the
same double (`Decimal.nearest?_shift`). `Decimal.nearest?_of_fraction` tells what it is read as,
away from the ends of the range.
-/

namespace SearchDsl.Decimal

/-! ### Digits -/

theorem ofDigits_eq (cs : List Char) : ofDigits cs = Nat.ofDigitChars 10 cs 0 := rfl

theorem ofDigits_append (cs ds : List Char) :
    ofDigits (cs ++ ds) = ofDigits cs * 10 ^ ds.length + ofDigits ds := by
  rw [ofDigits_eq, Nat.ofDigitChars_append, Nat.ofDigitChars_eq_ofDigitChars_zero, Nat.mul_comm]
  rfl

theorem ofDigits_zeros (k : Nat) : ofDigits (List.replicate k '0') = 0 := by
  rw [ofDigits_eq, Nat.ofDigitChars_replicate_zero, Nat.mul_zero]

theorem ofDigits_toDigits (n : Nat) : ofDigits (Nat.toDigits 10 n) = n :=
  Nat.ofDigitChars_ten_toDigits

/-- The number of digits, by comparison with powers of ten. -/
theorem lengthOf_le_iff {n k : Nat} (hn : 0 < n) : lengthOf n ≤ k ↔ n < 10 ^ k := by
  rw [lengthOf, if_neg hn.ne']
  rcases Nat.eq_zero_or_pos k with rfl | hk
  · have := Nat.length_toDigits_pos (b := 10) (n := n)
    simp only [Nat.pow_zero]
    omega
  · exact Nat.length_toDigits_le_iff (by decide) hk

theorem lengthOf_shift {n : Nat} (hn : 0 < n) (k : Nat) :
    lengthOf (n * 10 ^ k) = lengthOf n + k := by
  have hpos : 0 < n * 10 ^ k := Nat.mul_pos hn (Nat.pow_pos (by decide))
  have shift : ∀ j, lengthOf (n * 10 ^ k) ≤ j + k ↔ lengthOf n ≤ j := by
    intro j
    rw [lengthOf_le_iff hpos, lengthOf_le_iff hn, Nat.pow_add]
    exact Nat.mul_lt_mul_right (Nat.pow_pos (by decide))
  have upper := (shift (lengthOf n)).2 (Nat.le_refl _)
  -- With fewer than `k` digits there would be less than `10 ^ k`.
  have enough : k ≤ lengthOf (n * 10 ^ k) := by
    by_contra hlt
    have := (lengthOf_le_iff hpos).1 (show lengthOf (n * 10 ^ k) ≤ k by omega)
    have : 10 ^ k ≤ n * 10 ^ k := Nat.le_mul_of_pos_left _ hn
    omega
  have lower := (shift (lengthOf (n * 10 ^ k) - k)).1 (by omega)
  omega

/-! ### Reading -/

/-- Numerator and denominator of `n * 10 ^ e`. -/
def fraction (n : Nat) (e : Int) : Nat × Nat := (n * 10 ^ e.toNat, 10 ^ (-e).toNat)

/-- The power of ten that `n * 10 ^ e` stays below. -/
def top (n : Nat) (e : Int) : Int := lengthOf n + e

theorem nearest?_eq (negative : Bool) (n : Nat) (e : Int) :
    nearest? ⟨negative, n, e⟩ =
      if n = 0 ∨ top n e < -330 then some { Double.zero with negative := negative }
      else if 310 < top n e then none
      else Double.nearest? negative (fraction n e).1 (fraction n e).2 := by
  unfold nearest? top fraction
  simp only [Bool.or_eq_true, decide_eq_true_eq]
  congr 2
  split
  · rename_i h
    have : (-e).toNat = 0 := by omega
    rw [this]
    rfl
  · rename_i h
    have : e.toNat = 0 := by omega
    rw [this, Nat.pow_zero, Nat.mul_one]
    rfl

theorem nearest?_of_fraction {n : Nat} {e : Int} (negative : Bool) (hn : n ≠ 0)
    (hlow : -330 ≤ top n e) (hhigh : top n e ≤ 310) :
    nearest? ⟨negative, n, e⟩ = Double.nearest? negative (fraction n e).1 (fraction n e).2 := by
  rw [nearest?_eq, if_neg (by omega), if_neg (by omega)]

theorem ten_pow_pos (k : Nat) : 0 < 10 ^ k := Nat.pow_pos (by decide)

/-- The two fractions are equal, as they are at a common denominator. -/
theorem nearest?_fraction_shift (negative : Bool) (n k : Nat) (e : Int) :
    Double.nearest? negative (fraction (n * 10 ^ k) (e - k)).1 (fraction (n * 10 ^ k) (e - k)).2 =
      Double.nearest? negative (fraction n e).1 (fraction n e).2 := by
  simp only [fraction]
  rw [← Double.nearest?_scale (ten_pow_pos (-(e - k)).toNat) (ten_pow_pos (-e).toNat),
    ← Double.nearest?_scale (ten_pow_pos (-e).toNat) (ten_pow_pos (-(e - k)).toNat)]
  congr 1
  · rw [Nat.mul_assoc, Nat.mul_assoc, Nat.mul_assoc, ← Nat.pow_add, ← Nat.pow_add, ← Nat.pow_add]
    congr 2
    omega
  · exact Nat.mul_comm _ _

/-- **Zeros at the end of the digits do not change the double.** -/
theorem nearest?_shift (negative : Bool) (n k : Nat) (e : Int) :
    nearest? ⟨negative, n * 10 ^ k, e - k⟩ = nearest? ⟨negative, n, e⟩ := by
  rcases Nat.eq_zero_or_pos n with rfl | hn
  · simp [nearest?_eq]
  · have hpos : 0 < n * 10 ^ k := Nat.mul_pos hn (ten_pow_pos k)
    have htop : top (n * 10 ^ k) (e - k) = top n e := by
      simp only [top, lengthOf_shift hn]
      omega
    simp only [nearest?_eq, htop, hn.ne', hpos.ne', nearest?_fraction_shift]

/-- The sign goes from the decimal to the double. -/
theorem nearest?_sign {d : Double} {n : Nat} {e : Int}
    (h : (nearest? ⟨false, n, e⟩).map (·.rank) = some d.rank) :
    nearest? ⟨d.negative, n, e⟩ = some d := by
  have same : ∀ x : Double, x.negative = d.negative → x.rank = d.rank → some x = some d := by
    intro x hn hr
    cases x
    cases d
    simp_all
  rw [nearest?_eq] at h ⊢
  split at h
  · rename_i hz
    rw [if_pos hz]
    exact same _ rfl (by simpa using h)
  · rename_i hz
    rw [if_neg hz]
    split at h
    · cases h
    · rename_i ht
      rw [if_neg ht]
      simp only [Double.nearest?] at h ⊢
      split at h
      · rename_i hlt
        rw [dif_pos hlt]
        exact same _ rfl (by simpa using h)
      · cases h

end SearchDsl.Decimal
