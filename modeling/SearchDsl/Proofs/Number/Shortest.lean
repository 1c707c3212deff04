import Mathlib.Data.List.TakeWhile
import SearchDsl.Number.Shortest
import SearchDsl.Proofs.Number.Decimal

/-!
# Shortest decimals read back

`DigitForm.Reads x d` says that the digits of `x`, at their place, are read as the double `d`.

* `Double.exactDigits_reads`: all digits of a double read back, so that the search for fewer ones
  may fall back on them;
* `Double.shortest_reads`: what the search finds reads back.
-/

namespace SearchDsl

open Decimal

/-- The digits with a point behind the first one, times ten to the place, are read as the double.
-/
structure DigitForm.Reads (x : DigitForm) (d : Double) : Prop where
  ne_nil : x.digits ≠ []
  isDigit : ∀ c ∈ x.digits, c.isDigit = true
  nearest : nearest? ⟨d.negative, ofDigits x.digits, x.place + 1 - x.digits.length⟩ = some d

/-! ### Digits of a whole number -/

/-- A row of digits without the zeros at its end, and how many these are. -/
theorem exists_zeros (cs : List Char) :
    ∃ k, cs = (cs.reverse.dropWhile (· == '0')).reverse ++ List.replicate k '0' := by
  refine ⟨(cs.reverse.takeWhile (· == '0')).length, ?_⟩
  have hzeros : cs.reverse.takeWhile (· == '0') =
      List.replicate (cs.reverse.takeWhile (· == '0')).length '0' := by
    refine List.eq_replicate_iff.2 ⟨rfl, fun c hc => ?_⟩
    simpa using List.mem_takeWhile_imp hc
  calc cs = cs.reverse.reverse := (List.reverse_reverse cs).symm
    _ = (cs.reverse.takeWhile (· == '0') ++ cs.reverse.dropWhile (· == '0')).reverse := by
      rw [List.takeWhile_append_dropWhile]
    _ = _ := by rw [List.reverse_append, hzeros, List.reverse_replicate, List.length_replicate]

theorem DigitForm.reads_ofNat {n : Nat} {e : Int} {d : Double} (hn : n ≠ 0)
    (h : nearest? ⟨d.negative, n, e⟩ = some d) : (DigitForm.ofNat n e).Reads d := by
  obtain ⟨k, hk⟩ := exists_zeros (Nat.toDigits 10 n)
  have hval : ofDigits (DigitForm.ofNat n e).digits * 10 ^ k = n := by
    have := ofDigits_toDigits n
    rw [hk, ofDigits_append, ofDigits_zeros, List.length_replicate] at this
    simpa [DigitForm.ofNat, hn] using this
  have hlen : (Nat.toDigits 10 n).length = (DigitForm.ofNat n e).digits.length + k := by
    have := congrArg List.length hk
    rw [List.length_append, List.length_replicate] at this
    simpa [DigitForm.ofNat, hn] using this
  have hplace : (DigitForm.ofNat n e).place = e + (Nat.toDigits 10 n).length - 1 := by
    simp [DigitForm.ofNat, hn]
  refine ⟨?_, ?_, ?_⟩
  · intro hnil
    rw [hnil] at hval
    exact hn (by simpa [ofDigits] using hval.symm)
  · intro c hc
    have hmem : c ∈ Nat.toDigits 10 n := by
      rw [hk]
      simp only [DigitForm.ofNat, hn, if_false] at hc
      exact List.mem_append_left _ hc
    exact Nat.isDigit_of_mem_toDigits (by decide) (by decide) hmem
  · rw [← nearest?_shift _ _ k, hval, hplace, hlen]
    rw [← h]
    congr 2
    omega

namespace Double

/-! ### All digits -/

theorem significand_pos {d : Double} (h : d.rank ≠ 0) : 0 < d.significand := by
  unfold significand
  split
  · omega
  · exact Nat.add_pos_left binade_pos _

theorem significand_lt (d : Double) : d.significand < 2 ^ 53 := by
  have h₁ : binade + binade = 2 ^ 53 := by decide
  have h₂ := Nat.mod_lt d.rank binade_pos
  unfold significand
  split <;> omega

theorem exponent_le (d : Double) : d.exponent ≤ 971 := by
  have hq : d.rank / binade < 2047 := (Nat.div_lt_iff_lt_mul binade_pos).2 d.rank_lt
  simp only [exponent]
  omega

theorem exactDigits_fraction (d : Double) (negative : Bool) :
    Double.nearest? negative (fraction d.exactDigits.1 d.exactDigits.2).1
        (fraction d.exactDigits.1 d.exactDigits.2).2 =
      Double.nearest? negative d.ratio.1 d.ratio.2 := by
  rw [ratio_eq]
  unfold exactDigits
  split
  · rename_i hx
    have : (-d.exponent).toNat = 0 := by omega
    simp [fraction, ratio_eq, this]
  · rename_i hx
    have hzero : d.exponent.toNat = 0 := by omega
    obtain ⟨k, hk⟩ : ∃ k, (-d.exponent).toNat = k := ⟨_, rfl⟩
    simp only [fraction, hzero, hk, Nat.pow_zero, Nat.mul_one, Nat.pow_eq]
    rw [show (10 : Nat) = 2 * 5 from rfl, Nat.mul_pow]
    exact nearest?_scale (Nat.pow_pos (by decide)) (Nat.pow_pos (by decide)) _

theorem exactDigits_ne_zero {d : Double} (h : d.rank ≠ 0) : d.exactDigits.1 ≠ 0 := by
  have hs := significand_pos h
  unfold exactDigits
  split
  · exact (ratio_fst_pos hs).ne'
  · exact (Nat.mul_pos hs (Nat.pow_pos (by decide))).ne'

theorem exactDigits_of_nonneg {d : Double} (h : 0 ≤ d.exponent) :
    d.exactDigits = (d.ratio.1, 0) := if_pos h

theorem exactDigits_of_neg {d : Double} (h : ¬ 0 ≤ d.exponent) :
    d.exactDigits = (d.significand * 5 ^ (-d.exponent).toNat, d.exponent) := if_neg h

/-- A double is not so large that its decimal is cut off. -/
theorem top_exactDigits_le {d : Double} (h : d.rank ≠ 0) :
    top d.exactDigits.1 d.exactDigits.2 ≤ 310 := by
  have hpos := Nat.pos_of_ne_zero (exactDigits_ne_zero h)
  have hx := exponent_le d
  unfold top
  by_cases hx₀ : 0 ≤ d.exponent
  · have hd := exactDigits_of_nonneg hx₀
    have hlen : lengthOf d.exactDigits.1 ≤ 310 := by
      rw [lengthOf_le_iff hpos, hd, ratio_eq]
      calc d.significand * 2 ^ d.exponent.toNat < 2 ^ 53 * 2 ^ d.exponent.toNat :=
            Nat.mul_lt_mul_of_pos_right (significand_lt d) (Nat.pow_pos (by decide))
        _ ≤ 2 ^ 53 * 2 ^ 971 :=
            Nat.mul_le_mul_left _ (Nat.pow_le_pow_right (by decide) (by omega))
        _ ≤ 10 ^ 310 := by decide +kernel
    rw [hd] at hlen ⊢
    omega
  · have hd := exactDigits_of_neg hx₀
    obtain ⟨k, hk⟩ : ∃ k : Nat, (-d.exponent).toNat = k := ⟨_, rfl⟩
    rw [hk] at hd
    have hlen : lengthOf d.exactDigits.1 ≤ 16 + k := by
      rw [lengthOf_le_iff hpos, hd, Nat.pow_add]
      calc d.significand * 5 ^ k < 2 ^ 53 * 5 ^ k :=
            Nat.mul_lt_mul_of_pos_right (significand_lt d) (Nat.pow_pos (by decide))
        _ ≤ 10 ^ 16 * 10 ^ k :=
            Nat.mul_le_mul (by decide) (Nat.pow_le_pow_left (by decide) k)
    rw [hd] at hlen ⊢
    simp only at hlen ⊢
    omega

/-- A double is not so small that its decimal is cut off. -/
theorem le_top_exactDigits {d : Double} (h : d.rank ≠ 0) :
    -330 ≤ top d.exactDigits.1 d.exactDigits.2 := by
  have hpos := Nat.pos_of_ne_zero (exactDigits_ne_zero h)
  have hx := exponent_ge d
  unfold top
  by_cases hx₀ : 0 ≤ d.exponent
  · rw [exactDigits_of_nonneg hx₀]
    simp only
    omega
  · have hd := exactDigits_of_neg hx₀
    obtain ⟨k, hk⟩ : ∃ k : Nat, (-d.exponent).toNat = k := ⟨_, rfl⟩
    rw [hk] at hd
    by_contra hlow
    -- Otherwise `5 ^ k` alone would have too many digits, as `10 ^ 330` outweighs `2 ^ k`.
    have hshort : lengthOf d.exactDigits.1 + 330 ≤ k := by
      rw [hd] at hlow ⊢
      simp only at hlow ⊢
      omega
    have hlt : d.exactDigits.1 < 10 ^ (k - 330) := (lengthOf_le_iff hpos).1 (by omega)
    have hge : 10 ^ k ≤ d.exactDigits.1 * 10 ^ 330 := by
      rw [hd]
      calc 10 ^ k = 1 * 5 ^ k * 2 ^ k := by
            rw [Nat.one_mul, ← Nat.mul_pow]
        _ ≤ d.significand * 5 ^ k * 10 ^ 330 := by
          refine Nat.mul_le_mul (Nat.mul_le_mul_right _ (significand_pos h)) ?_
          calc 2 ^ k ≤ 2 ^ 1074 := Nat.pow_le_pow_right (by decide) (by omega)
            _ ≤ 10 ^ 330 := by decide +kernel
    have : 10 ^ k < 10 ^ k := by
      calc 10 ^ k ≤ d.exactDigits.1 * 10 ^ 330 := hge
        _ < 10 ^ (k - 330) * 10 ^ 330 := Nat.mul_lt_mul_of_pos_right hlt (ten_pow_pos 330)
        _ = 10 ^ k := by rw [← Nat.pow_add, Nat.sub_add_cancel (by omega)]
    omega

/-- **All digits of a double read back.** -/
theorem exactDigits_reads {d : Double} (h : d.rank ≠ 0) :
    Decimal.nearest? ⟨d.negative, d.exactDigits.1, d.exactDigits.2⟩ = some d := by
  rw [nearest?_of_fraction _ (exactDigits_ne_zero h) (le_top_exactDigits h) (top_exactDigits_le h),
    exactDigits_fraction, nearest?_ratio]

/-! ### The search -/

theorem readsBack_iff {d : Double} (h : d.rank ≠ 0) {n : Nat} {e : Int}
    (hr : d.readsBack n e = true) : n ≠ 0 ∧ Decimal.nearest? ⟨d.negative, n, e⟩ = some d := by
  have hr : (Decimal.nearest? ⟨false, n, e⟩).map (·.rank) = some d.rank := by
    simpa [readsBack] using hr
  refine ⟨?_, nearest?_sign hr⟩
  rintro rfl
  rw [Decimal.nearest?_eq, if_pos (.inl rfl)] at hr
  exact h (Option.some.inj hr).symm

theorem onGrid?_eq_some {tie : Tie} {d : Double} {e : Int} {n : Nat}
    (h : d.onGrid? tie e = some n) : d.readsBack n e = true := by
  obtain ⟨pair, hp⟩ : ∃ pair : Nat × Nat, pair =
      if 0 ≤ e then (d.ratio.1, d.ratio.2 * Nat.pow 10 e.toNat)
      else (d.ratio.1 * Nat.pow 10 (-e).toNat, d.ratio.2) := ⟨_, rfl⟩
  unfold onGrid? at h
  simp only [← hp] at h
  split at h
  · cases h
    split <;> assumption
  · cases h
    assumption
  · cases h
    assumption
  · cases h

theorem searchGrids_reads {d : Double} (h : d.rank ≠ 0) (tie : Tie) (k : Int)
    (digits remaining : Nat) : (d.searchGrids tie k digits remaining).Reads d := by
  induction remaining generalizing digits with
  | zero => exact DigitForm.reads_ofNat (exactDigits_ne_zero h) (exactDigits_reads h)
  | succ r ih =>
    rw [searchGrids]
    split
    · rename_i p hp
      obtain ⟨hn, hread⟩ := readsBack_iff h (onGrid?_eq_some hp)
      exact DigitForm.reads_ofNat hn hread
    · exact ih (digits + 1)

/-- **The fewest digits read back.** -/
theorem shortest_reads {d : Double} (h : d.rank ≠ 0) (tie : Tie) : (d.shortest tie).Reads d := by
  rw [shortest, if_neg h]
  exact searchGrids_reads h tie _ 1 17

theorem shortest_of_zero {d : Double} (h : d.rank = 0) (tie : Tie) :
    d.shortest tie = ⟨[], 0⟩ := if_pos h

end Double
end SearchDsl
