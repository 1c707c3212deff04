import Mathlib.Algebra.Order.Field.Power
import Mathlib.Data.Int.Log
import Mathlib.Data.Rat.Floor
import Mathlib.Tactic.Positivity
import Mathlib.Tactic.FieldSimp
import Mathlib.Tactic.Linarith
import SearchDsl.Number.Double

/-!
# The nearest double of a fraction

* `floorLog2_eq_log`: the binade of a fraction is found by its logarithm;
* `nearestRank_scale`: the nearest double depends only on the value of the fraction;
* `nearestRank_ratio`: a double is the nearest one to its own value.
-/

namespace SearchDsl.Double

variable {num den c : Nat}

/-! ### Rounding -/

theorem roundHalfEven_scale (hc : 0 < c) :
    roundHalfEven (num * c) (den * c) = roundHalfEven num den := by
  have hdiv : num * c / (den * c) = num / den := Nat.mul_div_mul_right num den hc
  have hmod : num * c % (den * c) = num % den * c := Nat.mul_mod_mul_right c num den
  have hlt : ∀ a b : Nat, a * c < b * c ↔ a < b := fun a b => Nat.mul_lt_mul_right hc
  simp only [roundHalfEven, hdiv, hmod, ← Nat.mul_assoc, hlt]

/-- A whole number is not changed. -/
theorem roundHalfEven_exact (hc : 0 < c) : roundHalfEven (num * c) c = num := by
  have h : roundHalfEven (num * c) (1 * c) = roundHalfEven num 1 := roundHalfEven_scale hc
  rw [Nat.one_mul] at h
  rw [h]
  simp [roundHalfEven, Nat.mod_one]

/-! ### Binades -/

theorem pow_log2_le (h : 0 < num) : (2 : ℚ) ^ (num.log2 : ℤ) ≤ num := by
  rw [zpow_natCast]
  exact_mod_cast Nat.log2_self_le h.ne'

theorem lt_pow_log2 : (num : ℚ) < 2 ^ ((num.log2 : ℤ) + 1) := by
  have h := Nat.lt_log2_self (n := num)
  have : ((num.log2 : ℤ) + 1) = ((num.log2 + 1 : ℕ) : ℤ) := by push_cast; rfl
  rw [this, zpow_natCast]
  exact_mod_cast h

/-- A power of two is compared with a fraction without division. -/
theorem zpow_le_div_iff (hd : 0 < den) (l : ℤ) :
    (2 : ℚ) ^ l ≤ num / den ↔
      if 0 ≤ l then den * Nat.pow 2 l.toNat ≤ num else den ≤ num * Nat.pow 2 (-l).toNat := by
  have hd' : (0 : ℚ) < den := by exact_mod_cast hd
  rw [le_div_iff₀ hd']
  split
  · rename_i hl
    obtain ⟨k, rfl⟩ := Int.eq_ofNat_of_zero_le hl
    rw [zpow_natCast, Int.toNat_natCast, Nat.pow_eq]
    rw [mul_comm]
    exact_mod_cast Iff.rfl
  · rename_i hl
    obtain ⟨k, hk⟩ := Int.eq_ofNat_of_zero_le (show 0 ≤ -l by omega)
    obtain rfl : l = -k := by omega
    rw [neg_neg, Int.toNat_natCast, Nat.pow_eq, zpow_neg, zpow_natCast,
      inv_mul_le_iff₀ (by positivity), mul_comm]
    exact_mod_cast Iff.rfl

theorem eq_log_of_bounds {q : ℚ} (hq : 0 < q) {l : ℤ} (h₁ : (2 : ℚ) ^ l ≤ q)
    (h₂ : q < 2 ^ (l + 1)) : l = Int.log 2 q := by
  have h₁ : l ≤ Int.log 2 q := (Int.zpow_le_iff_le_log (by norm_num) hq).1 (by exact_mod_cast h₁)
  have h₂ : Int.log 2 q < l + 1 :=
    (Int.lt_zpow_iff_log_lt (by norm_num) hq).1 (by exact_mod_cast h₂)
  omega

theorem div_pos_of_pos (hn : 0 < num) (hd : 0 < den) : (0 : ℚ) < (num : ℚ) / den := by
  have hn' : (0 : ℚ) < num := by exact_mod_cast hn
  have hd' : (0 : ℚ) < den := by exact_mod_cast hd
  exact div_pos hn' hd'

theorem floorLog2_eq_log (hn : 0 < num) (hd : 0 < den) :
    floorLog2 num den = Int.log 2 ((num : ℚ) / den) := by
  have hq := div_pos_of_pos hn hd
  have hd' : (0 : ℚ) < den := by exact_mod_cast hd
  -- The difference of the lengths is the logarithm or one more.
  obtain ⟨l, hl⟩ : ∃ l : ℤ, l = (num.log2 : ℤ) - den.log2 := ⟨_, rfl⟩
  have upper : (num : ℚ) / den < 2 ^ (l + 1) := by
    rw [div_lt_iff₀ hd']
    calc (num : ℚ) < 2 ^ ((num.log2 : ℤ) + 1) := lt_pow_log2
      _ = 2 ^ (l + 1) * 2 ^ (den.log2 : ℤ) := by
        rw [← zpow_add₀ (by norm_num)]
        congr 1
        omega
      _ ≤ 2 ^ (l + 1) * den := by
        gcongr
        exact pow_log2_le hd
  have lower : (2 : ℚ) ^ (l - 1) ≤ num / den := by
    rw [le_div_iff₀ hd']
    calc (2 : ℚ) ^ (l - 1) * den ≤ 2 ^ (l - 1) * 2 ^ ((den.log2 : ℤ) + 1) := by
          gcongr
          exact lt_pow_log2.le
      _ = 2 ^ (num.log2 : ℤ) := by
        rw [← zpow_add₀ (by norm_num)]
        congr 1
        omega
      _ ≤ num := pow_log2_le hn
  have reached : (2 : ℚ) ^ l ≤ num / den ↔ _ := zpow_le_div_iff hd l
  simp only [floorLog2, ← hl]
  by_cases h : (2 : ℚ) ^ l ≤ num / den
  · rw [if_pos (reached.1 h)]
    exact eq_log_of_bounds hq h upper
  · rw [if_neg fun hr => h (reached.2 hr)]
    exact eq_log_of_bounds hq lower (by simpa using not_le.1 h)

theorem floorLog2_scale (hn : 0 < num) (hd : 0 < den) (hc : 0 < c) :
    floorLog2 (num * c) (den * c) = floorLog2 num den := by
  rw [floorLog2_eq_log (Nat.mul_pos hn hc) (Nat.mul_pos hd hc), floorLog2_eq_log hn hd]
  have hc' : (c : ℚ) ≠ 0 := by exact_mod_cast hc.ne'
  push_cast
  rw [mul_div_mul_right _ _ hc']

/-- **The nearest double depends only on the value of the fraction.** -/
theorem nearestRank_scale (hd : 0 < den) (hc : 0 < c) :
    nearestRank (num * c) (den * c) = nearestRank num den := by
  rcases Nat.eq_zero_or_pos num with rfl | hn
  · rw [Nat.zero_mul]
    simp [nearestRank]
  · have hscale : scaleOf (num * c) (den * c) = scaleOf num den := by
      rw [scaleOf, scaleOf, floorLog2_scale hn hd hc]
    simp only [nearestRank, if_neg (Nat.mul_pos hn hc).ne', if_neg hn.ne', hscale]
    congr 1
    split
    · rw [Nat.mul_right_comm den c, roundHalfEven_scale hc]
    · rw [Nat.mul_right_comm num c, roundHalfEven_scale hc]

theorem nearest?_scale (hd : 0 < den) (hc : 0 < c) (negative : Bool) :
    nearest? negative (num * c) (den * c) = nearest? negative num den := by
  simp only [nearest?, nearestRank_scale hd hc]

/-! ### The double itself -/

theorem floorLog2_of_bounds (hn : 0 < num) (hd : 0 < den) {l : ℤ}
    (h₁ : (2 : ℚ) ^ l ≤ num / den) (h₂ : (num : ℚ) / den < 2 ^ (l + 1)) :
    floorLog2 num den = l := by
  rw [floorLog2_eq_log hn hd]
  exact (eq_log_of_bounds (div_pos_of_pos hn hd) h₁ h₂).symm

theorem floorLog2_lt (hn : 0 < num) (hd : 0 < den) {l : ℤ} (h : (num : ℚ) / den < 2 ^ l) :
    floorLog2 num den < l := by
  rw [floorLog2_eq_log hn hd]
  exact (Int.lt_zpow_iff_log_lt (by norm_num) (div_pos_of_pos hn hd)).1 (by exact_mod_cast h)

variable {d : Double}

theorem binade_pos : 0 < binade := by decide

theorem exponent_ge (d : Double) : -1074 ≤ d.exponent := by
  simp only [exponent]
  omega

/-- The fraction of a double is its significand times the power of two. -/
theorem ratio_eq (d : Double) :
    d.ratio = (d.significand * 2 ^ d.exponent.toNat, 2 ^ (-d.exponent).toNat) := by
  unfold ratio
  split
  · rename_i h
    have : (-d.exponent).toNat = 0 := by omega
    rw [this]
    rfl
  · rename_i h
    have : d.exponent.toNat = 0 := by omega
    rw [this]
    simp

theorem value_eq (d : Double) :
    (d.ratio.1 : ℚ) / d.ratio.2 = d.significand * 2 ^ d.exponent := by
  rw [ratio_eq]
  push_cast
  rw [mul_div_assoc, ← zpow_natCast, ← zpow_natCast, ← zpow_sub₀ (by norm_num)]
  congr 2
  omega

/-- A number and its nearest double are rounded at the same power of two. -/
theorem nearestRank_ratio_of_scale (hpos : 0 < d.significand)
    (h : scaleOf d.ratio.1 d.ratio.2 = d.exponent) :
    nearestRank d.ratio.1 d.ratio.2 =
      d.significand + (d.exponent + 1074).toNat * binade := by
  have hn : d.ratio.1 ≠ 0 := by
    rw [ratio_eq]
    positivity
  simp only [nearestRank, if_neg hn, h]
  congr 1
  rw [ratio_eq]
  split
  · rename_i hx
    have : (-d.exponent).toNat = 0 := by omega
    rw [this, Nat.pow_eq, Nat.pow_zero, Nat.one_mul]
    exact roundHalfEven_exact (by positivity)
  · rename_i hx
    have : d.exponent.toNat = 0 := by omega
    rw [this, Nat.pow_eq, Nat.pow_zero, Nat.mul_one]
    exact roundHalfEven_exact (by positivity)

theorem ratio_pos (d : Double) : 0 < d.ratio.2 := by
  rw [ratio_eq]
  positivity

theorem ratio_fst_pos (h : 0 < d.significand) : 0 < d.ratio.1 := by
  rw [ratio_eq]
  positivity

/-- The scale of a subnormal number is the least one. -/
theorem scaleOf_subnormal (hpos : 0 < d.rank) (h : d.rank < binade) :
    scaleOf d.ratio.1 d.ratio.2 = d.exponent := by
  have hs : d.significand = d.rank := if_pos h
  have hx : d.exponent = -1074 := by
    simp [exponent, Nat.div_eq_of_lt h]
  have hlt : floorLog2 d.ratio.1 d.ratio.2 < -1022 := by
    refine floorLog2_lt (ratio_fst_pos (hs ▸ hpos)) (ratio_pos d) ?_
    have hb : (d.rank : ℚ) < 2 ^ 52 := by exact_mod_cast h
    rw [value_eq, hs, hx]
    calc (d.rank : ℚ) * 2 ^ (-1074 : ℤ) < 2 ^ 52 * 2 ^ (-1074 : ℤ) := by gcongr
      _ = 2 ^ (-1022 : ℤ) := by
        rw [← zpow_natCast, ← zpow_add₀ (by norm_num)]
        norm_num
  rw [scaleOf, hx]
  omega

/-- The scale of a normal number is its exponent. -/
theorem scaleOf_normal (h : binade ≤ d.rank) : scaleOf d.ratio.1 d.ratio.2 = d.exponent := by
  have hs : d.significand = binade + d.rank % binade := if_neg (by omega)
  have hlog : floorLog2 d.ratio.1 d.ratio.2 = 52 + d.exponent := by
    have hlow : (2 : ℚ) ^ 52 ≤ d.significand := by
      have : 2 ^ 52 ≤ d.significand := by
        rw [hs]
        exact Nat.le_add_right _ _
      exact_mod_cast this
    have hhigh : (d.significand : ℚ) < 2 ^ 53 := by
      have : d.significand < 2 ^ 53 := by
        have := Nat.mod_lt d.rank binade_pos
        have : binade + binade = 2 ^ 53 := by decide
        omega
      exact_mod_cast this
    have hpos : 0 < d.significand := hs ▸ Nat.add_pos_left binade_pos _
    refine floorLog2_of_bounds (ratio_fst_pos hpos) (ratio_pos d) ?_ ?_
    · rw [value_eq, zpow_add₀ (by norm_num)]
      gcongr
      exact_mod_cast hlow
    · rw [value_eq, show (52 : ℤ) + d.exponent + 1 = 53 + d.exponent by omega,
        zpow_add₀ (by norm_num)]
      gcongr
      exact_mod_cast hhigh
  have := exponent_ge d
  rw [scaleOf, hlog]
  omega

/-- **A double is the nearest one to its own value.** -/
theorem nearestRank_ratio (d : Double) : nearestRank d.ratio.1 d.ratio.2 = d.rank := by
  rcases Nat.eq_zero_or_pos d.rank with hz | hpos
  · have hs : d.significand = 0 := by simp [significand, hz, binade_pos]
    have hn : d.ratio.1 = 0 := by
      rw [ratio_eq, hs, Nat.zero_mul]
    simp [nearestRank, hn, hz]
  · by_cases h : d.rank < binade
    · have hs : d.significand = d.rank := if_pos h
      have hx : d.exponent = -1074 := by simp [exponent, Nat.div_eq_of_lt h]
      rw [nearestRank_ratio_of_scale (hs ▸ hpos) (scaleOf_subnormal hpos h), hs, hx]
      simp
    · have h : binade ≤ d.rank := by omega
      have hs : d.significand = binade + d.rank % binade := if_neg (by omega)
      -- The significand carries the leading bit, which stands for the first binade.
      rw [nearestRank_ratio_of_scale (hs ▸ Nat.add_pos_left binade_pos _) (scaleOf_normal h), hs]
      have hq : 1 ≤ d.rank / binade := (Nat.le_div_iff_mul_le binade_pos).2 (by omega)
      have hx : (d.exponent + 1074).toNat = d.rank / binade - 1 := by
        simp only [exponent]
        omega
      rw [hx, Nat.sub_mul, Nat.one_mul]
      have := Nat.div_add_mod' d.rank binade
      have : binade ≤ d.rank / binade * binade := Nat.le_mul_of_pos_left _ hq
      omega

theorem nearest?_ratio (d : Double) : nearest? d.negative d.ratio.1 d.ratio.2 = some d := by
  simp [nearest?, nearestRank_ratio, d.rank_lt]

end SearchDsl.Double
