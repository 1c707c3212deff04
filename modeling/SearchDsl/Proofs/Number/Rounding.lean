import SearchDsl.Proofs.Number.Order

/-!
# Rounding keeps the order

A fraction is rounded to a whole number of steps, where a step is the power of two that goes with
its binade (`Double.steps`). Rounding neither turns the order around nor moves a fraction by more
than half a step:

* `nearestRank_mono`: a larger fraction has no smaller nearest double;
* `abs_magnitude_sub_le`: the nearest double is at most half a step away;
* `le_ofInt_iff`: the doubles of whole numbers are in the order of the numbers, but for numbers that
  share one;
* `abs_sub_le_of_ofInt_eq`, `eq_of_ofInt_eq`: such numbers are close to each other, and there are
  none up to `2^53`.
-/

namespace SearchDsl.Double

variable {num num' den k : Nat} {e : ℤ}

/-! ### Rounding to a whole number -/

theorem roundHalfEven_bounds :
    num / den ≤ roundHalfEven num den ∧ roundHalfEven num den ≤ num / den + 1 := by
  unfold roundHalfEven
  dsimp only
  split_ifs <;> omega

theorem roundHalfEven_mono (h : num ≤ num') : roundHalfEven num den ≤ roundHalfEven num' den := by
  have hdiv : num / den ≤ num' / den := Nat.div_le_div_right h
  obtain hlt | heq := hdiv.lt_or_eq
  · calc roundHalfEven num den ≤ num / den + 1 := roundHalfEven_bounds.2
      _ ≤ num' / den := hlt
      _ ≤ roundHalfEven num' den := roundHalfEven_bounds.1
  · -- Between the same whole numbers, the remainders decide.
    have hmod : num % den ≤ num' % den := by
      have hn := Nat.div_add_mod num den
      have hn' := Nat.div_add_mod num' den
      rw [heq] at hn
      omega
    unfold roundHalfEven
    rw [heq]
    dsimp only
    split_ifs <;> omega

theorem le_roundHalfEven (hd : 0 < den) (h : k * den ≤ num) : k ≤ roundHalfEven num den :=
  (roundHalfEven_exact hd).symm.trans_le (roundHalfEven_mono h)

theorem roundHalfEven_le (hd : 0 < den) (h : num ≤ k * den) : roundHalfEven num den ≤ k :=
  (roundHalfEven_mono h).trans_eq (roundHalfEven_exact hd)

theorem roundHalfEven_near (hd : 0 < den) :
    2 * num ≤ 2 * (roundHalfEven num den * den) + den ∧
      2 * (roundHalfEven num den * den) ≤ 2 * num + den := by
  have hn := Nat.div_add_mod' num den
  have hnext : (num / den + 1) * den = num / den * den + den := Nat.succ_mul _ _
  have hmod := Nat.mod_lt num hd
  unfold roundHalfEven
  dsimp only
  split_ifs <;> omega

/-- The quotient is moved by at most one half. -/
theorem abs_roundHalfEven_sub_le (hd : 0 < den) :
    |(roundHalfEven num den : ℚ) - num / den| ≤ 1 / 2 := by
  obtain ⟨hlow, hhigh⟩ := @roundHalfEven_near num den hd
  have hd' : (0 : ℚ) < den := by exact_mod_cast hd
  have hlow' : (2 * num : ℚ) ≤ 2 * (roundHalfEven num den * den) + den := by exact_mod_cast hlow
  have hhigh' : (2 * (roundHalfEven num den * den) : ℚ) ≤ 2 * num + den := by exact_mod_cast hhigh
  rw [abs_sub_le_iff, sub_le_iff_le_add, sub_le_iff_le_add, div_le_iff₀ hd', ← sub_le_iff_le_add',
    le_div_iff₀ hd']
  constructor
  · linarith
  · linarith

/-! ### Steps -/

/-- The fraction in steps of `2 ^ e`, rounded to a whole number. -/
def steps (num den : Nat) (e : ℤ) : Nat :=
  roundHalfEven (num * 2 ^ (-e).toNat) (den * 2 ^ e.toNat)

theorem nearestRank_eq_steps (hn : 0 < num) :
    nearestRank num den =
      steps num den (scaleOf num den) + (scaleOf num den + 1074).toNat * binade := by
  simp only [nearestRank, if_neg hn.ne', steps, Nat.pow_eq, Nat.add_left_inj]
  split
  · rename_i he
    have : (-scaleOf num den).toNat = 0 := by omega
    rw [this, Nat.pow_zero, Nat.mul_one]
  · rename_i he
    have : (scaleOf num den).toNat = 0 := by omega
    rw [this, Nat.pow_zero, Nat.mul_one]

theorem zpow_eq_div (e : ℤ) : (2 : ℚ) ^ e = 2 ^ e.toNat / 2 ^ (-e).toNat := by
  rw [eq_div_iff (by positivity), ← zpow_natCast, ← zpow_natCast, ← zpow_add₀ (by norm_num)]
  congr 1
  omega

/-- Whole numbers of steps are compared with a fraction without division. -/
theorem mul_zpow_le_div_iff (hd : 0 < den) :
    (k : ℚ) * 2 ^ e ≤ (num : ℚ) / den ↔ k * (den * 2 ^ e.toNat) ≤ num * 2 ^ (-e).toNat := by
  have hd' : (0 : ℚ) < den := by exact_mod_cast hd
  rw [le_div_iff₀ hd', zpow_eq_div, ← mul_div_assoc, div_mul_eq_mul_div,
    div_le_iff₀ (by positivity), mul_assoc, mul_comm (2 ^ e.toNat : ℚ)]
  exact_mod_cast Iff.rfl

theorem div_le_mul_zpow_iff (hd : 0 < den) :
    (num : ℚ) / den ≤ (k : ℚ) * 2 ^ e ↔ num * 2 ^ (-e).toNat ≤ k * (den * 2 ^ e.toNat) := by
  have hd' : (0 : ℚ) < den := by exact_mod_cast hd
  rw [div_le_iff₀ hd', zpow_eq_div, ← mul_div_assoc, div_mul_eq_mul_div,
    le_div_iff₀ (by positivity), mul_assoc (k : ℚ), mul_comm (2 ^ e.toNat : ℚ)]
  exact_mod_cast Iff.rfl

theorem steps_mono (h : num ≤ num') : steps num den e ≤ steps num' den e :=
  roundHalfEven_mono (Nat.mul_le_mul_right _ h)

theorem neg_1074_le_scaleOf (num den : Nat) : -1074 ≤ scaleOf num den := le_max_right _ _

/-- A binade has no more steps than the next one starts with. -/
theorem steps_le (hn : 0 < num) (hd : 0 < den) :
    steps num den (scaleOf num den) ≤ 2 * binade := by
  have hq := div_pos_of_pos hn hd
  refine roundHalfEven_le (by positivity) ((div_le_mul_zpow_iff hd).1 ?_)
  have hlog : Int.log 2 ((num : ℚ) / den) + 1 ≤ 53 + scaleOf num den := by
    rw [← floorLog2_eq_log hn hd]
    simp only [scaleOf]
    omega
  have htwo : ((2 * binade : ℕ) : ℚ) = 2 ^ (53 : ℤ) := by norm_num [binade]
  have hlt : (num : ℚ) / den < 2 ^ (Int.log 2 ((num : ℚ) / den) + 1) := by
    exact_mod_cast Int.lt_zpow_succ_log_self (b := 2) (by norm_num) ((num : ℚ) / den)
  calc (num : ℚ) / den ≤ 2 ^ (Int.log 2 ((num : ℚ) / den) + 1) := hlt.le
    _ ≤ 2 ^ (53 + scaleOf num den) := zpow_le_zpow_right₀ (by norm_num) hlog
    _ = ((2 * binade : ℕ) : ℚ) * 2 ^ scaleOf num den := by rw [htwo, zpow_add₀ (by norm_num)]

/-- Above the least scale there are as many steps as a binade has. -/
theorem binade_le_steps (hn : 0 < num) (hd : 0 < den) (h : -1074 < scaleOf num den) :
    binade ≤ steps num den (scaleOf num den) := by
  have hq := div_pos_of_pos hn hd
  refine le_roundHalfEven (by positivity) ((mul_zpow_le_div_iff hd).1 ?_)
  have hlog : 52 + scaleOf num den = Int.log 2 ((num : ℚ) / den) := by
    rw [← floorLog2_eq_log hn hd]
    simp only [scaleOf] at h ⊢
    omega
  have hbinade : (binade : ℚ) = 2 ^ (52 : ℤ) := by norm_num [binade]
  rw [hbinade, ← zpow_add₀ (by norm_num), hlog]
  exact_mod_cast Int.zpow_log_le_self (by norm_num) hq

/-! ### The order of fractions -/

theorem scaleOf_mono (hn : 0 < num) (hd : 0 < den) (h : num ≤ num') :
    scaleOf num den ≤ scaleOf num' den := by
  have hq := div_pos_of_pos hn hd
  have hd' : (0 : ℚ) < den := by exact_mod_cast hd
  have hle : (num : ℚ) / den ≤ (num' : ℚ) / den := by
    gcongr
  have hlog := Int.log_mono_right (b := 2) hq hle
  rw [← floorLog2_eq_log hn hd, ← floorLog2_eq_log (hn.trans_le h) hd] at hlog
  simp only [scaleOf]
  omega

/-- **A larger fraction has no smaller nearest double.** -/
theorem nearestRank_mono (hd : 0 < den) (h : num ≤ num') :
    nearestRank num den ≤ nearestRank num' den := by
  rcases Nat.eq_zero_or_pos num with rfl | hn
  · simp [nearestRank]
  have hn' := hn.trans_le h
  rw [nearestRank_eq_steps hn, nearestRank_eq_steps hn']
  obtain hlt | heq := (scaleOf_mono hn hd h).lt_or_eq
  · -- The next scale starts where this one ends.
    have hlow := neg_1074_le_scaleOf num den
    have hhigh := binade_le_steps hn' hd (by omega)
    have hscale : (scaleOf num den + 1074).toNat + 1 ≤ (scaleOf num' den + 1074).toNat := by omega
    calc steps num den (scaleOf num den) + (scaleOf num den + 1074).toNat * binade
        ≤ 2 * binade + (scaleOf num den + 1074).toNat * binade :=
          Nat.add_le_add_right (steps_le hn hd) _
      _ = binade + ((scaleOf num den + 1074).toNat + 1) * binade := by ring
      _ ≤ steps num' den (scaleOf num' den) + (scaleOf num' den + 1074).toNat * binade :=
          Nat.add_le_add hhigh (Nat.mul_le_mul_right _ hscale)
  · rw [heq]
    exact Nat.add_le_add_right (steps_mono h) _

/-! ### The distance to the nearest double -/

/-- The magnitude of a number of steps. -/
theorem magnitude_steps {m q : Nat} (hlow : binade ≤ m ∨ q = 0) (hhigh : m ≤ 2 * binade) :
    magnitude (m + q * binade) = m * 2 ^ ((q : ℤ) - 1074) := by
  by_cases hsub : m < binade
  · obtain rfl : q = 0 := hlow.resolve_left (by omega)
    simpa using magnitude_low hsub
  obtain hlt | rfl := hhigh.lt_or_eq
  · have hrank : m + q * binade = (q + 1) * binade + (m - binade) := by
      rw [Nat.add_mul, Nat.one_mul]
      omega
    have hexp : ((q + 1 : ℕ) : ℤ) - 1075 = (q : ℤ) - 1074 := by omega
    rw [hrank, magnitude_high (by omega) (by omega), hexp, Nat.add_sub_cancel' (by omega)]
  · -- All steps of a binade are the first of the next one.
    have hrank : 2 * binade + q * binade = (q + 2) * binade + 0 := by ring
    have hexp : ((q + 2 : ℕ) : ℤ) - 1075 = (q : ℤ) - 1074 + 1 := by omega
    rw [hrank, magnitude_high (by omega) binade_pos, hexp, zpow_add_one₀ (by norm_num)]
    push_cast
    ring

theorem magnitude_nearestRank (hn : 0 < num) (hd : 0 < den) :
    magnitude (nearestRank num den) = steps num den (scaleOf num den) * 2 ^ scaleOf num den := by
  have hscale := neg_1074_le_scaleOf num den
  have hexp : (((scaleOf num den + 1074).toNat : ℕ) : ℤ) - 1074 = scaleOf num den := by omega
  rw [nearestRank_eq_steps hn, magnitude_steps ?_ (steps_le hn hd), hexp]
  by_cases h : -1074 < scaleOf num den
  · exact .inl (binade_le_steps hn hd h)
  · exact .inr (by omega)

/-- A whole number of steps is a double itself. -/
theorem magnitude_nearestRank_exact (hn : 0 < num) (hd : 0 < den)
    (h : (num : ℚ) / den = k * 2 ^ scaleOf num den) :
    magnitude (nearestRank num den) = num / den := by
  have hsteps : steps num den (scaleOf num den) = k := by
    refine le_antisymm ?_ ?_
    · exact roundHalfEven_le (by positivity) ((div_le_mul_zpow_iff hd).1 h.le)
    · exact le_roundHalfEven (by positivity) ((mul_zpow_le_div_iff hd).1 h.ge)
  rw [magnitude_nearestRank hn hd, hsteps, h]

theorem abs_steps_sub_le (hd : 0 < den) (e : ℤ) :
    |(steps num den e : ℚ) * 2 ^ e - num / den| ≤ 2 ^ e / 2 := by
  have hpos : (0 : ℚ) < 2 ^ e := by positivity
  -- The fraction in steps, before it is rounded.
  have hfraction : (num : ℚ) / den =
      ((num * 2 ^ (-e).toNat : ℕ) : ℚ) / ((den * 2 ^ e.toNat : ℕ) : ℚ) * 2 ^ e := by
    rw [zpow_eq_div]
    push_cast
    field_simp
  rw [hfraction, ← sub_mul, abs_mul, abs_of_pos hpos, show (2 : ℚ) ^ e / 2 = 1 / 2 * 2 ^ e by ring]
  exact mul_le_mul_of_nonneg_right (abs_roundHalfEven_sub_le (by positivity)) hpos.le

/-- **The nearest double is at most half a step away.** -/
theorem abs_magnitude_sub_le (hn : 0 < num) (hd : 0 < den) :
    |magnitude (nearestRank num den) - num / den| ≤ 2 ^ scaleOf num den / 2 := by
  rw [magnitude_nearestRank hn hd]
  exact abs_steps_sub_le hd _

/-! ### The doubles of whole numbers -/

theorem negative_ofInt (i : ℤ) : (ofInt i).negative = decide (i < 0) := by
  unfold ofInt nearest?
  dsimp only
  split <;> rfl

theorem rank_ofInt (i : ℤ) : (ofInt i).rank = min (nearestRank i.natAbs 1) (rankCount - 1) := by
  unfold ofInt nearest?
  dsimp only
  split
  · rename_i h
    rw [Option.getD_some, min_eq_left (by omega)]
  · rename_i h
    rw [Option.getD_none, min_eq_right (by omega)]

theorem place_ofInt (i : ℤ) :
    (ofInt i).place = if i < 0 then -((ofInt i).rank : ℤ) else (ofInt i).rank := by
  simp [place, negative_ofInt]

theorem rank_ofInt_mono {a b : ℤ} (h : a.natAbs ≤ b.natAbs) :
    (ofInt a).rank ≤ (ofInt b).rank := by
  rw [rank_ofInt, rank_ofInt]
  exact min_le_min_right _ (nearestRank_mono Nat.one_pos h)

theorem rank_ofInt_pos {i : ℤ} (h : i ≠ 0) : 0 < (ofInt i).rank := by
  have hone : 0 < (ofInt 1).rank := by decide
  exact hone.trans_le (rank_ofInt_mono (by omega))

/-- **The doubles of whole numbers are in the order of the numbers.** -/
theorem place_ofInt_mono {a b : ℤ} (h : a ≤ b) : (ofInt a).place ≤ (ofInt b).place := by
  rw [place_ofInt, place_ofInt]
  split
  · split
    · have := @rank_ofInt_mono b a (by omega)
      omega
    · omega
  · rw [if_neg (by omega)]
    have := @rank_ofInt_mono a b (by omega)
    omega

/-- Two whole numbers at one place on the line have the same double. -/
theorem ofInt_eq_of_place_eq {a b : ℤ} (h : (ofInt a).place = (ofInt b).place) :
    ofInt a = ofInt b := by
  rw [place_ofInt, place_ofInt] at h
  have ha : a < 0 → 0 < (ofInt a).rank := fun ha => rank_ofInt_pos ha.ne
  have hb : b < 0 → 0 < (ofInt b).rank := fun hb => rank_ofInt_pos hb.ne
  have hsign : decide (a < 0) = decide (b < 0) := by
    rw [decide_eq_decide]
    split_ifs at h <;> omega
  have hrank : (ofInt a).rank = (ofInt b).rank := by
    split_ifs at h <;> omega
  rw [← negative_ofInt, ← negative_ofInt] at hsign
  cases ha : ofInt a
  cases hb : ofInt b
  simp_all

/-- **Of two whole numbers the double of the first is not the greater one just if the first is not,
or if they share a double.** -/
theorem le_ofInt_iff {a b : ℤ} : (ofInt a).place ≤ (ofInt b).place ↔ a ≤ b ∨ ofInt a = ofInt b := by
  constructor
  · intro h
    obtain hle | hlt := le_or_gt a b
    · exact .inl hle
    · exact .inr (ofInt_eq_of_place_eq (le_antisymm h (place_ofInt_mono hlt.le)))
  · rintro (h | h)
    · exact place_ofInt_mono h
    · rw [h]

/-! ### Whole numbers of 64 bits -/

section Whole

variable {n l : Nat}

theorem scaleOf_le (hn : 0 < n) (h : n < 2 ^ (l + 53)) : scaleOf n 1 ≤ l := by
  have hlt : floorLog2 n 1 < ((l + 53 : ℕ) : ℤ) := by
    refine floorLog2_lt hn Nat.one_pos ?_
    rw [Nat.cast_one, div_one, zpow_natCast]
    exact_mod_cast h
  simp only [scaleOf]
  omega

/-- A whole number of at most 53 binary digits, with zeros behind them, is a double. -/
theorem magnitude_nearestRank_whole (hn : n < 2 ^ 53) :
    magnitude (nearestRank (n * 2 ^ l) 1) = (n * 2 ^ l : ℕ) := by
  rcases Nat.eq_zero_or_pos n with rfl | hpos
  · simp [nearestRank, magnitude_zero]
  have hscale : scaleOf (n * 2 ^ l) 1 ≤ l := by
    refine scaleOf_le (by positivity) ?_
    rw [Nat.add_comm, Nat.pow_add]
    exact Nat.mul_lt_mul_of_pos_right hn (by positivity)
  obtain ⟨j, hj⟩ := Int.eq_ofNat_of_zero_le (sub_nonneg.2 hscale)
  have hexact := @magnitude_nearestRank_exact (n * 2 ^ l) 1 (n * 2 ^ j) (by positivity)
    Nat.one_pos (by
      push_cast
      rw [div_one, mul_assoc, ← zpow_natCast, ← zpow_natCast, ← zpow_add₀ (by norm_num)]
      congr 2
      omega)
  rw [hexact, Nat.cast_one, div_one]

theorem abs_magnitude_sub_le_512 (h : n ≤ 2 ^ 63) :
    |magnitude (nearestRank n 1) - n| ≤ 512 := by
  rcases Nat.eq_zero_or_pos n with rfl | hn
  · norm_num [nearestRank, magnitude_zero]
  obtain hlt | rfl := h.lt_or_eq
  · have hnear := @abs_magnitude_sub_le n 1 hn Nat.one_pos
    have hscale : (2 : ℚ) ^ scaleOf n 1 ≤ 2 ^ (10 : ℤ) :=
      zpow_le_zpow_right₀ (by norm_num) (scaleOf_le hn hlt)
    rw [Nat.cast_one, div_one] at hnear
    calc |magnitude (nearestRank n 1) - n| ≤ 2 ^ scaleOf n 1 / 2 := hnear
      _ ≤ 2 ^ (10 : ℤ) / 2 := by gcongr
      _ = 512 := by norm_num
  · -- The last one is a power of two.
    have hexact := @magnitude_nearestRank_whole 1 63 (by norm_num)
    rw [Nat.one_mul] at hexact
    rw [hexact, sub_self]
    norm_num

end Whole

theorem sign_mul_natAbs (i : ℤ) : (if i < 0 then -1 else 1) * (i.natAbs : ℚ) = i := by
  rw [← Int.cast_natCast]
  split
  · rw [show (i.natAbs : ℤ) = -i by omega]
    push_cast
    ring
  · rw [show (i.natAbs : ℤ) = i by omega, one_mul]

variable {a b i : ℤ}

theorem value_ofInt_eq (h : i.natAbs ≤ 2 ^ 63) :
    (ofInt i).value = (if i < 0 then -1 else 1) * magnitude (nearestRank i.natAbs 1) := by
  have hmax : nearestRank (2 ^ 63) 1 ≤ rankCount - 1 := by decide
  have hrank : (ofInt i).rank = nearestRank i.natAbs 1 := by
    rw [rank_ofInt, min_eq_left ((nearestRank_mono Nat.one_pos h).trans hmax)]
  rw [value_eq_magnitude, negative_ofInt, hrank]
  simp

/-- **A whole number up to `2^53` is the value of its double.** -/
theorem value_ofInt (h : i.natAbs ≤ 2 ^ 53) : (ofInt i).value = i := by
  have hvalue : magnitude (nearestRank i.natAbs 1) = i.natAbs := by
    obtain hlt | heq := h.lt_or_eq
    · simpa using @magnitude_nearestRank_whole i.natAbs 0 hlt
    · rw [heq]
      simpa using @magnitude_nearestRank_whole 1 53 (by norm_num)
  rw [value_ofInt_eq (by omega), hvalue, sign_mul_natAbs]

/-- A whole number of 64 bits is moved by at most half of the widest steps there. -/
theorem abs_value_ofInt_sub_le (h : i.natAbs ≤ 2 ^ 63) : |(ofInt i).value - i| ≤ 512 := by
  have hsign : |(if i < 0 then -1 else 1 : ℚ)| = 1 := by split <;> norm_num
  rw [value_ofInt_eq h, ← sign_mul_natAbs i, ← mul_sub, abs_mul, hsign, one_mul]
  exact abs_magnitude_sub_le_512 h

/-- **Whole numbers of 64 bits that share a double are close to each other.** -/
theorem abs_sub_le_of_ofInt_eq (ha : a.natAbs ≤ 2 ^ 63) (hb : b.natAbs ≤ 2 ^ 63)
    (h : ofInt a = ofInt b) : |a - b| ≤ 1024 := by
  have hnear : |(a : ℚ) - b| ≤ 1024 := by
    calc |(a : ℚ) - b| = |((ofInt b).value - b) - ((ofInt a).value - a)| := by
          rw [h]
          congr 1
          ring
      _ ≤ |(ofInt b).value - b| + |(ofInt a).value - a| := abs_sub _ _
      _ ≤ 512 + 512 := add_le_add (abs_value_ofInt_sub_le hb) (abs_value_ofInt_sub_le ha)
      _ = 1024 := by norm_num
  exact_mod_cast hnear

/-- **Up to `2^53` no two whole numbers share a double.** -/
theorem eq_of_ofInt_eq (ha : a.natAbs ≤ 2 ^ 53) (hb : b.natAbs ≤ 2 ^ 53)
    (h : ofInt a = ofInt b) : a = b := by
  have hvalue : (a : ℚ) = b := by rw [← value_ofInt ha, h, value_ofInt hb]
  exact_mod_cast hvalue

end SearchDsl.Double
