import Mathlib.Data.Int.ConditionallyCompleteOrder
import Mathlib.Tactic.Ring
import SearchDsl.Proofs.Number.Nearest

/-!
# Doubles compare as their values

The value of a double is a rational number. Magnitudes increase with the rank, inside a binade as
well as from one binade to the next, so that the order by places is the order by values:
`le_iff_value` and `lt_iff_value`.
-/

namespace SearchDsl.Double

/-- The number that a double is. -/
def value (d : Double) : ℚ :=
  (if d.negative then -1 else 1) * ((d.ratio.1 : ℚ) / d.ratio.2)

/-- The magnitude of a rank: below the first binade the multiples of the least positive number, then
in each binade as many equal steps, twice as wide as in the binade before. -/
def magnitude (rank : Nat) : ℚ :=
  if rank < binade then rank * 2 ^ (-1074 : ℤ)
  else ((binade + rank % binade : ℕ) : ℚ) * 2 ^ (((rank / binade : ℕ) : ℤ) - 1075)

theorem value_eq_magnitude (d : Double) :
    d.value = (if d.negative then -1 else 1) * magnitude d.rank := by
  rw [value, value_eq, significand, exponent, magnitude]
  congr 1
  by_cases h : d.rank < binade
  · simp [h, Nat.div_eq_of_lt h]
  · have hq : max (d.rank / binade) 1 = d.rank / binade :=
      max_eq_left ((Nat.le_div_iff_mul_le binade_pos).2 (by omega))
    rw [if_neg h, if_neg h, hq]

/-! ### Magnitudes increase -/

section Steps

variable {m q : Nat}

theorem magnitude_low (hm : m < binade) : magnitude m = m * 2 ^ (-1074 : ℤ) := if_pos hm

/-- The magnitudes of a binade. -/
theorem magnitude_high (hq : 1 ≤ q) (hm : m < binade) :
    magnitude (q * binade + m) = ((binade + m : ℕ) : ℚ) * 2 ^ ((q : ℤ) - 1075) := by
  have hle : binade ≤ q * binade := Nat.le_mul_of_pos_left _ hq
  rw [magnitude, if_neg (by omega), Nat.add_comm (q * binade), Nat.add_mul_mod_self_right,
    Nat.mod_eq_of_lt hm, Nat.add_mul_div_right _ _ binade_pos, Nat.div_eq_of_lt hm, Nat.zero_add]

theorem magnitude_low_lt (hm : m < binade) : magnitude m < magnitude (m + 1) := by
  have hstep : (0 : ℚ) < 2 ^ (-1074 : ℤ) := zpow_pos (by norm_num) _
  have hnext : magnitude (m + 1) = ((m + 1 : ℕ) : ℚ) * 2 ^ (-1074 : ℤ) := by
    obtain hlt | heq : m + 1 < binade ∨ m + 1 = binade := by omega
    · exact magnitude_low hlt
    · -- The first binade has the steps of the numbers below it.
      have hfirst := @magnitude_high 0 1 le_rfl binade_pos
      rw [Nat.one_mul, Nat.add_zero] at hfirst
      rw [heq, hfirst]
      norm_num
  rw [magnitude_low hm, hnext]
  exact mul_lt_mul_of_pos_right (by exact_mod_cast Nat.lt_succ_self m) hstep

theorem magnitude_high_lt (hq : 1 ≤ q) (hm : m < binade) :
    magnitude (q * binade + m) < magnitude (q * binade + m + 1) := by
  have hstep : (0 : ℚ) < 2 ^ ((q : ℤ) - 1075) := zpow_pos (by norm_num) _
  have hnext : magnitude (q * binade + m + 1) =
      ((binade + m + 1 : ℕ) : ℚ) * 2 ^ ((q : ℤ) - 1075) := by
    obtain hlt | heq : m + 1 < binade ∨ m + 1 = binade := by omega
    · have hsame := magnitude_high hq hlt
      rwa [← Nat.add_assoc, ← Nat.add_assoc] at hsame
    · -- The first number of the next binade has half as many steps of twice the width.
      have hrank : q * binade + m + 1 = (q + 1) * binade + 0 := by
        rw [Nat.add_mul, Nat.one_mul]
        omega
      have hexp : (((q + 1 : ℕ) : ℤ) - 1075) = ((q : ℤ) - 1075) + 1 := by
        push_cast
        ring
      rw [hrank, magnitude_high (by omega) binade_pos, hexp, zpow_add_one₀ (by norm_num),
        Nat.add_assoc, heq]
      push_cast
      ring
  rw [magnitude_high hq hm, hnext]
  exact mul_lt_mul_of_pos_right (by exact_mod_cast Nat.lt_succ_self _) hstep

end Steps

theorem magnitude_lt_succ (rank : Nat) : magnitude rank < magnitude (rank + 1) := by
  by_cases h : rank < binade
  · exact magnitude_low_lt h
  · have hq : 1 ≤ rank / binade := (Nat.le_div_iff_mul_le binade_pos).2 (by omega)
    have hstep := magnitude_high_lt hq (Nat.mod_lt rank binade_pos)
    rwa [Nat.div_add_mod'] at hstep

/-- **A larger rank is a larger number.** -/
theorem strictMono_magnitude : StrictMono magnitude := strictMono_nat_of_lt_succ magnitude_lt_succ

theorem magnitude_zero : magnitude 0 = 0 := by
  rw [magnitude_low binade_pos]
  norm_num

theorem magnitude_nonneg (rank : Nat) : 0 ≤ magnitude rank :=
  magnitude_zero ▸ strictMono_magnitude.monotone (Nat.zero_le rank)

theorem magnitude_pos_iff {rank : Nat} : 0 < magnitude rank ↔ 0 < rank := by
  rw [← magnitude_zero, strictMono_magnitude.lt_iff_lt]

/-! ### The order of values -/

/-- The magnitudes of both signs, over the places on the line. -/
def atPlace (place : ℤ) : ℚ := if place < 0 then -magnitude place.natAbs else magnitude place.natAbs

theorem value_eq_atPlace (d : Double) : d.value = atPlace d.place := by
  rw [value_eq_magnitude, atPlace, place]
  cases d.negative with
  | false => simp
  | true =>
    rcases Nat.eq_zero_or_pos d.rank with h | h
    · simp [h, magnitude_zero]
    · simp [h]

theorem strictMono_atPlace : StrictMono atPlace := by
  intro a b hab
  unfold atPlace
  split
  · rename_i ha
    split
    · exact neg_lt_neg (strictMono_magnitude (by omega))
    · have hpos : 0 < magnitude a.natAbs := magnitude_pos_iff.2 (by omega)
      exact (neg_neg_of_pos hpos).trans_le (magnitude_nonneg b.natAbs)
  · rw [if_neg (by omega)]
    exact strictMono_magnitude (by omega)

variable {a b : Double}

/-- **The order by places is the order by values.** -/
theorem le_iff_value : a.le b = true ↔ a.value ≤ b.value := by
  rw [value_eq_atPlace, value_eq_atPlace, strictMono_atPlace.le_iff_le, le, decide_eq_true_iff]

theorem lt_iff_value : a.lt b = true ↔ a.value < b.value := by
  rw [value_eq_atPlace, value_eq_atPlace, strictMono_atPlace.lt_iff_lt, lt, decide_eq_true_iff]

end SearchDsl.Double
