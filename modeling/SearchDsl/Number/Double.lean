/-!
# Finite double-precision numbers

The finite numbers of the 64-bit binary format, as exact values: a sign and a *rank*, the place of
the magnitude in the increasing sequence of all magnitudes of the format (rank 0 is zero, rank 1 the
least positive number, `2⁻¹⁰⁷⁴`). In this form

* two doubles of equal sign compare as their ranks do,
* the neighbours of a magnitude are the ranks beside it, and
* an even rank is an even significand, so that rounding to nearest with ties to even is a statement
  about ranks.

All arithmetic is exact arithmetic of natural numbers followed by one rounding (`Double.nearest?`).
-/

namespace SearchDsl

/-- The number of magnitudes in a binade, `2^52`. -/
def Double.binade : Nat := Nat.pow 2 52

/-- The number of finite magnitudes: 2047 binades, the lowest of which is subnormal. -/
def Double.rankCount : Nat := 2047 * Double.binade

/-- A finite double. Zero has both signs. -/
structure Double where
  negative : Bool
  rank : Nat
  rank_lt : rank < Double.rankCount
  deriving DecidableEq, Repr

namespace Double

/-- Positive zero. -/
def zero : Double := ⟨false, 0, by decide⟩

instance : Inhabited Double := ⟨zero⟩

/-- The magnitude is `significand * 2 ^ exponent`. -/
def significand (d : Double) : Nat :=
  if d.rank < binade then d.rank else binade + d.rank % binade

/-- The power of two that goes with the significand, `-1074` for the subnormal numbers. -/
def exponent (d : Double) : Int := (max (d.rank / binade) 1 : Nat) - 1075

/-- Numerator and denominator of the magnitude. -/
def ratio (d : Double) : Nat × Nat :=
  if 0 ≤ d.exponent then (d.significand * Nat.pow 2 d.exponent.toNat, 1)
  else (d.significand, Nat.pow 2 (-d.exponent).toNat)

/-- The place of the number on the line: both zeros are at the origin. -/
def place (d : Double) : Int := if d.negative then -(d.rank : Int) else d.rank

/-- Order by value. -/
def le (a b : Double) : Bool := a.place ≤ b.place

/-- Strict order by value. -/
def lt (a b : Double) : Bool := a.place < b.place

/-- The quotient rounded to the nearest whole number, a half to the even neighbour. -/
def roundHalfEven (num den : Nat) : Nat :=
  let q := num / den
  let twice := 2 * (num % den)
  if twice < den then q
  else if den < twice then q + 1
  else if q % 2 = 0 then q else q + 1

/-- The greatest `l` with `2 ^ l ≤ num / den`. -/
def floorLog2 (num den : Nat) : Int :=
  let l : Int := (Nat.log2 num : Int) - Nat.log2 den
  let reached := if 0 ≤ l then den * Nat.pow 2 l.toNat ≤ num else den ≤ num * Nat.pow 2 (-l).toNat
  if reached then l else l - 1

/-- The exponent `e` with `2^52 ≤ num / den / 2^e < 2^53`, or `-1074` if that is larger. -/
def scaleOf (num den : Nat) : Int := max (floorLog2 num den - 52) (-1074)

/-- The rank of the double nearest to `num / den`, of two the one of even rank. It may lie beyond
the finite ones. -/
def nearestRank (num den : Nat) : Nat :=
  if num = 0 then 0
  else
    let e := scaleOf num den
    let m := if 0 ≤ e then roundHalfEven num (den * Nat.pow 2 e.toNat)
      else roundHalfEven (num * Nat.pow 2 (-e).toNat) den
    m + (e + 1074).toNat * binade

/-- The double nearest to the fraction `± num / den`, if a finite one is. -/
def nearest? (negative : Bool) (num den : Nat) : Option Double :=
  let r := nearestRank num den
  if h : r < rankCount then some ⟨negative, r, h⟩ else none

/-- The double nearest to the whole number; beyond the finite ones the largest of them. -/
def ofInt (i : Int) : Double :=
  (nearest? (i < 0) i.natAbs 1).getD ⟨i < 0, rankCount - 1, by decide⟩

/-- A quarter turn and a half turn in degrees are whole numbers. -/
example : (ofInt 90).significand = 90 * Nat.pow 2 46 ∧ (ofInt 90).exponent = -46 := by decide

example : (ofInt 0).rank = 0 ∧ (ofInt (Nat.pow 2 53 + 1)) = ofInt (Nat.pow 2 53) := by decide

end Double
end SearchDsl
