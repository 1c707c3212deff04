import SearchDsl.Number.Double

/-!
# Reading decimals

A decimal is a whole number of digits times a power of ten. It has two readings as a double:

* `Decimal.nearest?`, the double nearest to it (expressions and boosts are read so);
* `Decimal.scaled?`, which rounds the digits first and then rounds again after each multiplication
  or division by a power of ten (numbers in JSON texts are read so; up to `2^53` with at most
  twenty-two places the two agree).
-/

namespace SearchDsl

/-- The number `± digits * 10 ^ exponent`. -/
structure Decimal where
  negative : Bool
  digits : Nat
  exponent : Int
  deriving DecidableEq, Repr

namespace Decimal

/-- The value of a digit character. -/
def digitValue (c : Char) : Nat := c.toNat - '0'.toNat

/-- The number written by a row of digits. -/
def ofDigits (cs : List Char) : Nat := cs.foldl (fun n c => 10 * n + digitValue c) 0

/-- How many decimal digits the number has; none for zero. -/
def lengthOf (n : Nat) : Nat := if n = 0 then 0 else (Nat.toDigits 10 n).length

/-- The nearest double, of two the one with the even significand; none if it is not finite. -/
def nearest? (x : Decimal) : Option Double :=
  let top : Int := lengthOf x.digits + x.exponent
  if x.digits = 0 || top < -330 then some { Double.zero with negative := x.negative }
  else if 310 < top then none
  else if 0 ≤ x.exponent then Double.nearest? x.negative (x.digits * Nat.pow 10 x.exponent.toNat) 1
  else Double.nearest? x.negative x.digits (Nat.pow 10 (-x.exponent).toNat)

/-- A positive double times a power of ten, rounded. -/
def shiftUp? (d : Double) (e : Nat) : Option Double := do
  let p ← Double.nearest? false (Nat.pow 10 e) 1
  Double.nearest? false (d.ratio.1 * p.ratio.1) (d.ratio.2 * p.ratio.2)

/-- A positive double divided by a power of ten, rounded. -/
def shiftDown (d : Double) (e : Nat) : Double :=
  ((Double.nearest? false (Nat.pow 10 e) 1).bind fun p =>
    Double.nearest? false (d.ratio.1 * p.ratio.2) (d.ratio.2 * p.ratio.1)).getD d

/-- Division by a power of ten in steps of at most `10^308`, each of them rounded. It stops as soon
as nothing is left. -/
def descend (d : Double) (e : Nat) : Double :=
  if e ≤ 308 then shiftDown d e
  else if d.rank = 0 then d
  else descend (shiftDown d 308) (e - 308)
termination_by e

/-- Digits first, then the power of ten, with a rounding after each step; none if a step leaves the
finite numbers. -/
def scaled? (x : Decimal) : Option Double := do
  let d ← Double.nearest? false x.digits 1
  let m ←
    if x.exponent < 0 then some (descend d x.exponent.natAbs)
    else if x.exponent.toNat ≤ 308 then shiftUp? d x.exponent.toNat
    else if x.digits = 0 then some d
    else none
  pure { m with negative := x.negative }

end Decimal
end SearchDsl
