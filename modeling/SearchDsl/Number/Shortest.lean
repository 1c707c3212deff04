import SearchDsl.Number.Decimal

/-!
# Shortest decimals

The fewest digits that read back. For one digit, two digits and so on up to seventeen the two points
of that decimal grid next to the number are tried; the first grid with a point that the reading of
decimals sends back to the number gives the digits. Of two such points the nearer one is taken, and
a `Tie` says what happens in the middle.

A number is then written `d.ddd × 10^k`: its digits, the first of which is not zero, and the place
`k` of the first digit.
-/

namespace SearchDsl

/-- Which of two equally near points is taken. -/
inductive Tie
  | toEven
  | up
  deriving DecidableEq, Repr

/-- Digits without zeros at either end, and the power of ten of the first digit. Zero has no digits.
-/
structure DigitForm where
  digits : List Char
  place : Int
  deriving DecidableEq, Repr

namespace DigitForm

/-- The digits of `n * 10 ^ e`, without the zeros at the end. -/
def ofNat (n : Nat) (e : Int) : DigitForm :=
  if n = 0 then ⟨[], 0⟩
  else
    let ds := Nat.toDigits 10 n
    ⟨(ds.reverse.dropWhile (· == '0')).reverse, e + ds.length - 1⟩

end DigitForm

namespace Double

/-- The power of ten of the first digit of a positive fraction. -/
def leadingPlace (num den : Nat) : Int :=
  let l : Int := Decimal.lengthOf num - Decimal.lengthOf den
  let reached := if 0 ≤ l then den * Nat.pow 10 l.toNat ≤ num else den ≤ num * Nat.pow 10 (-l).toNat
  if reached then l else l - 1

/-- The decimal reads back as the magnitude of the number. -/
def readsBack (d : Double) (n : Nat) (e : Int) : Bool :=
  (Decimal.nearest? ⟨false, n, e⟩).map (·.rank) == some d.rank

/-- The point of the grid `10 ^ e` that is nearest among those reading back, if one does. -/
def onGrid? (tie : Tie) (d : Double) (e : Int) : Option Nat :=
  let (num, den) := d.ratio
  let (num, den) :=
    if 0 ≤ e then (num, den * Nat.pow 10 e.toNat) else (num * Nat.pow 10 (-e).toNat, den)
  let low := num / den
  let twice := 2 * (num % den)
  let preferLow := twice < den || (twice == den && tie == .toEven && low % 2 == 0)
  match d.readsBack low e, d.readsBack (low + 1) e with
  | true, true => some (if preferLow then low else low + 1)
  | true, false => some low
  | false, true => some (low + 1)
  | false, false => none

/-- All digits of the magnitude of the number, and the power of ten of the last one. -/
def exactDigits (d : Double) : Nat × Int :=
  if 0 ≤ d.exponent then (d.ratio.1, 0)
  else (d.significand * Nat.pow 5 (-d.exponent).toNat, d.exponent)

/-- The first of some grids, from the given number of digits on, with a point that reads back. After
the last one all digits are taken. -/
def searchGrids (tie : Tie) (d : Double) (k : Int) : (digits remaining : Nat) → DigitForm
  | _, 0 => .ofNat d.exactDigits.1 d.exactDigits.2
  | n, r + 1 =>
    let e := k - n + 1
    match d.onGrid? tie e with
    | some p => .ofNat p e
    | none => searchGrids tie d k (n + 1) r

/-- The fewest digits that read back as the magnitude of the number. -/
def shortest (tie : Tie) (d : Double) : DigitForm :=
  if d.rank = 0 then ⟨[], 0⟩
  else d.searchGrids tie (leadingPlace d.ratio.1 d.ratio.2) 1 17

end Double
end SearchDsl
