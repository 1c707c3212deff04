import SearchDsl.Number.Shortest

/-!
# Layouts of decimal numbers

Where a number's digits, point and exponent go. A `Layout` is the record of a format's decisions:

* the range of places of the first digit for which the number is written out in full,
* which of two equally short and equally near digit rows is taken, and
* whether a positive exponent carries a sign.

A number written out in full always has a point with a digit on both sides.
-/

namespace SearchDsl

/-- The decisions of a number format. -/
structure Layout where
  leastPlace : Int
  greatestPlace : Int
  tie : Tie
  signsExponent : Bool
  deriving DecidableEq, Repr

namespace Layout

/-- Numbers inside JSON: in full from `0.00001` up to sixteen digits before the point, otherwise
`1.5e+300`. -/
def json : Layout := ⟨-5, 15, .toEven, true⟩

/-- Coordinates of points: in full from `0.0001` up to sixteen digits before the point, otherwise
`1.5e300`. -/
def coordinate : Layout := ⟨-4, 15, .up, false⟩

/-- The digits written out in full. -/
def positional (x : DigitForm) : List Char :=
  let n := x.digits.length
  if x.digits.isEmpty then ['0', '.', '0']
  else if x.place < 0 then
    ['0', '.'] ++ List.replicate (-x.place - 1).toNat '0' ++ x.digits
  else
    let whole := x.place.toNat + 1
    let before := x.digits.take whole ++ List.replicate (whole - n) '0'
    let after := x.digits.drop whole
    before ++ ['.'] ++ (if after.isEmpty then ['0'] else after)

/-- One digit before the point, the others after it, and the exponent. -/
def scientific (l : Layout) (x : DigitForm) : List Char :=
  let mantissa := match x.digits with
    | [] => ['0']
    | [c] => [c]
    | c :: cs => c :: '.' :: cs
  let sign := if x.place < 0 then ['-'] else if l.signsExponent then ['+'] else []
  mantissa ++ ['e'] ++ sign ++ Nat.toDigits 10 x.place.natAbs

/-- The number in the layout's form. -/
def chars (l : Layout) (d : Double) : List Char :=
  let x := d.shortest l.tie
  let body :=
    if x.digits.isEmpty || (l.leastPlace ≤ x.place && x.place ≤ l.greatestPlace) then positional x
    else l.scientific x
  if d.negative then '-' :: body else body

/-- The number in the layout's form. -/
def text (l : Layout) (d : Double) : String := String.ofList (l.chars d)

end Layout
end SearchDsl
