import SearchDsl.Number.Layout

/-!
# Numerals

A number as clients write it: a whole number or a double. The two are different values even where
they are equal as numbers (`1` and `1.0`), and each is written so that reading it again gives the
same one.
-/

namespace SearchDsl

/-- A whole number or a double. -/
inductive Numeral
  | whole (i : Int)
  | double (d : Double)
  deriving DecidableEq, Repr

namespace Numeral

/-- The decimal digits of a whole number, after its sign. -/
def wholeChars (i : Int) : List Char :=
  if i < 0 then '-' :: Nat.toDigits 10 i.natAbs else Nat.toDigits 10 i.natAbs

/-- The numeral as it is written. -/
def chars : Numeral → List Char
  | .whole i => wholeChars i
  | .double d => Layout.json.chars d

/-- The numeral as it is written. -/
def text (n : Numeral) : String := String.ofList n.chars

/-- The numeral as a double, rounded to nearest. -/
def toDouble : Numeral → Double
  | .whole i => .ofInt i
  | .double d => d

/-- The range of signed 64-bit numbers. -/
def isSigned64 (i : Int) : Bool := -(Nat.pow 2 63 : Int) ≤ i && i < (Nat.pow 2 63 : Int)

/-- The range of unsigned 64-bit numbers. -/
def isUnsigned64 (i : Int) : Bool := 0 ≤ i && i < (Nat.pow 2 64 : Int)

/-- The numeral as a whole number, if it is one in the signed 64-bit range. -/
def toSigned64? : Numeral → Option Int
  | .whole i => if isSigned64 i then some i else none
  | .double _ => none

/-- The numeral as a whole number, if it is one in the unsigned 64-bit range. -/
def toUnsigned64? : Numeral → Option Nat
  | .whole i => if isUnsigned64 i then some i.toNat else none
  | .double _ => none

end Numeral
end SearchDsl
