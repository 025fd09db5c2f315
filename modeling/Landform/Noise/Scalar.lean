import Landform.Decimal.Binary64

/-!
# Arithmetic of the noise fields

The noise fields, the interpolations and the escape counts use only the four operations, the
greatest integer below a number and comparisons. `Scalar` names these, so that the same definitions
run on doubles and can be read over the rational numbers, where the arithmetic is exact.
-/

namespace Landform.Noise

/-- The arithmetic of the noise fields. -/
class Scalar (α : Type) extends Add α, Sub α, Mul α, Div α where
  /-- The number that stands for a small integer. -/
  ofInt : Int → α
  /-- The number nearest to a quotient of integers whose divisor is not zero. -/
  ofQuotient : Int → Int → α
  /-- The greatest integer that is at most a finite number. -/
  floor : α → Int
  isFinite : α → Bool
  /-- The value of a field where it has none. -/
  undefined : α
  abs : α → α
  /-- Whether the first number is strictly greater than the second. -/
  exceeds : α → α → Bool

instance : Scalar Float where
  ofInt := Float.ofInt
  ofQuotient num den := (Decimal.ofIntQuotient? num den).getD 0
  floor := Decimal.floor
  isFinite := Decimal.isFinite
  undefined := Decimal.notANumber
  abs := Float.abs
  exceeds x y := y < x

instance : Scalar Rat where
  ofInt n := n
  ofQuotient num den := (num : Rat) / den
  floor x := x.floor
  isFinite _ := true
  undefined := 0
  abs x := if x < 0 then -x else x
  exceeds x y := y < x

end Landform.Noise
