import Landform.Noise.Scalar

/-!
# Escape counts

The orbit of zero under squaring a complex number and adding a constant either stays bounded or
leaves every circle. `escapeCount` is the index of the first iterate that leaves the circle whose
squared radius is twenty, or the given limit when none of the iterates up to the limit does.
-/

namespace Landform.Noise

variable {α : Type} [Scalar α]

/-- The index of the first of `count` further iterates that escapes, or `limit`. The iterate before
them is `a + b i`, and the first of them has the given index. -/
@[specialize] def escapeFrom (x z : α) (limit : Int) :
    (count : Nat) → (index : Int) → (a b : α) → Int
  | 0, _, _, _ => limit
  | count + 1, index, a, b =>
    let re := a * a - b * b + x
    let im := Scalar.ofInt 2 * a * b + z
    if Scalar.exceeds (re * re + im * im) (Scalar.ofInt 20) then index
    else escapeFrom x z limit count (index + 1) re im

/-- The index of the first escaping iterate for the constant `x + z i`, at most `limit`. A constant
that is not finite counts as one that never escapes. -/
@[specialize] def escapeCount (x z : α) (limit : Int) : Int :=
  if Scalar.isFinite x && Scalar.isFinite z then
    escapeFrom x z limit (limit + 1).toNat 0 (Scalar.ofInt 0) (Scalar.ofInt 0)
  else limit

/-- A view of the escape counts of the plane: a point is scaled down and shifted, and the count may
be spread over a range of values. -/
structure Mandelbrot (α : Type) where
  scale : α
  offsetX : α
  offsetZ : α
  steps : Nat
  remap : Bool
  remapMin : α
  remapMax : α

/-- The escape count at a point of the plane. -/
@[specialize] def Mandelbrot.count (m : Mandelbrot α) (x z : α) : Int :=
  escapeCount (x / m.scale + m.offsetX) (z / m.scale + m.offsetZ) m.steps

/-- A count between zero and the number of steps, spread over the range of the view. Without any
step the range is its lower end. -/
@[specialize] def Mandelbrot.spread (m : Mandelbrot α) (count : Int) : α :=
  if m.steps = 0 then m.remapMin
  else Scalar.ofQuotient count m.steps * (m.remapMax - m.remapMin) + m.remapMin

end Landform.Noise
