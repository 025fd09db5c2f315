import Landform.Error

/-!
# Curves

The functions of the shaping nodes: interpolation with a power, interpolation along a cosine,
remapping of a range, the Gaussian bell and the distance to a point.
-/

namespace Landform.Curve

open Decimal

/-- The nearest number between zero and one. A value that is no number counts as one. -/
def clamp (t : Float) : Float :=
  let low := if t < 1.0 then t else 1.0
  if 0.0 < low then low else 0.0

/-- A power. A base without a real power, a zero base with a negative exponent included, gives no
number; a power beyond the greatest double gives positive infinity, whatever its sign. -/
def power (base exponent : Float) : Float :=
  if exponent == 1.0 then base
  else
    let p := Float.pow base exponent
    if isFinite base && isFinite exponent && p.isInf then
      if base == 0.0 then notANumber else infinity
    else p

/-- Interpolation between the powers of two numbers. -/
def lerp (a b t exponent : Float) : Float :=
  let t := clamp t
  (1.0 - t) * power a exponent + t * power b exponent

/-- The ratio of a circle's circumference to its diameter. -/
def pi : Float := 3.141592653589793

/-- Interpolation along half a period of the cosine. -/
def coserp (a b t : Float) : Float :=
  let t := clamp t
  let f := (1.0 - Float.cos (t * pi)) / 2.0
  a * (1.0 - f) + b * f

/-- The linear map that takes one range to another. An empty source range gives the lower end of
the target range. -/
def remap (v inMin inMax outMin outMax : Float) : Float :=
  if inMin == inMax then outMin
  else (v - inMin) / (inMax - inMin) * (outMax - outMin) + outMin

/-- The sum of the squares of three numbers. -/
def squares (dx dy dz : Float) : Float :=
  dx * dx + dy * dy + dz * dz

/-- The Gaussian bell around a centre. A spread whose square vanishes has none. -/
def gaussian (x y z cx cy cz spread : Float) : Except Error Float :=
  let width := 2.0 * spread * spread
  if width == 0.0 then .error .divisionByZero
  else .ok (Float.exp (-squares (x - cx) (y - cy) (z - cz) / width))

/-- The distance between two points. -/
def distance (x y z px py pz : Float) : Float :=
  Float.sqrt (squares (x - px) (y - py) (z - pz))

end Landform.Curve
