/-!
# Double-precision numbers as exact quotients

A finite double is an integer of at most 53 bits times a power of two. `form` takes a double apart,
`ofQuotient` rounds an exact quotient to the nearest double (a tie goes to the even mantissa), and
`floor` is exact for doubles of every size.
-/

namespace Landform.Decimal

-- Powers are those of the core library, whatever other instances are around.
attribute [local instance (5000)] instPowNat

/-- What a double is: a signed mantissa times a power of two, an infinity, or no number. -/
inductive Form where
  | finite (negative : Bool) (mantissa : Nat) (exponent : Int)
  | infinite (negative : Bool)
  | notANumber
deriving Repr, DecidableEq

/-- Takes a double apart. A mantissa below `2 ^ 52` belongs to the least exponent, `-1074`. -/
def form (x : Float) : Form :=
  let bits : Nat := x.toBits.toNat
  let negative := bits / 2 ^ (63 : Nat) == 1
  let exponent : Nat := bits / 2 ^ (52 : Nat) % 2048
  let fraction : Nat := bits % 2 ^ (52 : Nat)
  if exponent == 2047 then
    if fraction == 0 then .infinite negative else .notANumber
  else if exponent == 0 then .finite negative fraction (-1074)
  else .finite negative (fraction + 2 ^ (52 : Nat)) ((exponent : Int) - 1075)

/-- The double with the given sign and the bits of its absolute value. -/
def ofMagnitude (negative : Bool) (bits : Nat) : Float :=
  Float.ofBits (bits + if negative then 2 ^ (63 : Nat) else 0).toUInt64

/-- Positive infinity. -/
def infinity : Float :=
  ofMagnitude false (2047 * 2 ^ (52 : Nat))

/-- The value that is no number. -/
def notANumber : Float :=
  ofMagnitude false (2047 * 2 ^ (52 : Nat) + 2 ^ (51 : Nat))

/-! ## Rounding -/

/-- The integer nearest to a quotient; a tie goes to the even one. -/
def roundQuotient (num den : Nat) : Nat :=
  let whole := num / den
  let rest := num % den
  if 2 * rest < den then whole
  else if den < 2 * rest then whole + 1
  else whole + whole % 2

/-- A quotient of naturals times a power of two, again as a quotient. -/
def scale (num den : Nat) (exponent : Int) : Nat × Nat :=
  if 0 ≤ exponent then (num <<< exponent.toNat, den) else (num, den <<< (-exponent).toNat)

/-- The exponent of the double nearest to a positive quotient: the one that leaves 53 bits before
the point, but never below `-1074`. -/
def exponentFor (num den : Nat) : Int :=
  let guess : Int := (num.log2 : Int) - den.log2 - 53
  let (n, d) := scale num den (-guess)
  max (if n / d < 2 ^ (53 : Nat) then guess else guess + 1) (-1074)

/-- The bits of the double nearest to a quotient, or `none` when the quotient rounds beyond the
greatest double. -/
def magnitude? (num den : Nat) : Option Nat :=
  if num == 0 then some 0
  else
    let exponent := exponentFor num den
    let (n, d) := scale num den (-exponent)
    let mantissa := roundQuotient n d
    let bits :=
      if mantissa < 2 ^ (52 : Nat) then (mantissa : Int)
      else (exponent + 1075) * 2 ^ (52 : Nat) + (mantissa - 2 ^ (52 : Nat))
    if bits < 2047 * 2 ^ (52 : Nat) then some bits.toNat else none

/-- The double nearest to a signed quotient, or `none` when it is beyond the greatest double. -/
def ofQuotient? (negative : Bool) (num den : Nat) : Option Float :=
  (magnitude? num den).map (ofMagnitude negative)

/-- The double nearest to an integer, or `none` when it is beyond the greatest double. -/
def ofInt? (n : Int) : Option Float :=
  ofQuotient? (n < 0) n.natAbs 1

/-- The double nearest to a quotient of integers, or `none` when the divisor is zero or the
quotient is beyond the greatest double. -/
def ofIntQuotient? (num den : Int) : Option Float :=
  if den == 0 then none
  else ofQuotient? ((num < 0) != (den < 0)) num.natAbs den.natAbs

/-! ## Integers of doubles -/

/-- The greatest integer that is at most a mantissa times a power of two. -/
def floorParts (negative : Bool) (mantissa : Nat) (exponent : Int) : Int :=
  if 0 ≤ exponent then
    let n : Int := mantissa <<< exponent.toNat
    if negative then -n else n
  else
    let whole := mantissa >>> (-exponent).toNat
    if !negative then whole
    else if whole <<< (-exponent).toNat == mantissa then -(whole : Int)
    else -(whole : Int) - 1

/-- The integer of a mantissa times a power of two with its fraction dropped. -/
def truncateParts (negative : Bool) (mantissa : Nat) (exponent : Int) : Int :=
  let whole : Int := floorParts false mantissa exponent
  if negative then -whole else whole

/-- The greatest integer that is at most a finite double, and zero for the others. -/
def floor (x : Float) : Int :=
  match form x with
  | .finite negative mantissa exponent => floorParts negative mantissa exponent
  | _ => 0

/-- Whether a double is neither infinite nor without a number. -/
def isFinite (x : Float) : Bool :=
  match form x with
  | .finite .. => true
  | _ => false

/-- The value of a finite double when it is an integer. -/
def integer? (x : Float) : Option Int :=
  match form x with
  | .finite negative mantissa exponent =>
    if exponent < 0 && (mantissa >>> (-exponent).toNat) <<< (-exponent).toNat != mantissa then none
    else some (truncateParts negative mantissa exponent)
  | _ => none

end Landform.Decimal
