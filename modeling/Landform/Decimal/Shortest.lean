import Landform.Decimal.Binary64

/-!
# The shortest decimal of a double

Every double is written with the fewest digits that read back as the same double, and among the
decimals of that length with the nearest. The reals that round to a double form an interval around
it, whose ends belong to it exactly when the mantissa is even. For 1, 2, … 17 digits the two
neighbours of the double on the decimal grid of that many digits are tested against the interval:
when a grid has a point in the interval, one of these two is such a point.
-/

namespace Landform.Decimal

-- Powers are those of the core library, whatever other instances are around.
attribute [local instance (5000)] instPowNat

/-- A decimal `digits * 10 ^ exponent`. -/
structure Scientific where
  digits : Nat
  exponent : Int
deriving Repr, DecidableEq

/-- A positive real and the interval of reals that round to it, as numerators over one
denominator. -/
structure Interval where
  low : Nat
  value : Nat
  high : Nat
  den : Nat
  closed : Bool

/-- The interval of a positive mantissa times a power of two. Below a power of two the doubles lie
twice as close. -/
def interval (mantissa : Nat) (exponent : Int) : Interval :=
  let (value, den) := scale (4 * mantissa) 4 exponent
  let unit := value / (4 * mantissa)
  let below := if mantissa == 2 ^ (52 : Nat) && -1074 < exponent then unit else 2 * unit
  { low := value - below, value := value, high := value + 2 * unit, den := den,
    closed := mantissa % 2 == 0 }

/-- Whether the real `num / den` lies in an interval. -/
def Interval.contains (i : Interval) (num den : Nat) : Bool :=
  let at' := num * i.den
  if i.closed then i.low * den ≤ at' && at' ≤ i.high * den
  else i.low * den < at' && at' < i.high * den

/-- The number of digits before the point of a quotient that is at least one; for a smaller
quotient zero or a negative number, `10 ^ (k - 1) ≤ num / den < 10 ^ k`. -/
def magnitudeOf (num den : Nat) : Int :=
  let guess : Int := ((num.log2 : Int) - den.log2) * 30103 / 100000
  let reaches (k : Int) : Bool :=
    if 0 ≤ k then den * 10 ^ k.toNat ≤ num else den ≤ num * 10 ^ (-k).toNat
  if reaches (guess + 1) then guess + 2 else if reaches guess then guess + 1
  else if reaches (guess - 1) then guess else guess - 1

/-- A quotient in units of `10 ^ exponent`, again as a quotient. -/
def inUnits (num den : Nat) (exponent : Int) : Nat × Nat :=
  if 0 ≤ exponent then (num, den * 10 ^ exponent.toNat) else (num * 10 ^ (-exponent).toNat, den)

/-- The decimal of `count` digits that reads back as the middle of the interval, if there is one;
of two such decimals the nearer, and on a tie the even one. -/
def Interval.decimal? (i : Interval) (exponent : Int) : Option Scientific :=
  let (num, den) := inUnits i.value i.den exponent
  let lower := num / den
  let hits (d : Nat) : Bool :=
    if 0 ≤ exponent then i.contains (d * 10 ^ exponent.toNat) 1
    else i.contains d (10 ^ (-exponent).toNat)
  let rest := num % den
  let upperNearer := den < 2 * rest || (den == 2 * rest && lower % 2 == 1)
  match hits lower, hits (lower + 1) with
  | true, true => some ⟨if upperNearer then lower + 1 else lower, exponent⟩
  | true, false => some ⟨lower, exponent⟩
  | false, true => some ⟨lower + 1, exponent⟩
  | false, false => none

/-- The shortest decimal of a positive mantissa times a power of two. Seventeen digits suffice for
every double. -/
def shortest (mantissa : Nat) (exponent : Int) : Scientific :=
  let i := interval mantissa exponent
  let magnitude := magnitudeOf i.value i.den
  match (List.range 17).findSome? fun (n : Nat) => i.decimal? (magnitude - n - 1) with
  | some decimal => decimal
  | none => ⟨i.value / i.den, 0⟩

end Landform.Decimal
