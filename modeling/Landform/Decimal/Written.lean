import Landform.Decimal.Shortest

/-!
# Written numbers

`written` writes a double with the fewest digits that read back: positional with at least one
decimal when the decimal exponent is at least -4 and below 16, in scientific form otherwise.
`general` writes it with six significant digits at most and no closing zeros.
-/

namespace Landform.Decimal

/-- The decimal digits of a natural number. -/
def natDigits (n : Nat) : List Char :=
  Nat.toDigits 10 n

/-- An integer in decimal digits, with a leading minus sign if it is negative. -/
def integerText (n : Int) : String :=
  if n < 0 then String.ofList ('-' :: natDigits n.natAbs) else String.ofList (natDigits n.natAbs)

/-- Drops the zeros at the end of a list of digits, but keeps the first digit. -/
def dropZeros (digits : List Char) : List Char :=
  match (digits.reverse.dropWhile (· == '0')).reverse with
  | [] => digits.take 1
  | kept => kept

/-- The exponent part of a scientific form: a sign and at least two digits. -/
def exponentText (exponent : Int) : List Char :=
  let digits := natDigits exponent.natAbs
  'e' :: (if exponent < 0 then '-' else '+') ::
    (if digits.length < 2 then '0' :: digits else digits)

/-- Digits with the point after the first, and no point after a single digit. -/
def pointed : List Char → List Char
  | d :: e :: rest => d :: '.' :: e :: rest
  | digits => digits

/-- Digits with the point so that the first digit has the given decimal exponent. The whole part
and the decimals are returned apart; the whole part is never empty. -/
def positional (digits : List Char) (exponent : Int) : List Char × List Char :=
  if exponent < 0 then (['0'], List.replicate (-exponent - 1).toNat '0' ++ digits)
  else
    let width := exponent.toNat + 1
    (digits.take width ++ List.replicate (width - digits.length) '0', digits.drop width)

/-- A positive decimal, given by its digits without closing zeros and the exponent of the first. -/
def writtenDigits (digits : List Char) (exponent : Int) : List Char :=
  if -4 ≤ exponent && exponent < 16 then
    let (whole, decimals) := positional digits exponent
    whole ++ '.' :: (if decimals.isEmpty then ['0'] else decimals)
  else pointed digits ++ exponentText exponent

/-- The minus sign of a negative number. -/
def signed (negative : Bool) (text : List Char) : String :=
  String.ofList (if negative then '-' :: text else text)

/-- The fewest digits that read back, with the exponent of the first digit. -/
def shortestDigits (mantissa : Nat) (exponent : Int) : List Char × Int :=
  if mantissa == 0 then (['0'], 0)
  else
    let decimal := shortest mantissa exponent
    let digits := natDigits decimal.digits
    (dropZeros digits, decimal.exponent + digits.length - 1)

/-- A double in the fewest digits that read back. -/
def written (x : Float) : String :=
  match form x with
  | .notANumber => "nan"
  | .infinite negative => signed negative ['i', 'n', 'f']
  | .finite negative mantissa exponent =>
    let (digits, exponent) := shortestDigits mantissa exponent
    signed negative (writtenDigits digits exponent)

/-! ## Six significant digits -/

/-- The six digits of a positive quotient, rounded to nearest even, and the exponent of the
first. -/
def sixDigits (num den : Nat) : List Char × Int :=
  let magnitude := magnitudeOf num den
  let (n, d) := inUnits num den (magnitude - 6)
  let digits := natDigits (roundQuotient n d)
  (digits, magnitude - 6 + digits.length - 1)

/-- Six significant digits at most: positional when the exponent is at least -4 and below 6. -/
def generalDigits (digits : List Char) (exponent : Int) : List Char :=
  let digits := dropZeros digits
  if -4 ≤ exponent && exponent < 6 then
    let (whole, decimals) := positional digits exponent
    if decimals.isEmpty then whole else whole ++ '.' :: decimals
  else pointed digits ++ exponentText exponent

/-- A double with six significant digits at most. -/
def general (x : Float) : String :=
  match form x with
  | .notANumber => "nan"
  | .infinite negative => signed negative ['i', 'n', 'f']
  | .finite negative mantissa exponent =>
    if mantissa == 0 then signed negative ['0']
    else
      let (num, den) := scale mantissa 1 exponent
      let (digits, exponent) := sixDigits num den
      signed negative (generalDigits digits exponent)

end Landform.Decimal
