/-!
# Decimal digits

Every script writes its ten decimal digits in one run of ten code points, from zero upwards, so a
table of the zeros decides the class and gives the value. `decimalValue?` reads a digit of any
script; `asciiDigit` maps each to the ASCII digit of the same value.
-/

namespace Landform.Text

/-- The code points of the digit zero in each script that has decimal digits. -/
def zeroDigits : List Nat := [
  48, 1632, 1776, 1984, 2406, 2534, 2662, 2790, 2918, 3046, 3174, 3302,
  3430, 3558, 3664, 3792, 3872, 4160, 4240, 6112, 6160, 6470, 6608, 6784,
  6800, 6992, 7088, 7232, 7248, 42528, 43216, 43264, 43472, 43504, 43600, 44016,
  65296, 66720, 68912, 69734, 69872, 69942, 70096, 70384, 70736, 70864, 71248, 71360,
  71472, 71904, 72016, 72784, 73040, 73120, 92768, 92864, 93008, 120782, 120792, 120802,
  120812, 120822, 123200, 123632, 125264, 130032]

/-- The value of a decimal digit of any script. -/
def decimalValue? (c : Char) : Option Nat :=
  if c.toNat < 128 then
    if c.isDigit then some (c.toNat - 48) else none
  else
    (zeroDigits.find? fun first => first ≤ c.toNat && c.toNat ≤ first + 9).map (c.toNat - ·)

/-- The ASCII digit of a value below ten. -/
def digitChar (value : Nat) : Char :=
  Char.ofNat (48 + value)

/-- A digit of any script becomes the ASCII digit of its value; other characters stay. -/
def asciiDigit (c : Char) : Char :=
  match decimalValue? c with
  | some value => digitChar value
  | none => c

end Landform.Text
