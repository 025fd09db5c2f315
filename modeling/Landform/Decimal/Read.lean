import Landform.Decimal.Binary64
import Landform.Text.Blank
import Landform.Text.Digit

/-!
# Reading numbers

A numeral may stand between blanks (the information separators are none here), may have a sign, may
use the digits of any script and may have single underscores between digits. `readInt?` reads whole
numbers of any size; `readFloat?` reads decimals with an optional exponent and the names of the
infinities and of the value that is no number, and rounds to the nearest double.
-/

namespace Landform.Decimal

open Landform.Text

-- Powers are those of the core library, whatever other instances are around.
attribute [local instance (5000)] instPowNat

/-- Whether a character may stand around a numeral. -/
def isPadding (c : Char) : Bool :=
  isBlank c && !(28 ≤ c.toNat && c.toNat ≤ 31)

/-- A numeral without the blanks around it and with ASCII digits. -/
def numeral (text : String) : List Char :=
  (((text.toList.dropWhile isPadding).reverse.dropWhile isPadding).reverse).map asciiDigit

/-- Splits off a sign; `true` stands for minus. -/
def splitSign : List Char → Bool × List Char
  | '-' :: rest => (true, rest)
  | '+' :: rest => (false, rest)
  | text => (false, text)

/-- The value of a run of ASCII digits that continues `value`. -/
def digitsValue (value : Nat) : List Char → Nat
  | [] => value
  | c :: rest => digitsValue (value * 10 + (c.toNat - 48)) rest

/-- Drops the underscores between two digits, and fails on any other underscore. The first argument
tells whether the character before was a digit. -/
def dropUnderscores : Bool → List Char → Option (List Char)
  | _, [] => some []
  | afterDigit, '_' :: c :: rest =>
    if afterDigit && c.isDigit then (dropUnderscores true rest).map (c :: ·) else none
  | _, ['_'] => none
  | _, c :: rest => (dropUnderscores c.isDigit rest).map (c :: ·)

/-- Reads a whole number. -/
def readInt? (text : String) : Option Int := do
  let (negative, digits) := splitSign (numeral text)
  let digits ← dropUnderscores false digits
  if digits.isEmpty || !digits.all Char.isDigit then none
  else
    let value : Int := digitsValue 0 digits
    return if negative then -value else value

/-! ## Decimals -/

/-- The double nearest to `digits * 10 ^ exponent`; infinite beyond the greatest double. Beyond
`limit` digits before the point, or as many zeros after it, the outcome is settled without the
power. -/
def ofDecimal (negative : Bool) (digits : Nat) (exponent : Int) : Float :=
  let width : Int := (natWidth digits : Int) + exponent
  if digits == 0 || width < -400 then ofMagnitude negative 0
  else if 400 < width then (if negative then -infinity else infinity)
  else
    let found :=
      if 0 ≤ exponent then ofQuotient? negative (digits * 10 ^ exponent.toNat) 1
      else ofQuotient? negative digits (10 ^ (-exponent).toNat)
    found.getD (if negative then -infinity else infinity)
where
  natWidth (n : Nat) : Nat := (Nat.toDigits 10 n).length

/-- The exponent of a decimal, from what follows its digits: nothing, or the letter e with a whole
number. -/
def exponentOf? : List Char → Option Int
  | [] => some 0
  | e :: rest =>
    if e == 'e' || e == 'E' then
      let (negative, digits) := splitSign rest
      if digits.isEmpty || !digits.all Char.isDigit then none
      else
        let value : Int := digitsValue 0 digits
        some (if negative then -value else value)
    else none

/-- Reads an unsigned decimal: digits, or digits around a point, and an exponent. -/
def readDecimal? (negative : Bool) (text : List Char) : Option Float := do
  let whole := text.takeWhile Char.isDigit
  let rest := text.dropWhile Char.isDigit
  let (decimals, rest) := match rest with
    | '.' :: rest => (rest.takeWhile Char.isDigit, rest.dropWhile Char.isDigit)
    | rest => ([], rest)
  if whole.isEmpty && decimals.isEmpty then none
  else
    let exponent ← exponentOf? rest
    return ofDecimal negative (digitsValue 0 (whole ++ decimals)) (exponent - decimals.length)

/-- Reads a number as a double. -/
def readFloat? (text : String) : Option Float := do
  let (negative, body) := splitSign (numeral text)
  let name := String.ofList (body.map Char.toLower)
  if name == "inf" || name == "infinity" then
    return if negative then -infinity else infinity
  else if name == "nan" then return notANumber
  else readDecimal? negative (← dropUnderscores false body)

end Landform.Decimal
