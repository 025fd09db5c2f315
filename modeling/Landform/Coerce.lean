import Landform.Error
import Landform.Value
import Landform.Decimal.Read
import Landform.Text.Case

/-!
# Typed values from data

How loosely typed data becomes a double, an integer or a truth value. Texts are read as numbers,
truth values count as zero and one, a double becomes an integer by dropping its fraction, and an
integer becomes the nearest double. What has no reading fails with its cause.
-/

namespace Landform.Value

open Text Decimal

/-- The integer 1 for true and 0 for false. -/
def ofBool (b : Bool) : Int :=
  if b then 1 else 0

/-- A value as a double. -/
def toFloat : Value → Except Error Float
  | float x => .ok x
  | bool b => .ok (if b then 1 else 0)
  | int n => match ofInt? n with
    | some x => .ok x
    | none => .error .integerTooLarge
  | text s => match readFloat? s with
    | some x => .ok x
    | none => .error (.notADecimal s)
  | value => .error (.noDecimal value.typeName)

/-- A double as an integer, by `round` on its parts. -/
def integerOf (round : Bool → Nat → Int → Int) (x : Float) : Except Error Int :=
  match form x with
  | .finite negative mantissa exponent => .ok (round negative mantissa exponent)
  | .infinite _ => .error .integerOfInfinity
  | .notANumber => .error .integerOfNaN

/-- A value as an integer. -/
def toInt : Value → Except Error Int
  | int n => .ok n
  | bool b => .ok (ofBool b)
  | float x => integerOf truncateParts x
  | text s => match readInt? s with
    | some n => .ok n
    | none => .error (.notAnInteger s)
  | value => .error (.noInteger value.typeName)

/-- The greatest integer that is at most a number. -/
def toFloor : Value → Except Error Int
  | int n => .ok n
  | bool b => .ok (ofBool b)
  | float x => integerOf floorParts x
  | value => .error (.notReal value.typeName)

/-- The texts that mean true. -/
def trueTexts : List String := ["true", "1", "yes", "on"]

/-- The texts that mean false. -/
def falseTexts : List String := ["false", "0", "no", "off", ""]

/-- A value as a truth value. A text is read regardless of case and of blanks around it. -/
def toBool : Value → Except Error Bool
  | text s =>
    let word := lower (trim s)
    if trueTexts.contains word then .ok true
    else if falseTexts.contains word then .ok false
    else .error (.notABoolean s)
  | value => .ok value.isTrue

end Landform.Value
