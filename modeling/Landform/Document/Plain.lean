import Landform.Decimal.Read
import Landform.Text.Runs
import Landform.Value

/-!
# Plain words

A word that stands in a document without quotes is read by its form: as null, as a truth value, as
an integer, as a double, or else as a text. Integers may be binary, octal, hexadecimal or written in
groups of base sixty, and single underscores may stand between digits. `plainValue` reads a word,
and `isAmbiguous` holds of the texts that need quotes so that no reader takes them for something
else.
-/

namespace Landform.Document

open Decimal Text

/-- The words for null. -/
def nullWords : List String := ["", "~", "null", "Null", "NULL"]

/-- The words for true. -/
def trueWords : List String :=
  ["yes", "Yes", "YES", "true", "True", "TRUE", "on", "On", "ON"]

/-- The words for false. -/
def falseWords : List String :=
  ["no", "No", "NO", "false", "False", "FALSE", "off", "Off", "OFF"]

/-! ## Integers -/

/-- The value of a digit in bases up to sixteen. -/
def digitOf (c : Char) : Nat :=
  if c.isDigit then c.toNat - 48
  else if 'a' ≤ c && c ≤ 'f' then c.toNat - 87
  else if 'A' ≤ c && c ≤ 'F' then c.toNat - 55
  else 16

/-- Whether a character may stand in a number of a base; underscores may. -/
def isDigitOf (base : Nat) (c : Char) : Bool :=
  c == '_' || digitOf c < base

/-- The value of digits of a base, leaving underscores out. -/
def valueIn (base : Nat) (digits : List Char) : Nat :=
  (digits.filter (· != '_')).foldl (fun value c => value * base + digitOf c) 0

/-- The number of digits of a base, if there are any and all characters belong to it. -/
def numberIn? (base : Nat) (digits : List Char) : Option Nat :=
  if digits.isEmpty || !digits.all (isDigitOf base) then none else some (valueIn base digits)

/-- Whether a part is a number below sixty of one or two digits. -/
def isSixtieth : List Char → Bool
  | [c] => c.isDigit
  | [c, d] => '0' ≤ c && c ≤ '5' && d.isDigit
  | _ => false

/-- An unsigned integer. -/
def magnitudeOf? : List Char → Option Nat
  | '0' :: 'b' :: digits => numberIn? 2 digits
  | '0' :: 'x' :: digits => numberIn? 16 digits
  | ['0'] => some 0
  | '0' :: digits => numberIn? 8 digits
  | digits => match partsAt ':' digits with
    | first :: groups =>
      if (first.headD '_').isDigit && groups.all isSixtieth then do
        let leading ← numberIn? 10 first
        return groups.foldl (fun value group => value * 60 + valueIn 10 group) leading
      else none
    | [] => none

/-- A signed integer. -/
def wholeWord? (word : List Char) : Option Int :=
  let (negative, body) := splitSign word
  (magnitudeOf? body).map fun n => if negative then -(n : Int) else n

/-! ## Doubles -/

/-- An exponent of decimals without underscores, or nothing. `anySign` tells whether the sign may be
missing. -/
def isExponent (anySign : Bool) : List Char → Bool
  | [] => true
  | e :: rest =>
    let digits := (splitSign rest).2
    (e == 'e' || e == 'E') && !digits.isEmpty && digits.all Char.isDigit &&
      (anySign || digits.length < rest.length)

/-- Whether an unsigned word is a decimal: digits with a point or with an exponent. -/
def isDecimal (word : List Char) : Bool :=
  let part := fun c => Char.isDigit c || c == '_'
  let rest := word.dropWhile part
  (word.headD '_').isDigit &&
    match rest with
    | '.' :: rest => isExponent true (rest.dropWhile part)
    | rest => !rest.isEmpty && isExponent true rest

/-- Whether a word is a decimal that starts with its point. -/
def isFraction : List Char → Bool
  | '.' :: rest =>
    let part := fun c => Char.isDigit c || c == '_'
    !(rest.takeWhile part).isEmpty && isExponent false (rest.dropWhile part)
  | _ => false

/-- A decimal in groups of base sixty, of which the last ends with a point and decimals. -/
def sixtieths? (negative : Bool) (word : List Char) : Option Float :=
  let whole := word.takeWhile (· != '.')
  let decimals := (word.dropWhile (· != '.')).drop 1
  match partsAt ':' whole with
  | first :: group :: groups =>
    if (word.contains '.') && (first.headD '_').isDigit && first.all (isDigitOf 10) &&
        (group :: groups).all isSixtieth && decimals.all (isDigitOf 10) then
      let last := (group :: groups).getLastD group
      let leading := first :: (group :: groups).dropLast
      let parts := (leading.map fun part => readDecimal? false (part.filter (· != '_'))) ++
        [readDecimal? false ((last ++ '.' :: decimals).filter (· != '_'))]
      let sum := parts.reverse.foldl (fun (state : Float × Float) part =>
        (state.1 + part.getD 0 * state.2, state.2 * 60)) (0, 1)
      some (if negative then -1 * sum.1 else sum.1)
    else none
  | _ => none

/-- A double. -/
def decimalWord? (word : List Char) : Option Float :=
  let (negative, body) := splitSign word
  let name := String.ofList body
  if isDecimal body || (isFraction body && body.length == word.length) then
    readDecimal? negative (body.filter (· != '_'))
  else if name == ".inf" || name == ".Inf" || name == ".INF" then
    some (if negative then -infinity else infinity)
  else if body.length == word.length && (name == ".nan" || name == ".NaN" || name == ".NAN") then
    some notANumber
  else sixtieths? negative body

/-! ## Words -/

/-- What a plain word stands for. -/
def plainValue (word : String) : Value :=
  if nullWords.contains word then .null
  else if trueWords.contains word then .bool true
  else if falseWords.contains word then .bool false
  else match wholeWord? word.toList with
    | some n => .int n
    | none => match decimalWord? word.toList with
      | some x => .float x
      | none => .text word

/-- Whether a text is a date: four, two and two digits between hyphens. -/
def isDate (text : List Char) : Bool :=
  match text with
  | [a, b, c, d, '-', e, f, '-', g, h] => [a, b, c, d, e, f, g, h].all Char.isDigit
  | _ => false

/-- The single letters that some readers take for truth values, and two signs with a meaning. -/
def reservedWords : List String := ["y", "Y", "n", "N", "=", "<<"]

/-- Whether a text without quotes might be read as something other than that text. -/
def isAmbiguous (text : String) : Bool :=
  (match plainValue text with
    | .text _ => false
    | _ => true) ||
    reservedWords.contains text || isDate text.toList || (readInt? text).isSome ||
    (readFloat? text).isSome

end Landform.Document
