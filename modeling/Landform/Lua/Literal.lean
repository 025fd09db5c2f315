import Landform.Coerce

/-!
# Lua literals

How numbers, texts and names are written in Lua. A whole number below `10 ^ 15` loses its fraction;
the infinities and the value that is no number have no literal and become expressions. A text stands
between double quotes with the quote, the backslash and the line feed escaped. An identifier keeps
the lower-case ASCII letters, the digits and the underscore of a name.
-/

namespace Landform.Lua

open Decimal

-- Powers are those of the core library, whatever other instances are around.
attribute [local instance (5000)] instPowNat

/-- A number as a Lua expression. -/
def number (x : Float) : String :=
  match form x with
  | .notANumber => "(0/0)"
  | .infinite negative => if negative then "(-math.huge)" else "math.huge"
  | .finite .. =>
    match integer? x with
    | some n => if n.natAbs < 10 ^ (15 : Nat) then integerText n else written x
    | none => written x

/-- A piece of data as a Lua number; truth values count as one and zero. -/
def numberOf : Value → Except Error String
  | .bool b => .ok (if b then "1" else "0")
  | value => value.toFloat.map number

/-- One character of a Lua text. -/
def escapeChar (c : Char) : List Char :=
  if c == '\\' then ['\\', '\\']
  else if c == '"' then ['\\', '"']
  else if c == '\n' then ['\\', 'n']
  else [c]

/-- A text as a Lua literal. -/
def text (s : String) : String :=
  String.ofList ('"' :: s.toList.flatMap escapeChar ++ ['"'])

/-- Whether a character may stand in an identifier as it is. -/
def isIdentifierChar (c : Char) : Bool :=
  c.isLower || c.isDigit || c == '_'

/-- A name with every other character replaced by an underscore, after lower-casing it. -/
def identifier (name : String) : String :=
  String.ofList ((Text.lower name).toList.map fun c => if isIdentifierChar c then c else '_')

/-- The local variable that holds the content of a terrain name. -/
def contentLocal (name : String) : String :=
  "c_" ++ identifier name

end Landform.Lua
