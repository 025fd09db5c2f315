import Landform.Value
import Landform.Text.Quoted

/-!
# JSON text

How data is written as JSON: compact on one line, or indented with two spaces and one item or field
a line. Characters beyond ASCII are escaped by their UTF-16 code units. Doubles are written with the
fewest digits that read back; the infinities and the value that is no number, which JSON lacks, are
written as words.
-/

namespace Landform.Json

open Decimal Text

/-! ## Texts and numbers -/

/-- The escape of one UTF-16 code unit. -/
def unitEscape (unit : Nat) : List Char :=
  '\\' :: 'u' :: hex 4 unit

/-- One character of a JSON text. -/
def escapeChar (c : Char) : List Char :=
  if c == '"' || c == '\\' then ['\\', c]
  else if c == '\n' then ['\\', 'n']
  else if c == '\r' then ['\\', 'r']
  else if c == '\t' then ['\\', 't']
  else if c.toNat == 8 then ['\\', 'b']
  else if c.toNat == 12 then ['\\', 'f']
  else if 32 ≤ c.toNat && c.toNat < 127 then [c]
  else if c.toNat < 65536 then unitEscape c.toNat
  else
    let rest := c.toNat - 65536
    unitEscape (55296 + rest / 1024) ++ unitEscape (56320 + rest % 1024)

/-- A text between double quotes. -/
def text (s : String) : String :=
  String.ofList ('"' :: s.toList.flatMap escapeChar ++ ['"'])

/-- A double. -/
def number (x : Float) : String :=
  match form x with
  | .notANumber => "NaN"
  | .infinite negative => if negative then "-Infinity" else "Infinity"
  | .finite .. => written x

/-! ## Layouts -/

mutual

/-- Data on one line. -/
def compact : Value → String
  | .null => "null"
  | .bool b => if b then "true" else "false"
  | .int n => integerText n
  | .float x => number x
  | .text s => text s
  | .list items => "[" ++ compactItems items ++ "]"
  | .object fields => "\x7b" ++ compactFields fields ++ "\x7d"

/-- The items of a list on one line. -/
def compactItems : List Value → String
  | [] => ""
  | [item] => compact item
  | item :: rest => compact item ++ ", " ++ compactItems rest

/-- The fields of an object on one line. -/
def compactFields : List (String × Value) → String
  | [] => ""
  | [(name, value)] => text name ++ ": " ++ compact value
  | (name, value) :: rest => text name ++ ": " ++ compact value ++ ", " ++ compactFields rest

end

/-- A new line with the indentation of a depth. -/
def newline (depth : Nat) : String :=
  String.ofList ('\n' :: List.replicate (2 * depth) ' ')

mutual

/-- Data with one item or field a line, at a depth of nesting. -/
def indented (depth : Nat) : Value → String
  | .list [] => "[]"
  | .list (item :: rest) =>
    "[" ++ newline (depth + 1) ++ indentedItems (depth + 1) (item :: rest) ++ newline depth ++ "]"
  | .object [] => "\x7b\x7d"
  | .object (field :: rest) =>
    "\x7b" ++ newline (depth + 1) ++ indentedFields (depth + 1) (field :: rest) ++ newline depth ++
      "\x7d"
  | .null => "null"
  | .bool b => if b then "true" else "false"
  | .int n => integerText n
  | .float x => number x
  | .text s => text s

/-- The items of a list, one a line. -/
def indentedItems (depth : Nat) : List Value → String
  | [] => ""
  | [item] => indented depth item
  | item :: rest => indented depth item ++ "," ++ newline depth ++ indentedItems depth rest

/-- The fields of an object, one a line. -/
def indentedFields (depth : Nat) : List (String × Value) → String
  | [] => ""
  | [(name, value)] => text name ++ ": " ++ indented depth value
  | (name, value) :: rest =>
    text name ++ ": " ++ indented depth value ++ "," ++ newline depth ++ indentedFields depth rest

end

end Landform.Json
