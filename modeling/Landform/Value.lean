import Landform.Decimal.Written
import Landform.Table
import Landform.Text.Quoted

/-!
# Data values

Graph files, configurations and parameter updates hold loosely typed data: null, truth values,
integers of any size, doubles, texts, lists and objects whose fields keep their order.
`Value.shown` is how a value appears inside a message, `Value.asText` how it reads as a text of its
own.
-/

namespace Landform

open Text Decimal

/-- A piece of loosely typed data. -/
inductive Value where
  | null
  | bool (b : Bool)
  | int (n : Int)
  | float (x : Float)
  | text (s : String)
  | list (items : List Value)
  | object (fields : List (String × Value))
deriving Inhabited, Repr

/-- Named data in order. -/
abbrev Fields := Table Value

namespace Value

/-- The name of a value's type in messages. -/
def typeName : Value → String
  | null => "NoneType"
  | bool _ => "bool"
  | int _ => "int"
  | float _ => "float"
  | text _ => "str"
  | list _ => "list"
  | object _ => "dict"

/-- Whether a value counts as true: it is neither null, false, zero nor empty. -/
def isTrue : Value → Bool
  | null => false
  | bool b => b
  | int n => n != 0
  | float x => x != 0
  | text s => s != ""
  | list items => !items.isEmpty
  | object fields => !fields.isEmpty

mutual

/-- A value as it appears inside a message. -/
def shown : Value → String
  | null => "None"
  | bool b => if b then "True" else "False"
  | int n => integerText n
  | float x => written x
  | text s => quoted s
  | list items => "[" ++ shownItems items ++ "]"
  | object fields => "\x7b" ++ shownFields fields ++ "\x7d"

/-- The items of a list between commas. -/
def shownItems : List Value → String
  | [] => ""
  | [item] => shown item
  | item :: rest => shown item ++ ", " ++ shownItems rest

/-- The fields of an object between commas. -/
def shownFields : List (String × Value) → String
  | [] => ""
  | [(name, value)] => quoted name ++ ": " ++ shown value
  | (name, value) :: rest => quoted name ++ ": " ++ shown value ++ ", " ++ shownFields rest

end

/-- A value as a text of its own: a text as it is, every other value as it is shown. -/
def asText : Value → String
  | text s => s
  | value => shown value

/-- The field of an object. -/
def field? : Value → String → Option Value
  | object fields, name => Table.get? fields name
  | _, _ => none

end Value

end Landform
