import Landform.Comparison
import Landform.Lua.Literal

/-!
# Lua expressions and decisions

The generated code consists of number expressions and of decisions that assign the content of a
place. An expression is rendered without parentheses of its own; where the grouping has to be
written it is a `group` node. A decision is a tree: a leaf assigns an expression, an inner node
compares two numbers and decides by one of two subtrees. Rendered, it is a list of indented lines.
-/

namespace Landform.Lua

open Decimal

/-- The arithmetic operators. -/
inductive Operator where
  | add
  | subtract
  | multiply
  | divide
deriving Repr, DecidableEq

/-- The sign of an operator. -/
def Operator.sign : Operator → String
  | add => "+"
  | subtract => "-"
  | multiply => "*"
  | divide => "/"

/-- The functions that generated code calls. -/
inductive Function where
  | abs
  | sqrt
  | lerp
  | coserp
  | remap
  | gaussian
  | mandelbrot
deriving Repr, DecidableEq

/-- The name under which a function is called. -/
def Function.name : Function → String
  | abs => "math.abs"
  | sqrt => "math.sqrt"
  | lerp => "luamap.lerp"
  | coserp => "luamap.coserp"
  | remap => "luamap.remap"
  | gaussian => "gaussian"
  | mandelbrot => "mandelbrot"

/-- The coordinates of the place that is decided. -/
inductive Axis where
  | x
  | y
  | z
deriving Repr, DecidableEq

/-- The variable of a coordinate. -/
def Axis.name : Axis → String
  | x => "x"
  | y => "y"
  | z => "z"

/-- Number expressions. -/
inductive Expr where
  /-- A literal that prints a number. -/
  | number (x : Float)
  /-- A literal that prints an integer. -/
  | integer (n : Int)
  /-- A coordinate of the place. -/
  | coordinate (axis : Axis)
  /-- The value of the noise field of a node. -/
  | noise (node : Int)
  /-- A local variable. -/
  | name (slot : String)
  | group (inner : Expr)
  | square (base : Expr)
  | binary (operator : Operator) (left right : Expr)
  | call (function : Function) (arguments : List Expr)
deriving Repr

/-- The name of the noise field of a node. -/
def noiseName (node : Int) : String :=
  "noise_" ++ integerText node

mutual

/-- An expression as text. -/
def Expr.render : Expr → String
  | .number x => Lua.number x
  | .integer n => integerText n
  | .coordinate axis => axis.name
  | .noise node => "noise_vals." ++ noiseName node
  | .name slot => slot
  | .group inner => "(" ++ inner.render ++ ")"
  | .square base => base.render ++ "^2"
  | .binary operator left right =>
    left.render ++ " " ++ operator.sign ++ " " ++ right.render
  | .call function arguments => function.name ++ "(" ++ renderAll arguments ++ ")"

/-- Expressions between commas. -/
def renderAll : List Expr → String
  | [] => ""
  | [e] => e.render
  | e :: rest => e.render ++ ", " ++ renderAll rest

end

/-! ## Decisions -/

/-- The sign of a comparison in Lua. -/
def comparisonSign : Comparison → String
  | .unequal => "~="
  | c => c.sign

/-- How the content of a place is decided. -/
inductive Decision where
  /-- Assigns an expression. -/
  | assign (content : Expr)
  /-- Compares two numbers for a comparison node. -/
  | choose (node : Int) (left : Expr) (test : Comparison) (right : Expr)
    (ifTrue ifFalse : Decision)
deriving Repr

/-- One step of indentation. -/
def step : String := "    "

/-- A decision as lines. -/
def Decision.lines (indent : String) : Decision → List String
  | assign content => [indent ++ "content = " ++ content.render]
  | choose node left test right ifTrue ifFalse =>
    [indent ++ "-- Comparison " ++ integerText node,
      indent ++ "if " ++ left.render ++ " " ++ comparisonSign test ++ " " ++ right.render ++
        " then"] ++
      ifTrue.lines (indent ++ step) ++ [indent ++ "else"] ++ ifFalse.lines (indent ++ step) ++
      [indent ++ "end"]

end Landform.Lua
