/-!
# Comparisons

The six comparison operators, with their sign in graph files and their meaning on numbers. A value
that is no number is unequal to everything and in no order.
-/

namespace Landform

/-- The comparison operators. -/
inductive Comparison where
  | less
  | lessEqual
  | greater
  | greaterEqual
  | equal
  | unequal
deriving Repr, DecidableEq

namespace Comparison

/-- The sign of an operator in graph files. -/
def sign : Comparison → String
  | less => "<"
  | lessEqual => "<="
  | greater => ">"
  | greaterEqual => ">="
  | equal => "=="
  | unequal => "!="

def ofSign? : String → Option Comparison
  | "<" => some less
  | "<=" => some lessEqual
  | ">" => some greater
  | ">=" => some greaterEqual
  | "==" => some equal
  | "!=" => some unequal
  | _ => none

/-- Whether two numbers stand in the relation. -/
def holds : Comparison → Float → Float → Bool
  | less, a, b => a < b
  | lessEqual, a, b => a ≤ b
  | greater, a, b => b < a
  | greaterEqual, a, b => b ≤ a
  | equal, a, b => a == b
  | unequal, a, b => a != b

theorem ofSign?_sign (c : Comparison) : ofSign? c.sign = some c := by
  cases c <;> rfl

end Comparison

end Landform
