import Landform.Curve
import Landform.Node

/-!
# Evaluation rules

Each node kind has one rule that gives the signal of an output from the signals of the inputs at a
point. A rule asks for inputs by role. It fails on a terrain where it needs a number, and where its
arithmetic fails. A comparison asks for one branch only, the one that its test selects.
-/

namespace Landform

/-- What a rule sees of its node: the point, the signals of the inputs, and which inputs have a
connection. -/
structure Surroundings where
  point : Point
  input : String → Signal
  isConnected : String → Bool

namespace Surroundings

/-- The number on an input. -/
def number? (s : Surroundings) (role : String) : Option Float :=
  (s.input role).number?

end Surroundings

/-- Whether two signals stand in a relation. Terrains are equal or unequal, but in no order. -/
def Comparison.decide? (c : Comparison) : Signal → Signal → Option Bool
  | .number a, .number b => some (c.holds a b)
  | a, b =>
    let same := match a, b with
      | .terrain s, .terrain t => s == t
      | _, _ => false
    match c with
    | .equal => some same
    | .unequal => some !same
    | _ => none

/-- The coordinate that a role of a position delivers. -/
def Point.coordinate? (p : Point) : String → Option Float
  | "outX" => some p.x
  | "outY" => some p.y
  | "outZ" => some p.z
  | _ => none

/-- The value of a view of the escape counts. -/
def Noise.Mandelbrot.value? (m : Noise.Mandelbrot Float) (x z : Float) : Option Float :=
  let count := m.count x z
  if m.remap then some (m.spread count) else Decimal.ofInt? count

/-- The branch that a comparison takes: its role and the number that stands for it when it is
open. -/
def Test.branch (t : Test) (taken : Bool) : String × Float :=
  if taken then ("useTrue", t.useTrue) else ("useFalse", t.useFalse)

namespace Params

/-- The signal of the output of a role, or nothing when the rule fails. -/
def rule (p : Params) (role : String) (s : Surroundings) : Option Signal :=
  match p with
  | add => return .number ((← s.number? "in1") + (← s.number? "in2"))
  | subtract => return .number ((← s.number? "in1") - (← s.number? "in2"))
  | multiply => return .number ((← s.number? "in1") * (← s.number? "in2"))
  | abs => return .number (← s.number? "in").abs
  | lerp power =>
    return .number (Curve.lerp (← s.number? "in1") (← s.number? "in2") (← s.number? "factor") power)
  | coserp =>
    return .number (Curve.coserp (← s.number? "in1") (← s.number? "in2") (← s.number? "factor"))
  | gaussian bell => do
    let x ← s.number? "x"
    let y ← s.number? "y"
    let z ← s.number? "z"
    match Curve.gaussian x y z bell.centerX bell.centerY bell.centerZ bell.spread with
    | .ok value => return .number value
    | .error _ => none
  | remap b =>
    if b.inMin == b.inMax then some (.number b.outMin)
    else return .number (Curve.remap (← s.number? "in") b.inMin b.inMax b.outMin b.outMax)
  | distance p =>
    return .number
      (Curve.distance (← s.number? "x") (← s.number? "y") (← s.number? "z") p.x p.y p.z)
  | noise2d settings => some (.number (settings.fractal2 s.point.x s.point.z 0))
  | noise3d settings => some (.number (settings.fractal3 s.point.x s.point.y s.point.z 0))
  | mandelbrot view => return .number (← view.value? s.point.x s.point.z)
  | position => return .number (← s.point.coordinate? role)
  | terrainType t => some (.terrain t)
  | compare test => do
    let taken ← test.operator.decide? (s.input "in1") (s.input "in2")
    let (branch, fallback) := test.branch taken
    return if s.isConnected branch then s.input branch else .number fallback
  | terrainOutput => some (s.input "in")

end Params

/-- The signal of a port that has none of its own. -/
def PortKind.default : PortKind → Signal
  | float => .number 0
  | terrain => .terrain .openAir

end Landform
