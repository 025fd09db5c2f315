import Landform.Counting
import Landform.Graph.Wiring
import Landform.Lua.Expr

/-!
# Emission

Each node kind has one rule that gives the expression of an output from the expressions of its
inputs; an open input is zero. A comparison has no expression form: it becomes a decision between
the decisions of its branches, and any other node a decision that assigns its expression. A port or
a node that is met again on the way is reported as a cycle, so that emission ends on every graph.
-/

namespace Landform.Script

open Lua

/-! ## Rules -/

/-- The expression of a coordinate. -/
def coordinate? : String → Option Axis
  | "outX" => some .x
  | "outY" => some .y
  | "outZ" => some .z
  | _ => none

/-- The difference of a coordinate and a point, squared. -/
def squaredDifference (e : Expr) (point : Float) : Expr :=
  .square (.group (.binary .subtract e (.number point)))

/-- A coordinate of the escape plane: scaled down and shifted. -/
def planeCoordinate (axis : Axis) (scale offset : Float) : Expr :=
  .binary .add (.group (.binary .divide (.coordinate axis) (.number scale))) (.number offset)

/-- The escape count of a view, spread over its range if wanted. -/
def viewExpr (m : Noise.Mandelbrot Float) : Expr :=
  let count := Expr.call .mandelbrot
    [planeCoordinate .x m.scale m.offsetX, planeCoordinate .z m.scale m.offsetZ, .integer m.steps]
  if m.remap then
    .call .remap [count, .integer 0, .integer m.steps, .number m.remapMin, .number m.remapMax]
  else count

/-- The expression of the output of a role. `content` is the local of the node's terrain, and
`input` gives the expressions of the inputs. -/
def rule (n : Node) (role : Option String) (content : Expr)
    (input : String → Except Error Expr) : Except Error Expr := do
  match n.params with
  | .add => return .group (.binary .add (← input "in1") (← input "in2"))
  | .subtract => return .group (.binary .subtract (← input "in1") (← input "in2"))
  | .multiply => return .group (.binary .multiply (← input "in1") (← input "in2"))
  | .abs => return .call .abs [← input "in"]
  | .lerp power =>
    let arguments := [← input "in1", ← input "in2", ← input "factor"]
    if power == 1.0 then return .call .lerp arguments
    else return .call .lerp (arguments ++ [.number power])
  | .coserp => return .call .coserp [← input "in1", ← input "in2", ← input "factor"]
  | .gaussian bell =>
    return .call .gaussian [← input "x", ← input "y", ← input "z", .number bell.centerX,
      .number bell.centerY, .number bell.centerZ, .number bell.spread]
  | .remap b =>
    return .call .remap [← input "in", .number b.inMin, .number b.inMax, .number b.outMin,
      .number b.outMax]
  | .distance p =>
    let x := squaredDifference (← input "x") p.x
    let y := squaredDifference (← input "y") p.y
    let z := squaredDifference (← input "z") p.z
    return .call .sqrt [.binary .add (.binary .add x y) z]
  | .noise2d _ | .noise3d _ => return .noise n.id
  | .mandelbrot view => return viewExpr view
  | .position =>
    match role.bind coordinate? with
    | some axis => return .coordinate axis
    | none => throw .missingPart
  | .terrainType _ => return content
  | .compare _ => return .integer 0
  | .terrainOutput => input "in"

/-! ## Expressions of ports -/

/-- The local variable that holds the content of a terrain node. -/
abbrev Contents := Node → String

/-- The number of ports that are not on the way. -/
def portsLeft (w : Wiring) (visiting : List String) : Nat :=
  w.ports.countP fun entry => !visiting.contains entry.2.id

/-- Putting a port on the way leaves fewer ports off it. -/
theorem portsLeft_cons_lt {w : Wiring} {visiting : List String} {id : String}
    {entry : Node × Port} (found : w.find? id = some entry) (fresh : visiting.contains id = false) :
    portsLeft w (id :: visiting) < portsLeft w visiting :=
  countP_unvisited_lt found fresh

/-- The expression of a port. `visiting` holds the ports on the way to it. -/
def portExpr (w : Wiring) (contents : Contents) (visiting : List String) (id : String) :
    Except Error Expr :=
  if _fresh : visiting.contains id then .error (.cycleThroughPort id)
  else match _found : w.find? id with
    | none => .error .missingPart
    | some (node, port) =>
      rule node (some port.role) (.name (contents node)) fun role =>
        match w.incoming? (portId node.id role) with
        | none => .ok (.integer 0)
        | some c => portExpr w contents (id :: visiting) c.source
termination_by portsLeft w visiting
decreasing_by exact portsLeft_cons_lt _found (by simpa using _fresh)

/-- The expression of an input of a node. -/
def inputExpr (w : Wiring) (contents : Contents) (n : Node) (role : String) :
    Except Error Expr :=
  match w.incoming? (portId n.id role) with
  | none => .ok (.integer 0)
  | some c => portExpr w contents [] c.source

/-- The expression that the rule of a node gives for one of its ports. -/
def nodeExpr (w : Wiring) (contents : Contents) (n : Node) (role : Option String) :
    Except Error Expr :=
  rule n role (.name (contents n)) (inputExpr w contents n)

/-! ## Decisions of nodes -/

/-- A node that owns a port. -/
def ownerOf? (w : Wiring) (id : Int) : Option (Node × Port) :=
  w.ports.find? fun entry => entry.1.id == id

/-- The number of ports of nodes that are not on the way. -/
def nodesLeft (w : Wiring) (visiting : List Int) : Nat :=
  w.ports.countP fun entry => !visiting.contains entry.1.id

/-- Putting a node on the way leaves fewer ports of nodes off it. -/
theorem nodesLeft_cons_lt {w : Wiring} {visiting : List Int} {id : Int} {entry : Node × Port}
    (found : ownerOf? w id = some entry) (fresh : visiting.contains id = false) :
    nodesLeft w (id :: visiting) < nodesLeft w visiting :=
  countP_unvisited_lt found fresh

/-- The decision of a node. `visiting` holds the nodes on the way to it. -/
def decision (w : Wiring) (contents : Contents) (visiting : List Int) (id : Int) :
    Except Error Decision :=
  if _fresh : visiting.contains id then .error (.cycleThroughNode id)
  else match _found : ownerOf? w id with
    | none => .error .missingPart
    | some (node, _) =>
      match node.params with
      | .compare test => do
        let left ← inputExpr w contents node "in1"
        let right ← inputExpr w contents node "in2"
        let branch (role : String) (fallback : Float) : Except Error Decision :=
          match (w.incoming? (portId id role)).bind fun c => w.owner? c.source with
          | none => .ok (.assign (.number fallback))
          | some source => decision w contents (id :: visiting) source.id
        let ifTrue ← branch "useTrue" test.useTrue
        let ifFalse ← branch "useFalse" test.useFalse
        return .choose id left test.operator right ifTrue ifFalse
      | _ => do
        let role := node.kind.outputs.head?.map (·.role)
        return .assign (← nodeExpr w contents node role)
termination_by nodesLeft w visiting
decreasing_by exact nodesLeft_cons_lt _found (by simpa using _fresh)

end Landform.Script
