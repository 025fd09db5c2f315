import Landform.Counting
import Landform.Evaluation.Rule
import Landform.Graph.Wiring

/-!
# Evaluation

The signal of a port at a point is pulled from the ports it depends on: an output asks the rule of
its node, a connected input asks its source, and an open input has the default of its kind. Two
guards keep evaluation finite and short on every graph. A port that is met again on the way has the
default of its kind, and so has a port behind more connections than the limit. Every nested call
puts a further port of the graph on the way, so that the nesting is bounded by the number of ports.
-/

namespace Landform

/-- The greatest number of connections to follow, or none. -/
abbrev DepthLimit := Option Int

/-- Whether a depth is beyond the limit. -/
def DepthLimit.isExceeded (limit : DepthLimit) (depth : Nat) : Bool :=
  match limit with
  | some greatest => greatest < depth
  | none => false

/-- The limit that a value sets. A number limits whether it is whole or not, and one that is no
number never does; other values set no limit at all and cannot be used as one. -/
def DepthLimit.ofValue : Value → Option DepthLimit
  | .int n => some (some n)
  | .bool b => some (some (Value.ofBool b))
  | .float x => match Decimal.form x with
    | .finite negative mantissa exponent =>
      some (some (Decimal.floorParts negative mantissa exponent))
    | .infinite negative => some (if negative then some (-1) else none)
    | .notANumber => some none
  | _ => none

namespace Wiring

/-- The number of ports that are not on the way. -/
def unvisited (w : Wiring) (visiting : List String) : Nat :=
  w.ports.countP fun entry => !visiting.contains entry.2.id

/-- Putting a port of the graph on the way leaves fewer ports off it. -/
theorem unvisited_cons_lt {w : Wiring} {visiting : List String} {id : String}
    {entry : Node × Port} (found : w.find? id = some entry) (fresh : visiting.contains id = false) :
    w.unvisited (id :: visiting) < w.unvisited visiting :=
  countP_unvisited_lt found fresh

/-- The signal of a port. `visiting` holds the ports on the way to it and `depth` counts the
connections followed. An unknown port carries zero. -/
def portSignal (w : Wiring) (limit : DepthLimit) (point : Point) (visiting : List String)
    (depth : Nat) (id : String) : Signal :=
  match _found : w.find? id with
  | none => .number 0
  | some (node, port) =>
    if limit.isExceeded depth then port.kind.default
    else if _fresh : visiting.contains id then port.kind.default
    else if port.isOutput then
      let surroundings : Surroundings :=
        { point := point
          input := fun role =>
            portSignal w limit point (id :: visiting) depth (portId node.id role)
          isConnected := w.isConnected node }
      (node.params.rule port.role surroundings).getD port.kind.default
    else
      match w.incoming? id with
      | none => port.kind.default
      | some c => portSignal w limit point (id :: visiting) (depth + 1) c.source
termination_by w.unvisited visiting
decreasing_by
  all_goals exact unvisited_cons_lt _found (by simpa using _fresh)

/-- The signal that the rule of a node gives for one of its ports. -/
def nodeSignal (w : Wiring) (limit : DepthLimit) (point : Point) (node : Node) (port : Port) :
    Signal :=
  let surroundings : Surroundings :=
    { point := point
      input := fun role => w.portSignal limit point [] 0 (portId node.id role)
      isConnected := w.isConnected node }
  (node.params.rule port.role surroundings).getD port.kind.default

end Wiring

/-- The depth limit unless another is given. -/
def defaultDepth : DepthLimit := some 100

namespace Graph

/-- The signal of a port of a graph. -/
def portSignal (g : Graph) (limit : DepthLimit) (id : String) (point : Point) : Signal :=
  g.wiring.portSignal limit point [] 0 id

/-- The input that delivers the terrain of a graph, if it is connected. -/
def terrainInput? (g : Graph) : Option String := do
  let output ← g.output?
  let port ← output.inputs.head?
  let _ ← g.wiring.incoming? port.id
  return port.id

end Graph

/-- What the terrain of a graph is read from: its tables and the input that delivers it. -/
structure Probe where
  wiring : Wiring
  input : Option String

/-- The probe of a graph; one probe serves any number of points. -/
def Graph.probe (g : Graph) : Probe :=
  ⟨g.wiring, g.terrainInput?⟩

/-- The terrain at a point. There is none without a connected terrain output, and none where the
output receives a number. -/
def Probe.terrain (p : Probe) (limit : DepthLimit) (point : Point) : Option Terrain :=
  match p.input with
  | none => none
  | some input =>
    match p.wiring.portSignal limit point [] 0 input with
    | .terrain t => some t
    | .number _ => none

/-- The terrain of a graph at a point. -/
def Graph.terrainAt (g : Graph) (limit : DepthLimit) (point : Point) : Option Terrain :=
  g.probe.terrain limit point

end Landform
