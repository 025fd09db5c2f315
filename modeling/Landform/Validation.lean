import Landform.Graph.Sorting

/-!
# Validation

What keeps a graph from being compiled, and what is merely suspicious. A problem is a missing or
repeated terrain output, a required input without a connection, or a cycle; a warning is a node
that does not feed the first terrain output.
-/

namespace Landform

open Decimal

/-- What keeps a graph from being compiled. -/
inductive Problem where
  | noOutput
  | severalOutputs (count : Nat)
  | openOutput
  | openInput (node : Int) (kind : Kind) (input : String)
  | cycle
deriving Repr, DecidableEq

/-- The wording of a problem. -/
def Problem.message : Problem → String
  | noOutput => "Graph has no terrain output node"
  | severalOutputs count =>
    s!"Graph has {integerText count} terrain output nodes; expected exactly one"
  | openOutput => "Terrain output node has no input connection"
  | openInput node kind input =>
    s!"Node {integerText node} ({kind.name}) has unconnected input '{input}'"
  | cycle => "Graph contains a cycle"

/-- A node that does not feed the terrain output. -/
structure Warning where
  node : Int
  kind : Kind
deriving Repr, DecidableEq

/-- The wording of a warning. -/
def Warning.message (w : Warning) : String :=
  s!"Node {integerText w.node} ({w.kind.name}) is not connected to the terrain output"

/-- The outcome of validation. -/
structure Findings where
  problems : List Problem
  warnings : List Warning
deriving Repr, DecidableEq

namespace Findings

/-- Whether there is no problem. -/
def isValid (f : Findings) : Bool :=
  f.problems.isEmpty

def errorMessages (f : Findings) : List String :=
  f.problems.map (·.message)

def warningMessages (f : Findings) : List String :=
  f.warnings.map (·.message)

end Findings

namespace Graph

/-- The problems with the terrain outputs of a graph. -/
def outputProblems (g : Graph) : List Problem :=
  match g.outputs with
  | [] => [.noOutput]
  | output :: others =>
    (if others.isEmpty then [] else [.severalOutputs (others.length + 1)]) ++
      if g.wiring.isConnected output "in" then [] else [.openOutput]

/-- The required inputs of a node that have no connection. -/
def openInputs (w : Wiring) (n : Node) : List Problem :=
  (n.inputs.filter fun p => !p.optional && (w.incoming? p.id).isNone).map fun p =>
    .openInput n.id n.kind p.name

/-- Whether a node is the first terrain output. -/
def isMainOutput (g : Graph) (n : Node) : Bool :=
  (g.output?.map (·.id)) == some n.id

/-- The open inputs of all nodes but the first terrain output. -/
def inputProblems (g : Graph) : List Problem :=
  let w := g.wiring
  (g.nodes.filter fun n => !g.isMainOutput n).flatMap (openInputs w)

/-- The problems of a graph. -/
def problems (g : Graph) : List Problem :=
  g.outputProblems ++ g.inputProblems ++ if g.hasCycle then [.cycle] else []

/-- The nodes that do not feed the first terrain output, in the order of the nodes. -/
def warnings (g : Graph) : List Warning :=
  match g.output? with
  | none => []
  | some output =>
    let feeding := g.feeding output.id
    (g.nodes.filter fun n => !feeding.contains n.id).map fun n => ⟨n.id, n.kind⟩

/-- Everything that validation finds. -/
def findings (g : Graph) : Findings :=
  ⟨g.problems, g.warnings⟩

/-- The missing source of a connection that feeds the first terrain output, if there is one. -/
def missingSource? (g : Graph) : Option String := do
  let output ← g.output?
  (g.feeding output.id).findSome? fun id =>
    match g.feeders id with
    | .error (.missingKey port) => some port
    | _ => none

/-- Validates a graph; fails on a missing source on the way to the terrain output. -/
def validate (g : Graph) : Except Error Findings :=
  match g.missingSource? with
  | some port => .error (.missingKey port)
  | none => .ok g.findings

end Graph

end Landform
