import Landform.Params.Update

/-!
# Nodes

A node is one instance of a kind, placed in a graph. Its ports follow from its id and its kind; its
coordinates matter to an editor only. Fields of an update that its parameters do not have are kept
beside them.
-/

namespace Landform

/-- A node of a graph. -/
structure Node where
  id : Int
  params : Params
  x : Float
  y : Float
  extras : Fields

namespace Node

/-- The kind of a node. -/
def kind (n : Node) : Kind :=
  n.params.kind

/-- The input ports, in order. -/
def inputs (n : Node) : List Port :=
  n.kind.inputs.map (·.bind n.id)

/-- The output ports, in order. -/
def outputs (n : Node) : List Port :=
  n.kind.outputs.map (·.bind n.id)

/-- All ports, the inputs first. -/
def ports (n : Node) : List Port :=
  n.inputs ++ n.outputs

/-- The input port of a role. -/
def input? (n : Node) (role : String) : Option Port :=
  n.inputs.find? (·.role == role)

/-- The output port of a role. -/
def output? (n : Node) (role : String) : Option Port :=
  n.outputs.find? (·.role == role)

/-- Whether a node delivers the terrain of its graph. -/
def isOutput (n : Node) : Bool :=
  n.kind = .terrainOutput

/-- A fresh node with the default parameters of its kind. The coordinates are read from data. -/
def create (id : Int) (kind : Kind) (seed : Int) (x y : Value) : Except Error Node := do
  let x ← x.toFloat
  let y ← y.toFloat
  return ⟨id, kind.defaults seed, x, y, []⟩

/-- The node after an update of its parameters. -/
def update (n : Node) (updates : Fields) : Except Error Node := do
  let merged ← n.params.merge updates
  return { n with params := merged.params, extras := n.extras.putAll merged.extras }

/-- A node as diagnostics show it. -/
def shown (n : Node) : String :=
  s!"Node(id={Decimal.integerText n.id}, kind={Text.quoted n.kind.name})"

end Node

end Landform
