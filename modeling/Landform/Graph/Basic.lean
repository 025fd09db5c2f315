import Landform.Node
import Landform.Twister

/-!
# Terrain graphs

A graph holds nodes and connections from output ports to input ports, both in the order in which
they were added, the id of the next node, and a version that grows with every change. The random
numbers that seed fresh noise nodes belong to the graph as well, and so do three index tables that
answer questions about ports; a change of the structure ends by computing them anew.
-/

namespace Landform

/-- A connection from an output port to an input port, both given by id. -/
structure Connection where
  source : String
  target : String
deriving Repr, DecidableEq

/-- Accepts a connection whose ends are not blank. -/
def Connection.check (c : Connection) : Except Error Connection :=
  if Text.isBlankText c.source then .error (.blankEnd "from_port")
  else if Text.isBlankText c.target then .error (.blankEnd "to_port")
  else .ok c

/-- The index tables of a graph. -/
structure Tables where
  /-- Each port with the id of its owner. -/
  ports : List (Int × Port)
  /-- The connections, the last first; the first one into a port counts. -/
  latest : List Connection
  /-- The edges from a node to a node that follows it. -/
  downstream : List (Int × Int)

/-- A terrain graph. -/
structure Graph where
  nodes : List Node
  connections : List Connection
  nextId : Int
  version : Nat
  random : Twister
  tables : Tables

namespace Graph

/-- The graph without nodes whose random numbers start from a seed. -/
def empty (seed : Int) : Graph :=
  ⟨[], [], 1, 0, .ofSeed seed, ⟨[], [], []⟩⟩

/-- The node of an id. -/
def node? (g : Graph) (id : Int) : Option Node :=
  g.nodes.find? (·.id == id)

/-- The ids of the nodes, in the order of the nodes. -/
def ids (g : Graph) : List Int :=
  g.nodes.map (·.id)

/-- The nodes that deliver terrain. -/
def outputs (g : Graph) : List Node :=
  g.nodes.filter (·.isOutput)

/-- The node that delivers the terrain of the graph: the first of its kind. -/
def output? (g : Graph) : Option Node :=
  g.outputs.head?

/-- A graph as diagnostics show it. -/
def shown (g : Graph) : String :=
  let nodes := Decimal.integerText g.nodes.length
  let connections := Decimal.integerText g.connections.length
  s!"TerrainGraph(nodes={nodes}, connections={connections})"

end Graph

end Landform
