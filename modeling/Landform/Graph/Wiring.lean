import Landform.Graph.Basic

/-!
# Wiring

The tables that answer questions about the ports of a graph: the owner of each port, the connection
into each input, and the nodes that follow each node. `Tables.of` computes them from nodes and
connections; a graph keeps them, and its wiring is what they say together with the nodes. Where
several connections lead into one input, the last one counts.
-/

namespace Landform

namespace Tables

/-- The ports of nodes, each with the id of its owner. -/
def portsOf (nodes : List Node) : List (Int × Port) :=
  nodes.flatMap fun n => n.ports.map fun p => (n.id, p)

/-- The owner of a port. -/
def ownerIn (ports : List (Int × Port)) (id : String) : Option Int :=
  (ports.find? fun entry => entry.2.id == id).map (·.1)

/-- The owners of the two ends of a connection. -/
def edgeIn (ports : List (Int × Port)) (c : Connection) : Option (Int × Int) := do
  let source ← ownerIn ports c.source
  let target ← ownerIn ports c.target
  return (source, target)

/-- The tables of nodes and connections. The edges end before the first connection with a missing
end. -/
def of (nodes : List Node) (connections : List Connection) : Tables :=
  let ports := portsOf nodes
  { ports := ports
    latest := connections.reverse
    downstream :=
      (connections.takeWhile fun c => (edgeIn ports c).isSome).filterMap (edgeIn ports) }

end Tables

/-- The ports of a graph with their owners, and its connections, the last first. -/
structure Wiring where
  ports : List (Node × Port)
  latest : List Connection

namespace Wiring

/-- A port with its owner. -/
def find? (w : Wiring) (id : String) : Option (Node × Port) :=
  w.ports.find? fun entry => entry.2.id == id

/-- The port of an id. -/
def port? (w : Wiring) (id : String) : Option Port :=
  (w.find? id).map (·.2)

/-- The node that a port belongs to. -/
def owner? (w : Wiring) (id : String) : Option Node :=
  (w.find? id).map (·.1)

/-- The connection into a port. -/
def incoming? (w : Wiring) (id : String) : Option Connection :=
  w.latest.find? (·.target == id)

/-- Whether an input of a node has a connection. -/
def isConnected (w : Wiring) (n : Node) (role : String) : Bool :=
  (w.incoming? (portId n.id role)).isSome

/-- The ids of the nodes at the two ends of a connection. -/
def edge? (w : Wiring) (c : Connection) : Option (Int × Int) := do
  let source ← w.owner? c.source
  let target ← w.owner? c.target
  return (source.id, target.id)

end Wiring

namespace Graph

/-- What the tables of a graph say about its nodes. -/
def wiring (g : Graph) : Wiring :=
  ⟨g.tables.ports.filterMap fun entry => (g.node? entry.1).map fun n => (n, entry.2),
    g.tables.latest⟩

/-- The edges between nodes that the connections induce; a connection with a missing end has
none. -/
def edges (g : Graph) : List (Int × Int) :=
  g.connections.filterMap g.wiring.edge?

/-- The first missing end of a connection. -/
def dangling? (g : Graph) : Option String :=
  let w := g.wiring
  g.connections.findSome? fun c =>
    if (w.find? c.source).isNone then some c.source
    else if (w.find? c.target).isNone then some c.target
    else none

/-- The connections that touch a port of a node. -/
def touching (g : Graph) (id : Int) : List Connection :=
  match g.node? id with
  | none => []
  | some n =>
    let ids := n.ports.map (·.id)
    g.connections.filter fun c => ids.contains c.source || ids.contains c.target

/-- The nodes that feed the inputs of a node, in the order of the inputs. -/
def feeders (g : Graph) (id : Int) : Except Error (List Node) :=
  match g.node? id with
  | none => .ok []
  | some n =>
    let w := g.wiring
    (n.inputs.filterMap fun p => w.incoming? p.id).mapM fun c =>
      match w.owner? c.source with
      | some source => .ok source
      | none => .error (.missingKey c.source)

end Graph

end Landform
