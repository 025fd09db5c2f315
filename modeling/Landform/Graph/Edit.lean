import Landform.Catalog
import Landform.Graph.Reach

/-!
# Editing graphs

An edit takes a graph to a graph, and either answers or fails; what it changed before it failed
stays changed. An edit that does not apply answers with a refusal and changes nothing. Every edit
that changes the structure ends with `commit`, which computes the tables anew and raises the
version, and fails on a connection with a missing end.
-/

namespace Landform

/-- Why an edit does not apply. -/
inductive Refusal where
  | nodeNotFound (id : Int)
  | lastOutput
  | portNotFound (id : String)
  | selfConnection
  | wrongDirection
  | incompatibleKinds (source target : Port)
  | cycle
  | connectionNotFound (source target : String)
  | badParameters (id : Int) (cause : Error)

/-- What an edit did. -/
inductive Done where
  | removedNode (id : Int)
  | connected
  | replaced (source : String)
  | disconnected
  | updated

/-- The answer of an edit. -/
inductive Outcome where
  | done (what : Done)
  | refused (why : Refusal)

open Decimal

/-- The wording of a refusal. -/
def Refusal.message : Refusal → String
  | nodeNotFound id => s!"Node not found: {integerText id}"
  | lastOutput => "Cannot remove the terrain output node"
  | portNotFound id => s!"Port not found: {id}"
  | selfConnection => "Connection would create a cycle (node connected to itself)"
  | wrongDirection => "Connections must go from an output port to an input port"
  | incompatibleKinds source target =>
    s!"Incompatible port kinds: {source.kind.name} ({source.id}) -> {target.kind.name} ({target.id})"
  | cycle => "Connection would create a cycle"
  | connectionNotFound source target => s!"Connection not found: {source} -> {target}"
  | badParameters id cause => s!"Invalid parameters for node {integerText id}: {cause.message}"

/-- The wording of what an edit did. -/
def Done.message : Done → String
  | removedNode id => s!"Removed node {integerText id}"
  | connected => "Connected"
  | replaced source => s!"Replaced connection from {source}"
  | disconnected => "Disconnected"
  | updated => "Updated"

namespace Outcome

def isDone : Outcome → Bool
  | done _ => true
  | refused _ => false

def message : Outcome → String
  | done what => what.message
  | refused why => why.message

end Outcome

/-- An edit of a graph. -/
abbrev Edit := EStateM Error Graph

namespace Edit

/-- Takes over the answer of a computation that needs no graph. -/
def lift {α : Type} : Except Error α → Edit α
  | .ok a => pure a
  | .error e => throw e

/-- Ends a change of the structure. -/
def commit : Edit Unit := do
  modify fun g => { g with tables := .of g.nodes g.connections }
  let g ← get
  match g.dangling? with
  | some port => throw (.missingKey port)
  | none => set { g with version := g.version + 1 }

/-- Whether fresh nodes of a kind get a random seed. -/
def drawsSeed (k : Kind) : Bool :=
  k = .noise2d || k = .noise3d

/-- One more than the greatest random seed. -/
def seedRange : Nat := 100000

/-- The seed for a fresh node of a kind. -/
def drawSeed (k : Kind) : Edit Int := do
  if drawsSeed k then
    let g ← get
    let (seed, random) := g.random.below seedRange
    set { g with random }
    return seed
  else return 0

/-! ## The edits -/

/-- Adds a node of a kind and returns its id. -/
def add (kind : String) (x y : Value) : Edit Int := do
  let k ← lift (Catalog.find kind)
  let seed ← drawSeed k
  let g ← get
  let node ← lift (Node.create g.nextId k seed x y)
  set { g with nodes := g.nodes ++ [node], nextId := g.nextId + 1 }
  commit
  return node.id

/-- Removes a node and the connections that touch it. The only node that delivers terrain stays. -/
def remove (id : Int) : Edit Outcome := do
  let g ← get
  match g.node? id with
  | none => return .refused (.nodeNotFound id)
  | some node =>
    if node.isOutput && g.outputs.length == 1 then return .refused .lastOutput
    else
      let touching := g.touching id
      set ({ g with
        nodes := g.nodes.filter (·.id != id)
        connections := g.connections.filter fun c => !touching.contains c } : Graph)
      commit
      return .done (.removedNode id)

/-- Why two ports cannot be connected, if they cannot. -/
def refusal? (g : Graph) (source target : String) : Option Refusal :=
  let w := g.wiring
  match w.find? source, w.find? target with
  | none, _ => some (.portNotFound source)
  | _, none => some (.portNotFound target)
  | some (sourceNode, sourcePort), some (targetNode, targetPort) =>
    if sourceNode.id == targetNode.id then some .selfConnection
    else if !sourcePort.isOutput || !targetPort.isInput then some .wrongDirection
    else if !sourcePort.compatible targetPort then some (.incompatibleKinds sourcePort targetPort)
    else if g.reaches targetNode.id sourceNode.id then some .cycle
    else none

/-- Connects an output to an input. A connection into the input is replaced. -/
def connect (source target : String) : Edit Outcome := do
  let g ← get
  match refusal? g source target with
  | some why => return .refused why
  | none =>
    let replaced := g.wiring.incoming? target
    let kept := match replaced with
      | some old => g.connections.erase old
      | none => g.connections
    set ({ g with connections := kept ++ [⟨source, target⟩] } : Graph)
    commit
    return .done (match replaced with
      | some old => .replaced old.source
      | none => .connected)

/-- Removes a connection. -/
def disconnect (source target : String) : Edit Outcome := do
  let g ← get
  let c : Connection := ⟨source, target⟩
  if g.connections.contains c then
    set { g with connections := g.connections.erase c }
    commit
    return .done .disconnected
  else return .refused (.connectionNotFound source target)

/-- Appends a connection without looking at its ends, unless one of them is blank. -/
def attach (source target : String) : Edit Unit := do
  let c ← lift (Connection.check ⟨source, target⟩)
  modify fun g => { g with connections := g.connections ++ [c] }
  commit

/-- Whether a failed update of parameters is reported as a refusal. -/
def isReported (e : Error) : Bool :=
  e.family = .badValue || e.family = .badType

/-- Updates the parameters of a node. -/
def update (id : Int) (updates : Fields) : Edit Outcome := do
  let g ← get
  match g.node? id with
  | none => return .refused (.nodeNotFound id)
  | some node =>
    match node.update updates with
    | .ok updated =>
      set ({ g with
        nodes := g.nodes.map fun n => if n.id == id then updated else n
        version := g.version + 1 } : Graph)
      return .done .updated
    | .error cause =>
      if isReported cause then return .refused (.badParameters id cause) else throw cause

/-- Removes everything. Ids start again from one; the random numbers go on. -/
def clear : Edit Unit := do
  modify fun g => { g with nodes := [], connections := [], nextId := 1 }
  commit

end Edit

/-- The graph after an edit, and its answer. -/
def Graph.run {α : Type} (g : Graph) (edit : Edit α) : Graph × Except Error α :=
  match EStateM.run edit g with
  | .ok answer g => (g, .ok answer)
  | .error cause g => (g, .error cause)

end Landform
