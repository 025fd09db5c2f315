import Landform.Graph.Edit

/-!
# Graphs as data

The structure of a graph as plain data, and the graph of such data. Loading creates every node with
fresh defaults, reads its parameters over them, and adds the connections one by one; it fails on
the first node or connection that cannot be represented.
-/

namespace Landform

/-! ## Taking data apart -/

namespace Value

/-- The parts of a value that has parts to go through: the items of a list, the characters of a
text, the names of an object. -/
def parts : Value → Except Error (List Value)
  | list items => .ok items
  | text s => .ok (s.toList.map fun c => text (String.singleton c))
  | object fields => .ok (fields.map fun field => text field.1)
  | value => .error (.notIterable value.typeName)

/-- The entry of an object under a name. -/
def entry (value : Value) (name : String) : Except Error Value :=
  match value with
  | object fields => match Table.get? fields name with
    | some found => .ok found
    | none => .error (.missingKey name)
  | text _ => .error .textSubscript
  | list _ => .error .listSubscript
  | value => .error (.notSubscriptable value.typeName)

/-- The entry of an object under a name, or a default. -/
def entryOr (value : Value) (name : String) (default : Value) : Except Error Value :=
  match value with
  | object fields => .ok ((Table.get? fields name).getD default)
  | _ => .error .missingPart

/-- A value as a name to look up. -/
def asName : Value → Except Error String
  | text s => .ok s
  | list items => .error (.unhashable (list items).typeName)
  | object fields => .error (.unhashable (object fields).typeName)
  | value => .ok value.asText

/-- The fields of an object; anything empty has none. -/
def asFields (value : Value) (cause : Error) : Except Error Fields :=
  if !value.isTrue then .ok []
  else match value with
    | object fields => .ok fields
    | _ => .error cause

end Value

namespace Graph

/-! ## Saving -/

/-- A node as data. -/
def nodeValue (n : Node) : Value :=
  .object ([("id", .int n.id), ("kind", .text n.kind.name), ("x", .float n.x), ("y", .float n.y),
    ("params", .object n.params.fields)] ++
    if n.extras.isEmpty then [] else [("extra_params", .object n.extras)])

/-- A connection as data. -/
def connectionValue (c : Connection) : Value :=
  .object [("from", .text c.source), ("to", .text c.target)]

/-- The version of the form of graph data. -/
def schemaVersion : String := "1.0"

/-- A graph as data. -/
def toValue (g : Graph) : Value :=
  .object [("schema_version", .text schemaVersion), ("next_node_id", .int g.nextId),
    ("nodes", .list (g.nodes.map nodeValue)),
    ("connections", .list (g.connections.map connectionValue))]

/-! ## Loading -/

/-- The kind of a name given as data. -/
def kindOf : Value → Except Error Kind
  | .text name => Catalog.find name
  | value => do
    let _ ← value.asName
    throw (.notIterable value.typeName)

/-- Adds the node of an entry. -/
def loadNode (entry : Value) : Edit Unit := do
  let id ← Edit.lift ((← Edit.lift (entry.entry "id")).toInt)
  let g ← get
  if (g.node? id).isSome then throw (.duplicateNode id)
  let kind ← Edit.lift (kindOf (← Edit.lift (entry.entry "kind")))
  let x ← Edit.lift (entry.entryOr "x" (.float 0))
  let y ← Edit.lift (entry.entryOr "y" (.float 0))
  let seed ← Edit.drawSeed kind
  let fresh ← Edit.lift (Node.create id kind seed x y)
  let params ← Edit.lift ((← Edit.lift (entry.entryOr "params" .null)).asFields .missingPart)
  let node ← Edit.lift (fresh.update params)
  let given ← Edit.lift (entry.entryOr "extra_params" .null)
  let extras ← Edit.lift (given.asFields (.notIterable given.typeName))
  modify fun g => { g with
    nodes := g.nodes ++ [{ node with extras := node.extras.putAll extras }]
    nextId := max g.nextId (id + 1) }

/-- Adds the connection of an entry. -/
def loadConnection (entry : Value) : Edit Unit := do
  let source ← Edit.lift ((← Edit.lift (entry.entry "from")).asName)
  let target ← Edit.lift ((← Edit.lift (entry.entry "to")).asName)
  match ← Edit.connect source target with
  | .done _ => return
  | .refused why => throw (.invalidConnection source target why.message)

/-- Fills an empty graph from data. -/
def loadAll (config : Value) : Edit Unit := do
  let nodes ← Edit.lift ((← Edit.lift (config.entryOr "nodes" (.list []))).parts)
  nodes.forM loadNode
  let nextId ← Edit.lift ((← Edit.lift (config.entryOr "next_node_id" (.int 1))).toInt)
  modify fun g => { g with nextId := max g.nextId nextId }
  Edit.commit
  let connections ← Edit.lift ((← Edit.lift (config.entryOr "connections" (.list []))).parts)
  connections.forM loadConnection

/-- The graph of data. -/
def ofValue (config : Value) (seed : Int) : Except Error Graph :=
  let (g, answer) := (empty seed).run (loadAll config)
  answer.map fun _ => g

end Graph

end Landform
