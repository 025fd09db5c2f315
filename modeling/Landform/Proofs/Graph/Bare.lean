import Landform.Proofs.Graph.Upstream

/-!
# What checks do not read

Whether a connection is refused and what validation finds depends on the ids and the kinds of nodes
and on the connections. So a check of a graph can be made on the graph with the parameters, the
coordinates and the random numbers left out.

1. `Node.bare`, `bareOf`: a graph without these.
2. `Sound.refusal?_bare`: the same connections are refused.
3. `Sound.findings_bare`: validation finds the same.
-/

namespace Landform

/-! ## 1. Bare graphs -/

/-- A node with the default parameters of its kind. -/
def Node.bare (n : Node) : Node :=
  ⟨n.id, n.kind.defaults 0, 0, 0, []⟩

namespace Node

variable (n : Node)

@[simp]
theorem id_bare : n.bare.id = n.id := rfl

@[simp]
theorem kind_bare : n.bare.kind = n.kind :=
  Kind.kind_defaults 0 n.kind

@[simp]
theorem inputs_bare : n.bare.inputs = n.inputs := by
  rw [inputs, inputs, kind_bare, id_bare]

@[simp]
theorem ports_bare : n.bare.ports = n.ports := by
  rw [ports, ports, inputs_bare, outputs, outputs, kind_bare, id_bare]

@[simp]
theorem isOutput_bare : n.bare.isOutput = n.isOutput := by
  rw [isOutput, isOutput, kind_bare]

end Node

theorem samePorts_bare (nodes : List Node) : SamePorts nodes (nodes.map Node.bare) := by
  simp [SamePorts]

namespace Graph

/-- The graph of nodes and connections without what checks do not read. -/
def bareOf (nodes : List Node) (connections : List Connection) : Graph :=
  let bare := nodes.map Node.bare
  ⟨bare, connections, nodes.length + 1, 0, ⟨#[], 0⟩, .of bare connections⟩

/-- A graph without what checks do not read. -/
def bare (g : Graph) : Graph :=
  bareOf g.nodes g.connections

variable {g : Graph} (sound : g.Sound)

theorem ids_bare (g : Graph) : g.bare.ids = g.ids :=
  (samePorts_bare g.nodes).ids_eq.symm

include sound

theorem Sound.tables_bare : g.bare.tables = g.tables := by
  rw [sound.tables_eq, (samePorts_bare g.nodes).tables_eq]
  rfl

theorem Sound.wiring_bare :
    g.bare.wiring = ⟨g.wiring.ports.map fun entry => (entry.1.bare, entry.2), g.wiring.latest⟩ := by
  have distinct : g.bare.ids.Nodup := by
    rw [ids_bare]
    exact sound.ids_distinct
  have entries_bare : entries (g.nodes.map Node.bare) =
      (entries g.nodes).map fun entry => (entry.1.bare, entry.2) := by
    simp [entries, List.flatMap_map, List.map_flatMap, Function.comp_def]
  rw [Graph.wiring_eq distinct rfl, sound.wiring_eq]
  show Wiring.mk (entries (g.nodes.map Node.bare)) _ = _
  rw [entries_bare]
  rfl

theorem Sound.find?_bare (id : String) : g.bare.wiring.find? id =
    (g.wiring.find? id).map fun entry => (entry.1.bare, entry.2) := by
  rw [sound.wiring_bare, Wiring.find?, List.find?_map]
  rfl

theorem Sound.incoming?_bare : g.bare.wiring.incoming? = g.wiring.incoming? := by
  rw [sound.wiring_bare]
  rfl

/-! ## 2. Refused connections -/

theorem Sound.refusal?_bare (source target : String) :
    Edit.refusal? g.bare source target = Edit.refusal? g source target := by
  have reaches : g.bare.reaches = g.reaches := by
    funext a b
    rw [Graph.reaches, Graph.reaches, sound.tables_bare, ids_bare]
  simp only [Edit.refusal?, sound.find?_bare, reaches]
  cases g.wiring.find? source with
  | none => rfl
  | some first =>
    cases g.wiring.find? target with
    | none => rfl
    | some second => rfl

/-! ## 3. Validation -/

omit sound in
theorem outputs_bare : g.bare.outputs = g.outputs.map Node.bare := by
  show (g.nodes.map Node.bare).filter (·.isOutput) = _
  rw [List.filter_map]
  simp [Graph.outputs, Function.comp_def]

omit sound in
theorem output?_bare : g.bare.output? = g.output?.map Node.bare := by
  rw [output?, outputs_bare, List.head?_map, output?]

theorem Sound.isConnected_bare (n : Node) (role : String) :
    g.bare.wiring.isConnected n.bare role = g.wiring.isConnected n role := by
  rw [Wiring.isConnected, sound.incoming?_bare]
  rfl

theorem Sound.outputProblems_bare : g.bare.outputProblems = g.outputProblems := by
  rw [outputProblems, outputs_bare, outputProblems]
  cases g.outputs with
  | nil => rfl
  | cons output others => simp [sound.isConnected_bare]

theorem Sound.inputProblems_bare : g.bare.inputProblems = g.inputProblems := by
  have main (n : Node) : g.bare.isMainOutput n.bare = g.isMainOutput n := by
    rw [isMainOutput, output?_bare, isMainOutput, Option.map_map]
    rfl
  have openInputs (n : Node) :
      Graph.openInputs g.bare.wiring n.bare = Graph.openInputs g.wiring n := by
    simp [Graph.openInputs, sound.incoming?_bare]
  show ((g.nodes.map Node.bare).filter fun n => !g.bare.isMainOutput n).flatMap _ = _
  rw [List.filter_map, List.flatMap_map, inputProblems]
  simp [Function.comp_def, main, openInputs]

theorem Sound.edges_bare : g.bare.edges = g.edges := by
  have edge (c : Connection) : g.bare.wiring.edge? c = g.wiring.edge? c := by
    simp only [Wiring.edge?, Wiring.owner?, sound.find?_bare]
    cases g.wiring.find? c.source <;> cases g.wiring.find? c.target <;> rfl
  rw [edges, edges, funext edge]
  rfl

theorem Sound.hasCycle_bare : g.bare.hasCycle = g.hasCycle := by
  rw [hasCycle, sorting, sound.edges_bare, ids_bare, hasCycle, sorting]

theorem Sound.feeding_bare (id : Int) : g.bare.feeding id = g.feeding id := by
  have node (id : Int) : g.bare.node? id = (g.node? id).map Node.bare := by
    show (g.nodes.map Node.bare).find? (·.id == id) = _
    rw [List.find?_map]
    rfl
  have sources : g.bare.sources = g.sources := by
    funext id
    rw [Graph.sources, node, Graph.sources]
    cases g.node? id with
    | none => rfl
    | some n =>
      simp only [Option.map_some, Node.inputs_bare, sound.incoming?_bare, Wiring.owner?,
        sound.find?_bare]
      congr 1
      funext p
      cases g.wiring.incoming? p.id with
      | none => rfl
      | some c => cases found : g.wiring.find? c.source <;> simp [found]
  show Reach.closure true g.bare.sources g.bare.ids [id] = Reach.closure true g.sources g.ids [id]
  rw [sources, ids_bare]

theorem Sound.warnings_bare : g.bare.warnings = g.warnings := by
  rw [warnings, output?_bare, warnings]
  cases g.output? with
  | none => rfl
  | some output =>
    simp only [Option.map_some, Node.id_bare, sound.feeding_bare]
    show ((g.nodes.map Node.bare).filter _).map _ = _
    rw [List.filter_map, List.map_map]
    simp only [Function.comp_def, Node.id_bare, Node.kind_bare]

/-- Validation finds the same in a graph and in its bare form. -/
theorem Sound.findings_bare : g.bare.findings = g.findings := by
  rw [findings, problems, sound.outputProblems_bare, sound.inputProblems_bare, sound.hasCycle_bare,
    sound.warnings_bare]
  rfl

end Graph

end Landform
