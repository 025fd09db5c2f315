import Landform.Proofs.Graph.States
import Landform.Proofs.Table
import Mathlib.Data.List.Induction

/-!
# The table of ports

A graph is asked about its ports by their ids. So its ports form a table that is written port by
port, and a port that comes under an id in use takes the place of the port that was there. The id of
a port is a numeral, an underscore and a role. A numeral has no underscore in it, so the first
underscore of an id ends the number, whatever the number is and whatever the role looks like, and
the id tells both. Ports of different nodes or roles never take each other's place, and as no node
has two ports of one role, the table of a graph keeps every port.

1. `Tables.enter`, `Tables.byId`: the table by ids.
2. `Tables.get?_enter`, `Tables.get?_byId`: what one more port changes, and what a table holds.
3. `Graph.Sound.byId_eq`, `Graph.Sound.get?_byId`: the table of a graph.
4. `portIds_unambiguous`: ids of ports, tables of any ports, and the tables of graphs.
-/

namespace Landform

/-! ## 1. The table by ids -/

/-- The port of a declaration at a node, with the id of the node. -/
def PortSpec.entry (spec : PortSpec) (node : Int) : Int × Port :=
  (node, spec.bind node)

namespace Tables

/-- Enters a port under its id. A port that is there under this id gives way. -/
def enter (table : Table (Int × Port)) (entry : Int × Port) : Table (Int × Port) :=
  table.put entry.2.id entry

/-- The table of ports by their ids, written port by port. -/
def byId (ports : List (Int × Port)) : Table (Int × Port) :=
  ports.foldl enter []

/-! ## 2. What a table holds -/

/-- Entering a port changes what is found under the id of its own node and role, and nothing
else. -/
theorem get?_enter (table : Table (Int × Port)) (spec : PortSpec) (m n : Int) (role : String) :
    (enter table (spec.entry m)).get? (portId n role) =
      if m = n ∧ spec.role = role then some (spec.entry m) else table.get? (portId n role) := by
  split
  · next same =>
    obtain ⟨rfl, rfl⟩ := same
    exact Table.get?_put _ _ _
  · next other =>
    exact Table.get?_put_of_ne _ _ fun same => other (portId_injective same.symm)

/-- Under the id of a node and a role stands the last port that was declared with them. -/
theorem get?_byId (declared : List (Int × PortSpec)) (n : Int) (role : String) :
    (byId (declared.map fun d => d.2.entry d.1)).get? (portId n role) =
      (declared.reverse.find? fun d => d.1 = n ∧ d.2.role = role).map fun d => d.2.entry d.1 := by
  -- the port that is entered last counts, so the induction is on the ports before it
  induction declared using List.reverseRecOn with
  | nil => rfl
  | append_singleton earlier last ih =>
    have step : byId ((earlier ++ [last]).map fun d => d.2.entry d.1) =
        enter (byId (earlier.map fun d => d.2.entry d.1)) (last.2.entry last.1) := by
      rw [List.map_append, byId, List.foldl_append]
      rfl
    rw [step, get?_enter, ih, List.reverse_append, List.reverse_singleton, List.singleton_append,
      List.find?_cons]
    by_cases same : last.1 = n ∧ last.2.role = role
    · simp [same]
    · simp [same]

/-- Ports of different ids all stay, in their order. -/
theorem byId_eq_map {ports : List (Int × Port)} (distinct : (ports.map (·.2.id)).Nodup) :
    byId ports = ports.map fun entry => (entry.2.id, entry) := by
  have rows : byId ports = Table.putAll [] (ports.map fun entry => (entry.2.id, entry)) := by
    rw [Table.putAll, List.foldl_map]
    rfl
  have names : Table.names ([] ++ ports.map fun entry => (entry.2.id, entry)) =
      ports.map (·.2.id) := by
    rw [List.nil_append, Table.names, List.map_map]
    rfl
  rw [rows, Table.putAll_of_nodup (names ▸ distinct), List.nil_append]

end Tables

/-! ## 3. The table of a graph -/

namespace Graph.Sound

variable {g : Graph} (sound : g.Sound)

include sound

theorem byId_portsOf : Tables.byId g.tables.ports =
    (Tables.portsOf g.nodes).map fun entry => (entry.2.id, entry) := by
  have ports : g.tables.ports = Tables.portsOf g.nodes := congrArg Tables.ports sound.tables_eq
  have ids : (Tables.portsOf g.nodes).map (·.2.id) = (g.nodes.flatMap (·.ports)).map (·.id) := by
    simp only [Tables.portsOf, List.map_flatMap, List.map_map]
    rfl
  rw [ports, Tables.byId_eq_map (ids ▸ ports_nodup sound.ids_distinct)]

/-- A graph keeps every port of every node under its id. -/
theorem byId_eq : Tables.byId g.tables.ports =
    g.nodes.flatMap fun n => n.ports.map fun p => (p.id, n.id, p) := by
  rw [sound.byId_portsOf]
  simp only [Tables.portsOf, List.map_flatMap, List.map_map]
  rfl

/-- What is found under an id is what the graph answers about it. -/
theorem get?_byId (id : String) : (Tables.byId g.tables.ports).get? id =
    (g.wiring.find? id).map fun found => (found.1.id, found.2) := by
  rw [sound.byId_portsOf, Tables.portsOf_eq_map, List.map_map, sound.wiring_eq, Table.get?,
    List.find?_map, Option.map_map]
  rfl

end Graph.Sound

/-! ## 4. Unambiguous ids -/

/-- Ports of different nodes or of different roles have different ids, for all numbers and all texts
as roles. So in a table of any ports, at nodes of any ids and with any roles, there stands under
each id the last port that was declared with its node and its role, whatever other ports are
entered, and the table of a reachable graph has a row for each port of each node, which is what the
graph answers about the id of the port. -/
theorem portIds_unambiguous :
    (∀ (m n : Int) (r s : String), portId m r = portId n s ↔ m = n ∧ r = s) ∧
    (∀ (declared : List (Int × PortSpec)) (n : Int) (role : String),
      (Tables.byId (declared.map fun d => d.2.entry d.1)).get? (portId n role) =
        (declared.reverse.find? fun d => d.1 = n ∧ d.2.role = role).map
          fun d => d.2.entry d.1) ∧
    ∀ g : Graph, g.Reachable →
      (Tables.byId g.tables.ports =
        g.nodes.flatMap fun n => n.ports.map fun p => (p.id, n.id, p)) ∧
      ∀ id, (Tables.byId g.tables.ports).get? id =
        (g.wiring.find? id).map fun found => (found.1.id, found.2) := by
  refine ⟨fun m n r s => ⟨portId_injective, ?_⟩, Tables.get?_byId, fun g reachable => ?_⟩
  · rintro ⟨rfl, rfl⟩
    rfl
  · exact ⟨reachable.sound.byId_eq, reachable.sound.get?_byId⟩

/-- Ports of the ids 1_1_in, 11_in, -1_1_in and 1_in. -/
def crossed : List (Int × PortSpec) :=
  [(1, .input "1_in" "A" .float false), (11, .input "in" "B" .float false),
    (-1, .input "1_in" "C" .float false), (1, .input "in" "D" .terrain true)]

/-- The crossed ports all stay, and so do those of a connected pair of nodes. -/
theorem crossed_portIds_unambiguous :
    (Tables.byId (crossed.map fun d => d.2.entry d.1)).get? (portId 1 "1_in") =
      some (PortSpec.entry (.input "1_in" "A" .float false) 1) ∧
    (Tables.byId (crossed.map fun d => d.2.entry d.1)).get? (portId 11 "in") =
      some (PortSpec.entry (.input "in" "B" .float false) 11) ∧
    (Tables.byId (crossed.map fun d => d.2.entry d.1)).get? (portId (-1) "1_in") =
      some (PortSpec.entry (.input "1_in" "C" .float false) (-1)) ∧
    (Tables.byId (crossed.map fun d => d.2.entry d.1)).get? (portId 1 "in") =
      some (PortSpec.entry (.input "in" "D" .terrain true) 1) ∧
    Graph.connectedPair.Reachable ∧
    (Tables.byId Graph.connectedPair.tables.ports).names =
      ["1_outX", "1_outY", "1_outZ", "2_in", "2_out"] := by
  obtain ⟨_, declared, graphs⟩ := portIds_unambiguous
  have pair := Graph.connectedPair_built.reachable
  refine ⟨(declared crossed 1 "1_in").trans (by decide),
    (declared crossed 11 "in").trans (by decide),
    (declared crossed (-1) "1_in").trans (by decide),
    (declared crossed 1 "in").trans (by decide), pair, ?_⟩
  rw [(graphs _ pair).1]
  decide +kernel

end Landform
