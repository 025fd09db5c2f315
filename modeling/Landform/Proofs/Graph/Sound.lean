import Landform.Graph.Edit
import Landform.Proofs.Graph.Closure
import Landform.Proofs.Graph.Ports
import Mathlib.Data.List.TakeWhile

/-!
# Sound graphs

A graph is sound when its nodes and connections are well-formed and its tables are the tables of
these nodes and connections. Well-formed means that ids are not used twice and lie below the next
id, that every connection joins an output to an input of another node of the same port kind, that
no two connections lead into one input, and that the edges between nodes form no cycle.

1. `Sound.find?_iff`, `Sound.incoming?_iff`, `Sound.mem_downstream`: the tables of a sound graph are
   exact.
2. `Sound.reaches_iff`: the search along the edges is exact.
3. `Sound.refusal?_eq_none`: which connections are not refused.
-/

namespace Landform

open Relation

/-! ## Definitions -/

/-- A connection joins an output port to an input port of another node and of the same kind. -/
structure Joins (nodes : List Node) (c : Connection) (p q : Port) : Prop where
  source_mem : p ∈ outlets nodes
  source_id : p.id = c.source
  target_mem : q ∈ inlets nodes
  target_id : q.id = c.target
  apart : p.node ≠ q.node
  kind_eq : p.kind = q.kind

/-- A connection leads from a port of the first node to a port of the second. -/
def Feeds (nodes : List Node) (connections : List Connection) (a b : Int) : Prop :=
  ∃ c ∈ connections, ∃ p q, Joins nodes c p q ∧ p.node = a ∧ q.node = b

/-- The edges between nodes form no cycle. -/
def Acyclic (nodes : List Node) (connections : List Connection) : Prop :=
  ∀ a, ¬ TransGen (Feeds nodes connections) a a

/-- Nodes and connections that fit together, with the id of the next node. -/
structure WellFormed (nodes : List Node) (connections : List Connection) (nextId : Int) : Prop where
  ids_distinct : (nodes.map (·.id)).Nodup
  ids_below : ∀ n ∈ nodes, n.id < nextId
  joined : ∀ c ∈ connections, ∃ p q, Joins nodes c p q
  targets_distinct : (connections.map (·.target)).Nodup
  acyclic : Acyclic nodes connections

namespace Graph

/-- Well-formed nodes and connections with their own tables. -/
structure Sound (g : Graph) : Prop extends WellFormed g.nodes g.connections g.nextId where
  tables_eq : g.tables = .of g.nodes g.connections

/-- The edges between the nodes of a graph. -/
abbrev Feeds (g : Graph) : Int → Int → Prop :=
  Landform.Feeds g.nodes g.connections

end Graph

/-! ## 1. Exact tables -/

namespace Joins

variable {nodes : List Node} {c : Connection} {p q : Port}

/-- The node at the start of a connection, with its output port. -/
theorem source (joins : Joins nodes c p q) : ∃ m ∈ nodes, p ∈ m.outputs ∧ m.id = p.node := by
  obtain ⟨m, member, port⟩ := mem_outlets.mp joins.source_mem
  exact ⟨m, member, port, (Node.node_of_mem_ports (Node.mem_ports.mpr (.inr port))).symm⟩

/-- The node at the end of a connection, with its input port. -/
theorem target (joins : Joins nodes c p q) : ∃ n ∈ nodes, q ∈ n.inputs ∧ n.id = q.node := by
  obtain ⟨n, member, port⟩ := mem_inlets.mp joins.target_mem
  exact ⟨n, member, port, (Node.node_of_mem_ports (Node.mem_ports.mpr (.inl port))).symm⟩

/-- A connection has only one pair of ends. -/
theorem unique (distinct : (nodes.map (·.id)).Nodup) {p' q' : Port} (joins : Joins nodes c p q)
    (joins' : Joins nodes c p' q') : p = p' ∧ q = q' := by
  obtain ⟨m, mm, mp, _⟩ := joins.source
  obtain ⟨m', mm', mp', _⟩ := joins'.source
  obtain ⟨n, mn, mq, _⟩ := joins.target
  obtain ⟨n', mn', mq', _⟩ := joins'.target
  exact ⟨(port_unique distinct mm (Node.mem_ports.mpr (.inr mp)) mm' (Node.mem_ports.mpr (.inr mp'))
      (joins.source_id.trans joins'.source_id.symm)).2,
    (port_unique distinct mn (Node.mem_ports.mpr (.inl mq)) mn' (Node.mem_ports.mpr (.inl mq'))
      (joins.target_id.trans joins'.target_id.symm)).2⟩

end Joins

theorem Feeds.source_mem {nodes : List Node} {connections : List Connection} {a b : Int}
    (feeds : Feeds nodes connections a b) : a ∈ nodes.map (·.id) := by
  obtain ⟨c, _, p, q, joins, rfl, _⟩ := feeds
  obtain ⟨m, member, _, same⟩ := joins.source
  exact same ▸ List.mem_map_of_mem member

theorem Feeds.target_mem {nodes : List Node} {connections : List Connection} {a b : Int}
    (feeds : Feeds nodes connections a b) : b ∈ nodes.map (·.id) := by
  obtain ⟨c, _, p, q, joins, _, rfl⟩ := feeds
  obtain ⟨n, member, _, same⟩ := joins.target
  exact same ▸ List.mem_map_of_mem member

namespace Graph

theorem node?_iff {g : Graph} (distinct : g.ids.Nodup) {a : Int} {n : Node} :
    g.node? a = some n ↔ n ∈ g.nodes ∧ n.id = a := by
  constructor
  · intro found
    exact ⟨List.mem_of_find?_eq_some found, by simpa using List.find?_some found⟩
  · rintro ⟨member, rfl⟩
    refine find?_of_unique member (by simp) fun m other same => ?_
    exact node_eq_of_id distinct other member (by simpa using same)

/-- The ports of a wiring, when the table of ports is that of the nodes. -/
theorem wiring_ports_eq {g : Graph} (distinct : g.ids.Nodup)
    (ports : g.tables.ports = Tables.portsOf g.nodes) : g.wiring.ports = entries g.nodes := by
  have owned : ∀ n ∈ g.nodes, (n.ports.map fun p => (n.id, p)).filterMap
      (fun entry => (g.node? entry.1).map fun m => (m, entry.2)) = n.ports.map fun p => (n, p) := by
    intro n member
    rw [List.filterMap_map, ← List.filterMap_eq_map]
    refine congrArg (List.filterMap · n.ports) (funext fun p => ?_)
    simp [(node?_iff distinct).mpr ⟨member, rfl⟩]
  unfold wiring
  rw [ports]
  simp only [Tables.portsOf, List.filterMap_flatMap]
  rw [List.flatMap_congr owned]
  rfl

/-- What the tables of its nodes and connections say about a graph. -/
theorem wiring_eq {g : Graph} (distinct : g.ids.Nodup)
    (tables : g.tables = .of g.nodes g.connections) :
    g.wiring = ⟨entries g.nodes, g.connections.reverse⟩ := by
  have ports := wiring_ports_eq distinct (congrArg Tables.ports tables)
  have latest : g.wiring.latest = g.connections.reverse := congrArg Tables.latest tables
  rw [← ports, ← latest]

namespace Sound

variable {g : Graph} (sound : g.Sound)

include sound

theorem wiring_eq : g.wiring = ⟨entries g.nodes, g.connections.reverse⟩ :=
  Graph.wiring_eq sound.ids_distinct sound.tables_eq

theorem find?_iff {id : String} {n : Node} {p : Port} :
    g.wiring.find? id = some (n, p) ↔ n ∈ g.nodes ∧ p ∈ n.ports ∧ p.id = id := by
  rw [sound.wiring_eq]
  exact find_entry sound.ids_distinct

theorem node?_iff {a : Int} {n : Node} : g.node? a = some n ↔ n ∈ g.nodes ∧ n.id = a :=
  Graph.node?_iff sound.ids_distinct

theorem incoming?_iff {id : String} {c : Connection} :
    g.wiring.incoming? id = some c ↔ c ∈ g.connections ∧ c.target = id := by
  rw [sound.wiring_eq]
  unfold Wiring.incoming?
  constructor
  · intro found
    exact ⟨List.mem_reverse.mp (List.mem_of_find?_eq_some found),
      by simpa using List.find?_some found⟩
  · rintro ⟨member, rfl⟩
    refine find?_of_unique (List.mem_reverse.mpr member) (by simp) fun d other same => ?_
    exact List.inj_on_of_nodup_map sound.targets_distinct (List.mem_reverse.mp other) member
      (by simpa using same)

end Sound

end Graph

theorem Tables.portsOf_eq_map (nodes : List Node) :
    portsOf nodes = (entries nodes).map fun entry => (entry.1.id, entry.2) := by
  simp only [portsOf, entries, List.map_flatMap, List.map_map]
  rfl

theorem Tables.ownerIn_portsOf (nodes : List Node) (id : String) :
    ownerIn (portsOf nodes) id =
      ((entries nodes).find? fun entry => entry.2.id == id).map (·.1.id) := by
  rw [ownerIn, portsOf_eq_map, List.find?_map, Option.map_map]
  rfl

/-- The owners of the ends of a connection, looked up in the tables. -/
theorem Joins.edgeIn_portsOf {nodes : List Node} {c : Connection} {p q : Port}
    (distinct : (nodes.map (·.id)).Nodup) (joins : Joins nodes c p q) :
    Tables.edgeIn (Tables.portsOf nodes) c = some (p.node, q.node) := by
  obtain ⟨m, mm, mp, source⟩ := joins.source
  obtain ⟨n, mn, mq, target⟩ := joins.target
  have first := (find_entry distinct).mpr ⟨mm, Node.mem_ports.mpr (.inr mp), joins.source_id⟩
  have second := (find_entry distinct).mpr ⟨mn, Node.mem_ports.mpr (.inl mq), joins.target_id⟩
  simp [Tables.edgeIn, Tables.ownerIn_portsOf, first, second, source, target]

theorem WellFormed.mem_downstream {nodes : List Node} {connections : List Connection}
    {nextId : Int} (formed : WellFormed nodes connections nextId) {a b : Int} :
    (a, b) ∈ (Tables.of nodes connections).downstream ↔ Feeds nodes connections a b := by
  have edge : ∀ c ∈ connections, (Tables.edgeIn (Tables.portsOf nodes) c).isSome := by
    intro c member
    obtain ⟨p, q, joins⟩ := formed.joined c member
    rw [joins.edgeIn_portsOf formed.ids_distinct]
    rfl
  have all : connections.takeWhile (fun c => (Tables.edgeIn (Tables.portsOf nodes) c).isSome) =
      connections := List.takeWhile_eq_self_iff.mpr edge
  simp only [Tables.of]
  rw [all, List.mem_filterMap]
  constructor
  · rintro ⟨c, member, found⟩
    obtain ⟨p, q, joins⟩ := formed.joined c member
    rw [joins.edgeIn_portsOf formed.ids_distinct] at found
    obtain ⟨rfl, rfl⟩ := Prod.mk.inj (Option.some.inj found)
    exact ⟨c, member, p, q, joins, rfl, rfl⟩
  · rintro ⟨c, member, p, q, joins, rfl, rfl⟩
    exact ⟨c, member, joins.edgeIn_portsOf formed.ids_distinct⟩

namespace Graph.Sound

variable {g : Graph} (sound : g.Sound)

include sound

theorem mem_downstream {a b : Int} : (a, b) ∈ g.tables.downstream ↔ g.Feeds a b := by
  rw [sound.tables_eq]
  exact sound.toWellFormed.mem_downstream

/-! ## 2. The search along the edges -/

theorem reaches_iff {a b : Int} :
    g.reaches a b = true ↔ a ∈ g.ids ∧ ReflTransGen g.Feeds a b := by
  have edges : (fun a b => b ∈ Reach.successors g.tables.downstream a) = g.Feeds := by
    funext a b
    rw [Reach.mem_successors, sound.mem_downstream]
  have closed : ∀ a, ∀ b ∈ Reach.successors g.tables.downstream a, b ∈ g.ids := by
    intro a b follows
    exact (sound.mem_downstream.mp (Reach.mem_successors.mp follows)).target_mem
  rw [reaches, List.contains_iff_mem, Reach.mem_closure_singleton closed, edges]

/-! ## 3. Connections that are not refused -/

omit sound in
theorem refusal?_of_found {source target : String} {m n : Node} {p q : Port}
    (first : g.wiring.find? source = some (m, p)) (second : g.wiring.find? target = some (n, q)) :
    Edit.refusal? g source target = none ↔
      m.id ≠ n.id ∧ p.isOutput ∧ q.isInput ∧ p.compatible q ∧ ¬ g.reaches n.id m.id := by
  simp only [Edit.refusal?, first, second]
  split
  · next same => simp_all
  split
  · next wrong => grind
  split
  · next incompatible => simp_all
  split
  · next reached => simp_all
  · simp_all

/-- A connection is not refused when it joins two ports and no path leads back. -/
theorem refusal?_eq_none {source target : String} :
    Edit.refusal? g source target = none ↔
      ∃ p q, Joins g.nodes ⟨source, target⟩ p q ∧ ¬ ReflTransGen g.Feeds q.node p.node := by
  constructor
  · intro accepted
    obtain ⟨⟨m, p⟩, first⟩ : ∃ entry, g.wiring.find? source = some entry := by
      cases first : g.wiring.find? source with
      | none => simp [Edit.refusal?, first] at accepted
      | some entry => exact ⟨entry, rfl⟩
    obtain ⟨⟨n, q⟩, second⟩ : ∃ entry, g.wiring.find? target = some entry := by
      cases second : g.wiring.find? target with
      | none => simp [Edit.refusal?, first, second] at accepted
      | some entry => exact ⟨entry, rfl⟩
    obtain ⟨apart, output, input, compatible, unreached⟩ :=
      (refusal?_of_found first second).mp accepted
    obtain ⟨mm, mp, source_id⟩ := sound.find?_iff.mp first
    obtain ⟨mn, mq, target_id⟩ := sound.find?_iff.mp second
    have inputPort := (Node.mem_inputs_iff mq).mpr (by simpa [Port.isInput] using input)
    have outputPort := (Node.mem_outputs_iff mp).mpr (by simpa [Port.isOutput] using output)
    have owner := Node.node_of_mem_ports mp
    have follower := Node.node_of_mem_ports mq
    refine ⟨p, q, ⟨mem_outlets.mpr ⟨m, mm, outputPort⟩, source_id,
      mem_inlets.mpr ⟨n, mn, inputPort⟩, target_id, by rwa [owner, follower],
      (Port.compatible_iff.mp compatible).2.2.2⟩, ?_⟩
    rw [owner, follower]
    exact fun path => unreached (sound.reaches_iff.mpr ⟨List.mem_map_of_mem mn, path⟩)
  · rintro ⟨p, q, joins, noPath⟩
    obtain ⟨m, mm, mp, owner⟩ := joins.source
    obtain ⟨n, mn, mq, follower⟩ := joins.target
    have first := sound.find?_iff.mpr ⟨mm, Node.mem_ports.mpr (.inr mp), joins.source_id⟩
    have second := sound.find?_iff.mpr ⟨mn, Node.mem_ports.mpr (.inl mq), joins.target_id⟩
    have output : p.isOutput := by simp [Port.isOutput, Node.isOutput_of_mem_outputs mp]
    have input : q.isInput := by simp [Port.isInput, Node.isInput_of_mem_inputs mq]
    rw [refusal?_of_found first second, owner, follower]
    exact ⟨joins.apart, output, input,
      Port.compatible_iff.mpr ⟨output, input, joins.apart, joins.kind_eq⟩,
      fun reached => noPath (sound.reaches_iff.mp reached).2⟩

end Graph.Sound

end Landform
