import Landform.Proofs.Graph.Sorting
import Landform.Proofs.Graph.States

/-!
# The cycle test

The test of a graph is exact, whatever its connections are: it finds a cycle exactly when some node
leads back to itself. A connection counts when its two ends are ports of nodes of the graph, in
whatever direction and however often it is listed.

1. `Graph.edges_eq_leads`: the edges that the test looks at.
2. `Graph.hasCycle_exact`: the test, and its turns, for any connections.
3. `Graph.leads_eq_feeds`, `Graph.hasCycle_eq_false_iff`: for connections that all join an output to
   an input.
-/

namespace Landform

open Relation

/-! ## Definitions -/

/-- Some port of the node has the id. -/
def Owns (nodes : List Node) (a : Int) (id : String) : Prop :=
  ∃ n ∈ nodes, n.id = a ∧ ∃ p ∈ n.ports, p.id = id

namespace Graph

/-- A connection leads from a port of the first node to a port of the second, whatever these ports
are. -/
def Leads (g : Graph) (a b : Int) : Prop :=
  ∃ c ∈ g.connections, Owns g.nodes a c.source ∧ Owns g.nodes b c.target

variable {g : Graph}

/-! ## 1. Edges -/

theorem mem_ids_of_owner? {id : String} {n : Node} (owner : g.wiring.owner? id = some n) :
    n.id ∈ g.ids := by
  obtain ⟨⟨m, p⟩, found, rfl⟩ := Option.map_eq_some_iff.mp owner
  obtain ⟨entry, _, known⟩ := List.mem_filterMap.mp (List.mem_of_find?_eq_some found)
  obtain ⟨m, look, same⟩ := Option.map_eq_some_iff.mp known
  cases same
  exact List.mem_map_of_mem (List.mem_of_find?_eq_some look)

theorem mem_ids_of_mem_edges {a b : Int} (edge : (a, b) ∈ g.edges) : a ∈ g.ids := by
  obtain ⟨c, _, ends⟩ := List.mem_filterMap.mp edge
  obtain ⟨m, owner, ends⟩ := Option.bind_eq_some_iff.mp ends
  obtain ⟨n, _, same⟩ := Option.bind_eq_some_iff.mp ends
  cases same
  exact mem_ids_of_owner? owner

section Tables

variable (distinct : g.ids.Nodup) (ports : g.tables.ports = Tables.portsOf g.nodes)

include distinct ports

theorem owner?_eq_some_iff {id : String} {a : Int} :
    (∃ n, g.wiring.owner? id = some n ∧ n.id = a) ↔ Owns g.nodes a id := by
  unfold Wiring.owner? Wiring.find?
  rw [wiring_ports_eq distinct ports]
  constructor
  · rintro ⟨n, owner, rfl⟩
    obtain ⟨⟨m, p⟩, found, rfl⟩ := Option.map_eq_some_iff.mp owner
    obtain ⟨member, port, known⟩ := (find_entry distinct).mp found
    exact ⟨m, member, rfl, p, port, known⟩
  · rintro ⟨n, member, rfl, p, port, known⟩
    exact ⟨n, by rw [(find_entry distinct).mpr ⟨member, port, known⟩]; rfl, rfl⟩

theorem edge?_eq_some_iff {c : Connection} {a b : Int} :
    g.wiring.edge? c = some (a, b) ↔ Owns g.nodes a c.source ∧ Owns g.nodes b c.target := by
  rw [← owner?_eq_some_iff distinct ports, ← owner?_eq_some_iff distinct ports]
  unfold Wiring.edge?
  constructor
  · intro edge
    obtain ⟨m, source, rest⟩ := Option.bind_eq_some_iff.mp edge
    obtain ⟨n, target, same⟩ := Option.bind_eq_some_iff.mp rest
    obtain ⟨rfl, rfl⟩ := Prod.mk.inj (Option.some.inj same)
    exact ⟨⟨m, source, rfl⟩, n, target, rfl⟩
  · rintro ⟨⟨m, source, rfl⟩, n, target, rfl⟩
    rw [source, target]
    rfl

/-- The test looks at the connections whose ends are ports of nodes. -/
theorem edges_eq_leads : Sorting.Edge g.edges = g.Leads := by
  funext a b
  refine propext ⟨fun edge => ?_, ?_⟩
  · obtain ⟨c, listed, ends⟩ := List.mem_filterMap.mp edge
    exact ⟨c, listed, (edge?_eq_some_iff distinct ports).mp ends⟩
  · rintro ⟨c, listed, owned⟩
    exact List.mem_filterMap.mpr ⟨c, listed, (edge?_eq_some_iff distinct ports).mpr owned⟩

end Tables

/-! ## 2. The test of a graph -/

theorem hasCycle_eq (distinct : g.ids.Nodup) :
    g.hasCycle = ((g.sorting.run g.edges).visited != g.nodes.length) := by
  have size : (g.sorting.run g.edges).degrees.length = g.nodes.length := by
    rw [sorting, Sorting.length_degrees_run distinct, ids, List.length_map]
  unfold hasCycle
  dsimp only
  rw [size]

/-- The test finds a cycle exactly when some node reaches itself along the edges. -/
theorem hasCycle_iff (distinct : g.ids.Nodup) :
    g.hasCycle = true ↔ ∃ a, TransGen (Sorting.Edge g.edges) a a := by
  rw [← Sorting.visited_ne_iff distinct fun a b => mem_ids_of_mem_edges, hasCycle_eq distinct,
    bne_iff_ne, ids, List.length_map]
  rfl

/-- The test finds a cycle exactly when some node reaches itself by one connection or more,
whatever the connections are. It takes one turn for a node at most. -/
theorem hasCycle_exact (distinct : g.ids.Nodup)
    (ports : g.tables.ports = Tables.portsOf g.nodes) :
    (g.hasCycle = true ↔ ∃ n ∈ g.nodes, TransGen g.Leads n.id n.id) ∧
    ∃ rounds ≤ g.nodes.length,
      (∀ k < rounds, ((Sorting.step g.edges)^[k] g.sorting).queue ≠ []) ∧
      ((Sorting.step g.edges)^[rounds] g.sorting).queue = [] ∧
      g.hasCycle = (((Sorting.step g.edges)^[rounds] g.sorting).visited != g.nodes.length) := by
  constructor
  · rw [hasCycle_iff distinct, edges_eq_leads distinct ports]
    constructor
    · rintro ⟨a, cycle⟩
      obtain ⟨b, ⟨c, _, ⟨n, member, rfl, _⟩, _⟩, _⟩ := TransGen.head'_iff.mp cycle
      exact ⟨n, member, cycle⟩
    · rintro ⟨n, _, cycle⟩
      exact ⟨n.id, cycle⟩
  · obtain ⟨rounds, same, before, visited⟩ := Sorting.run_eq_iterate g.edges g.sorting
    have few : (g.sorting.run g.edges).visited ≤ g.ids.length := Sorting.visited_run_le distinct
    have first : g.sorting.visited = 0 := rfl
    rw [visited, first, Nat.zero_add, ids, List.length_map] at few
    refine ⟨rounds, few, before, ?_, ?_⟩
    · rw [← same]
      exact Sorting.queue_run g.edges g.sorting
    · rw [← same]
      exact hasCycle_eq distinct

/-- Two sums, and connections that no mutation would leave: three from the first sum to the second,
two of them the same, and perhaps one from the second sum to itself. -/
def tangled (loop : Bool) : Graph :=
  { [Mutation.add "add" (.int 0) (.int 0), .add "add" (.int 9) (.int 0)].foldl Mutation.apply
      (empty 7) with
    connections := [⟨"1_out", "2_in1"⟩, ⟨"1_out", "2_in1"⟩, ⟨"1_out", "2_in2"⟩] ++
      if loop then [⟨"2_out", "2_in1"⟩] else [] }

/-- Connections in parallel close no cycle, and one from a node to itself does. -/
theorem tangled_hasCycle_exact :
    (∃ n ∈ (tangled true).nodes, TransGen (tangled true).Leads n.id n.id) ∧
    ¬ ∃ n ∈ (tangled false).nodes, TransGen (tangled false).Leads n.id n.id := by
  have cyclic := hasCycle_exact (g := tangled true) (by decide +kernel) (by decide +kernel)
  have straight := hasCycle_exact (g := tangled false) (by decide +kernel) (by decide +kernel)
  refine ⟨cyclic.1.mp (by decide +kernel), fun cycle => ?_⟩
  exact absurd (straight.1.mpr cycle) (by decide +kernel)

/-! ## 3. Connections that join ports -/

/-- Connections that join ports lead from an output to an input. -/
theorem leads_eq_feeds (distinct : g.ids.Nodup)
    (joined : ∀ c ∈ g.connections, ∃ p q, Joins g.nodes c p q) : g.Leads = g.Feeds := by
  funext a b
  refine propext ⟨?_, ?_⟩
  · rintro ⟨c, listed, ⟨m, mm, rfl, p, mp, source⟩, n, mn, rfl, q, mq, target⟩
    obtain ⟨p', q', joins⟩ := joined c listed
    obtain ⟨m', mm', mp', owner⟩ := joins.source
    obtain ⟨n', mn', mq', follower⟩ := joins.target
    have start := (port_unique distinct mm mp mm' (Node.mem_ports.mpr (.inr mp'))
      (source.trans joins.source_id.symm)).1
    have finish := (port_unique distinct mn mq mn' (Node.mem_ports.mpr (.inl mq'))
      (target.trans joins.target_id.symm)).1
    exact ⟨c, listed, p', q', joins, start ▸ owner.symm, finish ▸ follower.symm⟩
  · rintro ⟨c, listed, p, q, joins, rfl, rfl⟩
    obtain ⟨m, mm, mp, owner⟩ := joins.source
    obtain ⟨n, mn, mq, follower⟩ := joins.target
    exact ⟨c, listed, ⟨m, mm, owner, p, Node.mem_ports.mpr (.inr mp), joins.source_id⟩,
      n, mn, follower, q, Node.mem_ports.mpr (.inl mq), joins.target_id⟩

theorem Sound.leads_eq_feeds (sound : g.Sound) : g.Leads = g.Feeds :=
  Graph.leads_eq_feeds sound.ids_distinct sound.joined

/-- Where all connections join ports, the test says whether the edges between nodes form no
cycle. -/
theorem hasCycle_eq_false_iff (distinct : g.ids.Nodup)
    (tables : g.tables = .of g.nodes g.connections)
    (joined : ∀ c ∈ g.connections, ∃ p q, Joins g.nodes c p q) :
    g.hasCycle = false ↔ Acyclic g.nodes g.connections := by
  rw [← Bool.not_eq_true, hasCycle_iff distinct,
    edges_eq_leads distinct (congrArg Tables.ports tables), leads_eq_feeds distinct joined,
    not_exists]
  rfl

end Graph

end Landform
