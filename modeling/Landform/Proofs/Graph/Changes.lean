import Landform.Proofs.Graph.Sound

/-!
# Changes that keep nodes and connections well-formed

1. `WellFormed.append`: a node with a fresh id.
2. `WellFormed.without`: a node is taken away with the connections that touch it.
3. `WellFormed.join`: a connection between two ports, when no path leads back and its input is free.
4. `WellFormed.sublist`: connections are taken away.
5. `WellFormed.congr`: nodes are replaced by nodes of the same ids and ports.
-/

namespace Landform

open Relation

variable {nodes nodes' : List Node} {connections connections' : List Connection}
  {nextId nextId' : Int}

/-! ## Ends and edges -/

theorem Joins.mono {c : Connection} {p q : Port} (joins : Joins nodes c p q)
    (outputs : ∀ p ∈ outlets nodes, p ∈ outlets nodes')
    (inputs : ∀ q ∈ inlets nodes, q ∈ inlets nodes') : Joins nodes' c p q :=
  { joins with
    source_mem := outputs p joins.source_mem
    target_mem := inputs q joins.target_mem }

theorem Feeds.mono {a b : Int} (feeds : Feeds nodes connections a b)
    (outputs : ∀ p ∈ outlets nodes, p ∈ outlets nodes')
    (inputs : ∀ q ∈ inlets nodes, q ∈ inlets nodes')
    (kept : ∀ c ∈ connections, c ∈ connections') : Feeds nodes' connections' a b := by
  obtain ⟨c, member, p, q, joins, source, target⟩ := feeds
  exact ⟨c, kept c member, p, q, joins.mono outputs inputs, source, target⟩

theorem Acyclic.anti (acyclic : Acyclic nodes' connections')
    (edges : ∀ a b, Feeds nodes connections a b → Feeds nodes' connections' a b) :
    Acyclic nodes connections :=
  fun a cycle => acyclic a (TransGen.mono edges a a cycle)

theorem outlets_append (n : Node) : ∀ p ∈ outlets nodes, p ∈ outlets (nodes ++ [n]) := by
  intro p member
  rw [outlets, List.flatMap_append]
  exact List.mem_append_left _ member

theorem inlets_append (n : Node) : ∀ q ∈ inlets nodes, q ∈ inlets (nodes ++ [n]) := by
  intro q member
  rw [inlets, List.flatMap_append]
  exact List.mem_append_left _ member

theorem WellFormed.nil (nextId : Int) : WellFormed [] [] nextId where
  ids_distinct := List.nodup_nil
  ids_below := by simp
  joined := by simp
  targets_distinct := List.nodup_nil
  acyclic := by
    intro a cycle
    obtain ⟨b, ⟨c, member, _⟩, _⟩ := TransGen.head'_iff.mp cycle
    exact absurd member List.not_mem_nil

/-! ## 1. A fresh node -/

theorem WellFormed.append (formed : WellFormed nodes connections nextId) {n : Node}
    (fresh : n.id ∉ nodes.map (·.id)) (below : n.id < nextId') (grown : nextId ≤ nextId') :
    WellFormed (nodes ++ [n]) connections nextId' := by
  have distinct : ((nodes ++ [n]).map (·.id)).Nodup := by
    rw [List.map_append]
    exact List.Nodup.append formed.ids_distinct (List.nodup_singleton _)
      (List.disjoint_singleton.mpr fresh)
  have joined : ∀ c ∈ connections, ∃ p q, Joins nodes c p q ∧ Joins (nodes ++ [n]) c p q := by
    intro c member
    obtain ⟨p, q, joins⟩ := formed.joined c member
    exact ⟨p, q, joins, joins.mono (outlets_append n) (inlets_append n)⟩
  refine ⟨distinct, ?_, ?_, formed.targets_distinct, ?_⟩
  · intro m member
    rcases List.mem_append.mp member with old | new
    · exact Int.lt_of_lt_of_le (formed.ids_below m old) grown
    · rw [List.mem_singleton] at new
      exact new ▸ below
  · intro c member
    obtain ⟨p, q, _, joins⟩ := joined c member
    exact ⟨p, q, joins⟩
  · -- the ends of a connection are still those it had, so that there is no further edge
    refine formed.acyclic.anti ?_
    rintro a b ⟨c, member, p, q, joins, rfl, rfl⟩
    obtain ⟨p', q', old, new⟩ := joined c member
    obtain ⟨rfl, rfl⟩ := joins.unique distinct new
    exact ⟨c, member, p, q, old, rfl, rfl⟩

/-! ## 2. A node taken away -/

/-- A connection touches a port of a node. -/
def Touches (n : Node) (c : Connection) : Prop :=
  c.source ∈ n.ports.map (·.id) ∨ c.target ∈ n.ports.map (·.id)

theorem WellFormed.without (formed : WellFormed nodes connections nextId) {n : Node}
    (member : n ∈ nodes) (kept : connections'.Sublist connections)
    (untouched : ∀ c ∈ connections', ¬ Touches n c) :
    WellFormed (nodes.filter (·.id != n.id)) connections' nextId := by
  have inside : (nodes.filter (·.id != n.id)).Sublist nodes := List.filter_sublist
  have stays : ∀ m ∈ nodes, m ≠ n → m ∈ nodes.filter (·.id != n.id) := by
    intro m old other
    refine List.mem_filter.mpr ⟨old, ?_⟩
    simpa using fun same => other (node_eq_of_id formed.ids_distinct old member same)
  refine ⟨formed.ids_distinct.sublist (inside.map _), ?_, ?_,
    formed.targets_distinct.sublist (kept.map _), ?_⟩
  · exact fun m old => formed.ids_below m (inside.subset old)
  · intro c here
    obtain ⟨p, q, joins⟩ := formed.joined c (kept.subset here)
    obtain ⟨m, mm, mp, _⟩ := joins.source
    obtain ⟨k, mk, mq, _⟩ := joins.target
    have sourceKept : m ≠ n := by
      rintro rfl
      refine untouched c here (.inl (joins.source_id ▸ ?_))
      exact List.mem_map_of_mem (Node.mem_ports.mpr (.inr mp))
    have targetKept : k ≠ n := by
      rintro rfl
      refine untouched c here (.inr (joins.target_id ▸ ?_))
      exact List.mem_map_of_mem (Node.mem_ports.mpr (.inl mq))
    exact ⟨p, q, { joins with
      source_mem := mem_outlets.mpr ⟨m, stays m mm sourceKept, mp⟩
      target_mem := mem_inlets.mpr ⟨k, stays k mk targetKept, mq⟩ }⟩
  · refine formed.acyclic.anti fun a b feeds => feeds.mono ?_ ?_ kept.subset
    · intro p port
      obtain ⟨m, mm, mp⟩ := mem_outlets.mp port
      exact mem_outlets.mpr ⟨m, inside.subset mm, mp⟩
    · intro q port
      obtain ⟨m, mm, mq⟩ := mem_inlets.mp port
      exact mem_inlets.mpr ⟨m, inside.subset mm, mq⟩

/-! ## 3. A further connection -/

/-- A path over one further edge either avoids it or passes it once. -/
theorem transGen_insert {α : Type} {r r' : α → α → Prop} {a b : α}
    (edges : ∀ x y, r' x y → r x y ∨ x = a ∧ y = b) (noPath : ¬ ReflTransGen r b a) {x y : α}
    (path : TransGen r' x y) : TransGen r x y ∨ ReflTransGen r x a ∧ ReflTransGen r b y := by
  induction path with
  | single step =>
    rcases edges _ _ step with old | ⟨rfl, rfl⟩
    · exact .inl (.single old)
    · exact .inr ⟨.refl, .refl⟩
  | tail _ step ih =>
    rcases ih with before | ⟨first, second⟩ <;> rcases edges _ _ step with old | ⟨rfl, rfl⟩
    · exact .inl (before.tail old)
    · exact .inr ⟨before.to_reflTransGen, .refl⟩
    · exact .inr ⟨first, second.tail old⟩
    · exact absurd second noPath

theorem WellFormed.join (formed : WellFormed nodes connections nextId) {c : Connection}
    {p q : Port} (joins : Joins nodes c p q)
    (noPath : ¬ ReflTransGen (Feeds nodes connections) q.node p.node)
    (free : ∀ d ∈ connections, d.target ≠ c.target) :
    WellFormed nodes (connections ++ [c]) nextId := by
  refine ⟨formed.ids_distinct, formed.ids_below, ?_, ?_, ?_⟩
  · intro d member
    rcases List.mem_append.mp member with old | new
    · exact formed.joined d old
    · rw [List.mem_singleton] at new
      exact new ▸ ⟨p, q, joins⟩
  · rw [List.map_append]
    refine List.Nodup.append formed.targets_distinct (List.nodup_singleton _)
      (List.disjoint_singleton.mpr ?_)
    intro taken
    obtain ⟨d, member, same⟩ := List.mem_map.mp taken
    exact free d member same
  · have edges : ∀ a b, Feeds nodes (connections ++ [c]) a b →
        Feeds nodes connections a b ∨ a = p.node ∧ b = q.node := by
      rintro a b ⟨d, member, p', q', joins', rfl, rfl⟩
      rcases List.mem_append.mp member with old | new
      · exact .inl ⟨d, old, p', q', joins', rfl, rfl⟩
      · rw [List.mem_singleton] at new
        subst new
        obtain ⟨rfl, rfl⟩ := joins'.unique formed.ids_distinct joins
        exact .inr ⟨rfl, rfl⟩
    -- a cycle is an old one, or passes the further edge and closes a path that leads back
    intro a cycle
    rcases transGen_insert edges noPath cycle with old | ⟨first, second⟩
    · exact formed.acyclic a old
    · exact noPath (second.trans first)

/-! ## 4. Fewer connections -/

theorem WellFormed.sublist (formed : WellFormed nodes connections nextId)
    (kept : connections'.Sublist connections) : WellFormed nodes connections' nextId :=
  { formed with
    joined := fun c member => formed.joined c (kept.subset member)
    targets_distinct := formed.targets_distinct.sublist (kept.map _)
    acyclic := formed.acyclic.anti fun _ _ feeds =>
      feeds.mono (fun _ h => h) (fun _ h => h) kept.subset }

/-! ## 5. Nodes with the same ports -/

/-- The nodes have the same ids and ports, in the same order. -/
def SamePorts (nodes nodes' : List Node) : Prop :=
  nodes.map (fun n => (n.id, n.kind)) = nodes'.map (fun n => (n.id, n.kind))

namespace SamePorts

theorem flatMap_eq {α : Type} (same : SamePorts nodes nodes') (f : Int × Kind → List α) :
    nodes.flatMap (fun n => f (n.id, n.kind)) = nodes'.flatMap fun n => f (n.id, n.kind) := by
  have lists := congrArg (List.flatMap f) same
  rwa [List.flatMap_map, List.flatMap_map] at lists

theorem ids_eq (same : SamePorts nodes nodes') : nodes.map (·.id) = nodes'.map (·.id) := by
  have lists := congrArg (List.map Prod.fst) same
  rwa [List.map_map, List.map_map] at lists

theorem length_eq (same : SamePorts nodes nodes') : nodes.length = nodes'.length := by
  have lengths := congrArg List.length same
  rwa [List.length_map, List.length_map] at lengths

theorem outlets_eq (same : SamePorts nodes nodes') : outlets nodes = outlets nodes' := by
  have ports := same.flatMap_eq fun entry => entry.2.outputs.map fun spec => spec.bind entry.1
  exact ports

theorem inlets_eq (same : SamePorts nodes nodes') : inlets nodes = inlets nodes' := by
  have ports := same.flatMap_eq fun entry => entry.2.inputs.map fun spec => spec.bind entry.1
  exact ports

theorem portsOf_eq (same : SamePorts nodes nodes') :
    Tables.portsOf nodes = Tables.portsOf nodes' := by
  exact same.flatMap_eq fun entry =>
    (entry.2.inputs.map (fun spec => spec.bind entry.1) ++
      entry.2.outputs.map fun spec => spec.bind entry.1).map fun p => (entry.1, p)

theorem tables_eq (same : SamePorts nodes nodes') :
    Tables.of nodes connections = Tables.of nodes' connections := by
  simp only [Tables.of, same.portsOf_eq]

theorem joins_iff (same : SamePorts nodes nodes') {c : Connection} {p q : Port} :
    Joins nodes c p q ↔ Joins nodes' c p q := by
  constructor
  · exact fun joins => joins.mono (same.outlets_eq ▸ fun _ h => h) (same.inlets_eq ▸ fun _ h => h)
  · exact fun joins => joins.mono (same.outlets_eq ▸ fun _ h => h) (same.inlets_eq ▸ fun _ h => h)

theorem feeds_eq (same : SamePorts nodes nodes') :
    Feeds nodes connections = Feeds nodes' connections := by
  funext a b
  simp only [Feeds, same.joins_iff]

end SamePorts

theorem WellFormed.congr (formed : WellFormed nodes connections nextId)
    (same : SamePorts nodes nodes') : WellFormed nodes' connections nextId := by
  have ids := same.ids_eq
  refine ⟨ids ▸ formed.ids_distinct, ?_, ?_, formed.targets_distinct, ?_⟩
  · intro n member
    obtain ⟨m, old, number⟩ := List.mem_map.mp (ids ▸ List.mem_map_of_mem member :
      n.id ∈ nodes.map (·.id))
    exact number ▸ formed.ids_below m old
  · intro c member
    obtain ⟨p, q, joins⟩ := formed.joined c member
    exact ⟨p, q, same.joins_iff.mp joins⟩
  · unfold Acyclic
    rw [← same.feeds_eq]
    exact formed.acyclic

end Landform
