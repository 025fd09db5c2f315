import Landform.Proofs.Graph.Sound
import Mathlib.Data.Finset.Card

/-!
# The order of nodes and ports

In a sound graph every node is higher than the nodes that feed it, and every port ranks above the
ports that its signal is pulled from. The rank is what recursion along the connections descends on.

1. `Sound.height_lt`: an edge leads to a higher node.
2. `Sound.rank_input_lt`, `Sound.rank_source_lt`: the two steps from a port to the ports behind it.
3. `Chain.le_height`: chains of connections are shorter than the number of nodes.
-/

namespace Landform.Graph

open Relation

variable {g : Graph}

/-! ## 1. Heights of nodes -/

open Classical in
/-- The nodes from which a path leads to a node. -/
noncomputable def ancestors (g : Graph) (n : Int) : Finset Int :=
  g.ids.toFinset.filter fun m => TransGen g.Feeds m n

/-- The number of nodes from which a path leads to a node. -/
noncomputable def height (g : Graph) (n : Int) : Nat :=
  (g.ancestors n).card

theorem mem_ancestors {m n : Int} : m ∈ g.ancestors n ↔ TransGen g.Feeds m n := by
  simp only [ancestors, Finset.mem_filter, List.mem_toFinset, and_iff_right_iff_imp]
  intro path
  obtain ⟨_, feeds, _⟩ := TransGen.head'_iff.mp path
  exact feeds.source_mem

theorem ancestors_subset (n : Int) : g.ancestors n ⊆ g.ids.toFinset := by
  classical exact Finset.filter_subset _ _

theorem Sound.height_lt (sound : g.Sound) {a b : Int} (feeds : g.Feeds a b) :
    g.height a < g.height b := by
  refine Finset.card_lt_card ⟨fun m path => ?_, fun reverse => ?_⟩
  · exact mem_ancestors.mpr ((mem_ancestors.mp path).tail feeds)
  · exact sound.acyclic a (mem_ancestors.mp (reverse (mem_ancestors.mpr (.single feeds))))

theorem Sound.height_lt_length (sound : g.Sound) {n : Int} (member : n ∈ g.ids) :
    g.height n < g.nodes.length := by
  have inside : g.ancestors n ⊂ g.ids.toFinset := by
    refine ⟨ancestors_subset n, fun all => ?_⟩
    exact sound.acyclic n (mem_ancestors.mp (all (List.mem_toFinset.mpr member)))
  calc g.height n < g.ids.toFinset.card := Finset.card_lt_card inside
    _ = g.ids.length := List.toFinset_card_of_nodup sound.ids_distinct
    _ = g.nodes.length := List.length_map _

/-- What holds of a node when it holds of the nodes that feed it holds of every node. -/
theorem Sound.node_induction (sound : g.Sound) {holds : Int → Prop}
    (step : ∀ n ∈ g.nodes, (∀ m, g.Feeds m n.id → holds m) → holds n.id) :
    ∀ n ∈ g.nodes, holds n.id := by
  intro n member
  induction height : g.height n.id using Nat.strong_induction_on generalizing n with
  | _ height ih =>
    subst height
    refine step n member fun m feeds => ?_
    obtain ⟨source, listed, rfl⟩ := List.mem_map.mp feeds.source_mem
    exact ih _ (sound.height_lt feeds) source listed rfl

/-! ## 2. Ranks of ports -/

/-- An input ranks below the outputs of its node. -/
noncomputable def rank (g : Graph) (id : String) : Nat :=
  match g.wiring.find? id with
  | some (n, p) => 2 * g.height n.id + p.isOutput.toNat
  | none => 0

theorem rank_of_found {id : String} {n : Node} {p : Port}
    (found : g.wiring.find? id = some (n, p)) :
    g.rank id = 2 * g.height n.id + p.isOutput.toNat := by
  rw [rank, found]

theorem Sound.find?_input (sound : g.Sound) {n : Node} {q : Port} (member : n ∈ g.nodes)
    (port : q ∈ n.inputs) : g.wiring.find? q.id = some (n, q) :=
  sound.find?_iff.mpr ⟨member, Node.mem_ports.mpr (.inl port), rfl⟩

theorem Sound.find?_output (sound : g.Sound) {n : Node} {p : Port} (member : n ∈ g.nodes)
    (port : p ∈ n.outputs) : g.wiring.find? p.id = some (n, p) :=
  sound.find?_iff.mpr ⟨member, Node.mem_ports.mpr (.inr port), rfl⟩

theorem isOutput_of_mem_outputs {n : Node} {p : Port} (port : p ∈ n.outputs) :
    p.isOutput = true := by
  simp [Port.isOutput, Node.isOutput_of_mem_outputs port]

theorem isOutput_of_mem_inputs {n : Node} {q : Port} (port : q ∈ n.inputs) :
    q.isOutput = false := by
  simp [Port.isOutput, Node.isInput_of_mem_inputs port]

/-- The target of a connection is found with its node. -/
theorem Sound.find?_target (sound : g.Sound) {c : Connection} (member : c ∈ g.connections) :
    ∃ n ∈ g.nodes, ∃ q ∈ n.inputs, q.id = c.target ∧ g.wiring.find? c.target = some (n, q) := by
  obtain ⟨p, q, joins⟩ := sound.joined c member
  obtain ⟨n, mn, mq, _⟩ := joins.target
  exact ⟨n, mn, q, mq, joins.target_id, joins.target_id ▸ sound.find?_input mn mq⟩

/-- The source of a connection has an owner. -/
theorem Sound.owner_source (sound : g.Sound) {c : Connection} (member : c ∈ g.connections) :
    ∃ n ∈ g.nodes, ∃ p ∈ n.outputs, p.id = c.source ∧ g.wiring.owner? c.source = some n := by
  obtain ⟨p, q, joins⟩ := sound.joined c member
  obtain ⟨n, mn, mp, _⟩ := joins.source
  have known := sound.find?_output mn mp
  rw [joins.source_id] at known
  exact ⟨n, mn, p, mp, joins.source_id, by rw [Wiring.owner?, known]; rfl⟩

/-- The output behind an input feeds the node of the input. -/
theorem Sound.feeds_of_behind (sound : g.Sound) {n m : Node} {q : Port} (member : n ∈ g.nodes)
    (port : q ∈ n.inputs)
    (behind : ((g.wiring.incoming? q.id).bind fun c => g.wiring.owner? c.source) = some m) :
    m ∈ g.nodes ∧ g.Feeds m.id n.id := by
  obtain ⟨c, incoming, owner⟩ := Option.bind_eq_some_iff.mp behind
  obtain ⟨joined, target⟩ := sound.incoming?_iff.mp incoming
  obtain ⟨p, q', joins⟩ := sound.joined c joined
  obtain ⟨k, mk, mp, source⟩ := joins.source
  obtain ⟨n', mn, mq, follower⟩ := joins.target
  have known := sound.find?_output mk mp
  rw [joins.source_id] at known
  rw [Wiring.owner?, known] at owner
  cases owner
  have same := (port_unique sound.ids_distinct mn (Node.mem_ports.mpr (.inl mq)) member
    (Node.mem_ports.mpr (.inl port)) (joins.target_id.trans target)).1
  subst same
  exact ⟨mk, c, joined, p, q', joins, source.symm, follower.symm⟩

theorem Sound.rank_input_lt (sound : g.Sound) {n : Node} {p q : Port} (member : n ∈ g.nodes)
    (output : p ∈ n.outputs) (input : q ∈ n.inputs) : g.rank q.id < g.rank p.id := by
  rw [rank_of_found (sound.find?_input member input),
    rank_of_found (sound.find?_output member output), isOutput_of_mem_outputs output,
    isOutput_of_mem_inputs input]
  exact Nat.lt_succ_self _

theorem Sound.rank_source_lt (sound : g.Sound) {c : Connection} (member : c ∈ g.connections) :
    g.rank c.source < g.rank c.target := by
  obtain ⟨p, q, joins⟩ := sound.joined c member
  obtain ⟨m, mm, mp, source⟩ := joins.source
  obtain ⟨n, mn, mq, target⟩ := joins.target
  have higher := sound.height_lt ⟨c, member, p, q, joins, rfl, rfl⟩
  rw [← joins.source_id, ← joins.target_id, rank_of_found (sound.find?_output mm mp),
    rank_of_found (sound.find?_input mn mq), isOutput_of_mem_outputs mp,
    isOutput_of_mem_inputs mq, source, target]
  simp only [Bool.toNat_true, Bool.toNat_false]
  omega

theorem Sound.rank_behind_lt (sound : g.Sound) {n : Node} {p q : Port} {c : Connection}
    (member : n ∈ g.nodes) (output : p ∈ n.outputs) (input : q ∈ n.inputs)
    (joined : c ∈ g.connections) (target : c.target = q.id) : g.rank c.source < g.rank p.id :=
  (target ▸ sound.rank_source_lt joined).trans (sound.rank_input_lt member output input)

/-- What holds of a port when it holds of the ports behind it holds of every port. An id that is no
port of the graph stands for itself. -/
theorem Sound.port_induction (sound : g.Sound) {holds : String → Prop}
    (unknown : ∀ id, g.wiring.find? id = none → holds id)
    (output : ∀ n ∈ g.nodes, ∀ p ∈ n.outputs, (∀ q ∈ n.inputs, holds q.id) → holds p.id)
    (connected : ∀ c ∈ g.connections, holds c.source → holds c.target)
    (unconnected : ∀ n ∈ g.nodes, ∀ q ∈ n.inputs, g.wiring.incoming? q.id = none → holds q.id)
    (id : String) : holds id := by
  induction height : g.rank id using Nat.strong_induction_on generalizing id with
  | _ height ih =>
    subst height
    cases found : g.wiring.find? id with
    | none => exact unknown id found
    | some entry =>
      obtain ⟨n, p⟩ := entry
      obtain ⟨member, port, rfl⟩ := sound.find?_iff.mp found
      rcases Node.mem_ports.mp port with input | isOutput
      · cases incoming : g.wiring.incoming? p.id with
        | none => exact unconnected n member p input incoming
        | some c =>
          obtain ⟨listed, target⟩ := sound.incoming?_iff.mp incoming
          rw [← target] at ih ⊢
          exact connected c listed (ih _ (sound.rank_source_lt listed) c.source rfl)
      · exact output n member p isOutput fun q input =>
          ih _ (sound.rank_input_lt member isOutput input) q.id rfl

/-! ## 3. Chains of connections -/

/-- `Chain g id k`: `k` connections can be followed one after the other from a port backwards, from
an input to its source and from an output to an input of the same node. -/
inductive Chain (g : Graph) : String → Nat → Prop
  | here (id : String) : Chain g id 0
  | follow {c : Connection} {k : Nat} : c ∈ g.connections → Chain g c.source k →
      Chain g c.target (k + 1)
  | cross {n : Node} {p q : Port} {k : Nat} : n ∈ g.nodes → p ∈ n.outputs → q ∈ n.inputs →
      Chain g q.id k → Chain g p.id k

/-- A chain takes a step down for each of its connections. -/
theorem Chain.le_height (sound : g.Sound) {id : String} {k : Nat} (chain : g.Chain id k) :
    ∀ n p, g.wiring.find? id = some (n, p) → k ≤ g.height n.id := by
  -- only following a connection goes down; crossing a node stays at its height
  induction chain with
  | here => exact fun _ _ _ => Nat.zero_le _
  | @follow c k member _ ih =>
    intro n q found
    obtain ⟨p, q', joins⟩ := sound.joined c member
    obtain ⟨m, mm, mp, source⟩ := joins.source
    obtain ⟨n', mn, mq, target⟩ := joins.target
    have start := sound.find?_output mm mp
    have finish := sound.find?_input mn mq
    rw [joins.source_id] at start
    rw [joins.target_id, found] at finish
    cases finish
    have higher := sound.height_lt ⟨c, member, p, q, joins, rfl, rfl⟩
    have behind := ih m p start
    rw [source] at behind
    rw [target]
    omega
  | @cross n p q k member output input _ ih =>
    intro n' p' found
    rw [sound.find?_output member output] at found
    cases found
    exact ih n q (sound.find?_input member input)

/-- No chain has as many connections as the graph has nodes, unless there is none. -/
theorem Chain.le_length (sound : g.Sound) {id : String} {k : Nat} (chain : g.Chain id k) :
    k ≤ g.nodes.length := by
  cases found : g.wiring.find? id with
  | some entry =>
    obtain ⟨n, p⟩ := entry
    have member := (sound.find?_iff.mp found).1
    exact (chain.le_height sound n p found).trans
      (sound.height_lt_length (List.mem_map_of_mem member)).le
  | none =>
    cases chain with
    | here => exact Nat.zero_le _
    | follow member _ =>
      obtain ⟨n, _, q, _, _, known⟩ := sound.find?_target member
      rw [known] at found
      cases found
    | cross member output _ _ =>
      rw [sound.find?_output member output] at found
      cases found

end Landform.Graph
