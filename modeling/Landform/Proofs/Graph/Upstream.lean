import Landform.Proofs.Graph.Legal
import Landform.Proofs.Graph.Versions
import Landform.Proofs.Validation

/-!
# What lies upstream of a node

The nodes upstream of a node feed it, directly or through others; the node itself is one of them.
Mutations that keep away from them leave them in place, with the connections that lead into them.

1. `Sound.mem_feeding`, `Sound.mem_warnings`: the search that validation makes follows the edges
   backwards, and its warnings name the nodes that are not upstream of the terrain output;
   `Reachable.validate_warnings`: all of them, in order.
2. `Alike`: graphs that agree on some nodes and on what feeds them.
3. `Sound.alike_apply`: mutations that avoid some nodes.
4. `Sound.remove_warning`: removing a node that validation warns about.
-/

namespace Landform

open Relation

/-! ## Definitions -/

/-- A mutation keeps away from some nodes: it adds a node, it removes or updates a node that is not
among them, or it connects or disconnects an input of such a node. -/
def Mutation.Avoids (g : Graph) (among : Int → Prop) : Mutation → Prop
  | .add _ _ _ => True
  | .remove id | .update id _ => ¬ among id
  | .connect _ target | .disconnect _ target =>
    ∀ n q, g.wiring.find? target = some (n, q) → ¬ among n.id
  | .clear => False

namespace Graph

/-- A node feeds another one, directly or through others, or is that node. -/
def Upstream (g : Graph) (n m : Int) : Prop :=
  ReflTransGen g.Feeds m n

/-- The nodes that feed the inputs of a node directly. -/
def sources (g : Graph) (n : Int) : List Int :=
  match g.node? n with
  | none => []
  | some node => node.inputs.filterMap fun p => do
    let c ← g.wiring.incoming? p.id
    let source ← g.wiring.owner? c.source
    return source.id

variable {g g' : Graph}

/-! ## 1. The search against the edges -/

theorem Sound.mem_sources (sound : g.Sound) {m n : Int} : m ∈ g.sources n ↔ g.Feeds m n := by
  unfold sources
  constructor
  · intro listed
    cases found : g.node? n with
    | none =>
      rw [found] at listed
      exact absurd listed List.not_mem_nil
    | some node =>
      rw [found] at listed
      obtain ⟨member, rfl⟩ := sound.node?_iff.mp found
      obtain ⟨q, port, fed⟩ := List.mem_filterMap.mp listed
      obtain ⟨c, incoming, fed⟩ := Option.bind_eq_some_iff.mp fed
      obtain ⟨source, owner, same⟩ := Option.bind_eq_some_iff.mp fed
      cases same
      exact (sound.feeds_of_behind member port
        (Option.bind_eq_some_iff.mpr ⟨c, incoming, owner⟩)).2
  · rintro ⟨c, joined, p, q, joins, rfl, rfl⟩
    obtain ⟨s, ms, mp, source⟩ := joins.source
    obtain ⟨t, mt, mq, target⟩ := joins.target
    have incoming : g.wiring.incoming? q.id = some c :=
      sound.incoming?_iff.mpr ⟨joined, joins.target_id.symm⟩
    have owner : g.wiring.owner? c.source = some s :=
      sound.owner?_iff.mpr ⟨ms, p, Node.mem_ports.mpr (.inr mp), joins.source_id⟩
    rw [sound.node?_iff.mpr ⟨mt, target⟩]
    refine List.mem_filterMap.mpr ⟨q, mq, ?_⟩
    rw [incoming]
    simp [owner, source]

/-- The search finds the nodes upstream and no others. -/
theorem Sound.mem_feeding (sound : g.Sound) {m n : Int} :
    m ∈ g.feeding n ↔ n ∈ g.ids ∧ g.Upstream n m := by
  have closed : ∀ a, ∀ b ∈ g.sources a, b ∈ g.ids := by
    intro a b source
    exact (sound.mem_sources.mp source).source_mem
  have backwards : (fun a b => b ∈ g.sources a) = Function.swap g.Feeds := by
    funext a b
    exact propext sound.mem_sources
  have search : g.feeding n = Reach.closure true g.sources g.ids [n] := rfl
  rw [search, Reach.mem_closure_singleton closed, backwards, reflTransGen_swap, Upstream]

/-- Validation warns about the nodes that are not upstream of the terrain output. -/
theorem Sound.mem_warnings (sound : g.Sound) {w : Warning} :
    w ∈ g.warnings ↔ ∃ o n, g.output? = some o ∧ n ∈ g.nodes ∧ ¬ g.Upstream o.id n.id ∧
      w = ⟨n.id, n.kind⟩ := by
  unfold warnings
  cases found : g.output? with
  | none => simp
  | some o =>
    have member : o.id ∈ g.ids := List.mem_map_of_mem (mem_nodes_of_output? found).1
    have upstream : ∀ n : Node, (!(g.feeding o.id).contains n.id) = true ↔
        ¬ g.Upstream o.id n.id := by
      intro n
      simp [sound.mem_feeding, member]
    simp only [List.mem_map, List.mem_filter, upstream]
    constructor
    · rintro ⟨n, ⟨listed, apart⟩, rfl⟩
      exact ⟨o, n, rfl, listed, apart, rfl⟩
    · rintro ⟨o', n, same, listed, apart, rfl⟩
      cases same
      exact ⟨n, ⟨listed, apart⟩, rfl⟩

open Classical in
/-- Validation of a graph with a terrain output gives one warning for each node from which no path
of connections leads to the first of them, in the order of the nodes. -/
theorem Reachable.validate_warnings (reachable : g.Reachable) (delivers : g.outputs ≠ []) :
    ∃ o findings, g.outputs.head? = some o ∧ g.validate = .ok findings ∧
      findings.warnings =
        (g.nodes.filter fun n => ¬ ReflTransGen g.Leads n.id o.id).map (fun n => ⟨n.id, n.kind⟩) ∧
      (findings.warnings.map (·.node)).Nodup := by
  have sound := reachable.sound
  obtain ⟨o, found⟩ := Option.ne_none_iff_exists'.mp (mt List.head?_eq_none_iff.mp delivers)
  have member : o.id ∈ g.ids := List.mem_map_of_mem (mem_nodes_of_output? found).1
  have warnings : g.warnings =
      (g.nodes.filter fun n => ¬ ReflTransGen g.Leads n.id o.id).map fun n => ⟨n.id, n.kind⟩ := by
    unfold warnings
    rw [show g.output? = some o from found, sound.leads_eq_feeds]
    refine congrArg _ (List.filter_congr fun n _ => ?_)
    rw [Bool.eq_iff_iff]
    simp [sound.mem_feeding, member, Upstream]
  refine ⟨o, g.findings, found, sound.validate_eq, warnings, ?_⟩
  show (g.warnings.map (·.node)).Nodup
  rw [warnings, List.map_map]
  exact sound.ids_distinct.sublist (List.filter_sublist.map _)

/-- A terrain that is delivered, beside a position that nothing uses. -/
def unused : Graph :=
  [Mutation.add "terrain-type" (.int 0) (.int 0), .add "position" (.int 0) (.int 9),
    .add "terrain-output" (.int 9) (.int 0), .connect "1_out" "3_in"].foldl Mutation.apply (empty 7)

theorem unused_validate_warnings :
    unused.Reachable ∧ unused.outputs ≠ [] ∧ ∃ o findings, unused.outputs.head? = some o ∧
      unused.validate = .ok findings ∧ findings.warnings = [⟨2, .position⟩] ∧
      ¬ ReflTransGen unused.Leads 2 o.id ∧ ReflTransGen unused.Leads 1 o.id := by
  have reachable : unused.Reachable := ((Built.empty 7).run _).reachable
  have delivers : unused.outputs ≠ [] := by decide +kernel
  obtain ⟨o, findings, first, valid, warnings, _⟩ := reachable.validate_warnings delivers
  have listed : findings.warnings = [⟨2, .position⟩] := by
    have computed : unused.validate.toOption.map (·.warnings) = some [⟨2, .position⟩] := by
      decide +kernel
    rw [valid] at computed
    exact Option.some.inj computed
  rw [listed] at warnings
  refine ⟨reachable, delivers, o, findings, first, valid, listed, ?_, ?_⟩
  · obtain ⟨n, member, same⟩ := List.mem_map.mp (warnings ▸ List.mem_singleton_self _)
    obtain ⟨two, _⟩ := Warning.mk.inj same
    rw [← two]
    simpa using (List.mem_filter.mp member).2
  · obtain ⟨n, member, known⟩ : ∃ n ∈ unused.nodes, n.id = 1 := by decide +kernel
    by_contra apart
    have warned : (⟨n.id, n.kind⟩ : Warning) ∈ [(⟨2, .position⟩ : Warning)] := by
      rw [warnings]
      exact List.mem_map.mpr ⟨n, List.mem_filter.mpr ⟨member, by simpa [known] using apart⟩, rfl⟩
    obtain ⟨two, _⟩ := Warning.mk.inj (List.mem_singleton.mp warned)
    exact absurd (known.symm.trans two) (by decide)

/-! ## 2. Graphs that agree -/

/-- A second graph agrees with a first one on some nodes of it: it has these nodes, the same
connections lead into them, and every node that feeds one of them is among them. -/
structure Alike (g g' : Graph) (among : Int → Prop) : Prop where
  nodes : ∀ n ∈ g.nodes, among n.id → n ∈ g'.nodes
  connections : ∀ n ∈ g.nodes, among n.id → ∀ role c, c.target = portId n.id role →
    (c ∈ g'.connections ↔ c ∈ g.connections)
  closed : ∀ a b, g.Feeds a b → among b → among a

section Agreement

variable {among : Int → Prop} (alike : g.Alike g' among) (sound : g.Sound) (sound' : g'.Sound)

include alike sound sound'

theorem Alike.incoming?_eq {n : Node} (member : n ∈ g.nodes) (inside : among n.id)
    (role : String) :
    g'.wiring.incoming? (portId n.id role) = g.wiring.incoming? (portId n.id role) := by
  refine Option.ext fun c => ?_
  rw [sound.incoming?_iff, sound'.incoming?_iff]
  constructor
  · rintro ⟨joined, target⟩
    exact ⟨(alike.connections n member inside role c target).mp joined, target⟩
  · rintro ⟨joined, target⟩
    exact ⟨(alike.connections n member inside role c target).mpr joined, target⟩

theorem Alike.isConnected_eq {n : Node} (member : n ∈ g.nodes) (inside : among n.id) :
    g'.wiring.isConnected n = g.wiring.isConnected n := by
  funext role
  rw [Wiring.isConnected, Wiring.isConnected, alike.incoming?_eq sound sound' member inside]

end Agreement

/-! ## 3. Mutations that avoid nodes -/

section Mutations

variable {among : Int → Prop} (sound : g.Sound) (closed : ∀ a b, g.Feeds a b → among b → among a)

/-- The id of a port tells the id of its node. -/
theorem owner_of_portId {n : Node} {q : Port} {id : Int} {role : String} (port : q ∈ n.ports)
    (same : q.id = portId id role) : n.id = id :=
  (portId_injective ((Node.id_of_mem_ports port).symm.trans same)).1

include closed

theorem alike_of_eq (nodes : g'.nodes = g.nodes) (connections : g'.connections = g.connections) :
    g.Alike g' among :=
  ⟨fun _ member _ => nodes ▸ member, fun _ _ _ _ _ _ => connections ▸ Iff.rfl, closed⟩

include sound

theorem Sound.alike_add (kind : String) (x y : Value) :
    g.Alike (g.run (Edit.add kind x y)).1 among := by
  rcases run_add sound.toWellFormed kind x y with
    ⟨random, cause, done⟩ | ⟨random, k, seed, n, _, _, _, done⟩ <;> rw [done]
  · exact alike_of_eq closed rfl rfl
  · exact ⟨fun m member _ => List.mem_append_left _ member, fun _ _ _ _ _ _ => Iff.rfl, closed⟩

/-- A connection into one of the nodes touches no node but those among them. -/
theorem Sound.mem_untouched {id : Int} (outside : ¬ among id) {n : Node} (inside : among n.id)
    {role : String} {c : Connection} (target : c.target = portId n.id role) :
    c ∈ g.untouched id ↔ c ∈ g.connections := by
  refine ⟨fun kept => (List.mem_filter.mp kept).1, fun joined => List.mem_filter.mpr ⟨joined, ?_⟩⟩
  suffices apart : c ∉ g.touching id by simpa using apart
  unfold touching
  cases found : g.node? id with
  | none => exact List.not_mem_nil
  | some m =>
    obtain ⟨member, rfl⟩ := sound.node?_iff.mp found
    obtain ⟨p, q, joins⟩ := sound.joined c joined
    obtain ⟨s, ms, mp, source⟩ := joins.source
    obtain ⟨t, mt, mq, follower⟩ := joins.target
    have owner : t.id = n.id :=
      owner_of_portId (Node.mem_ports.mpr (.inl mq)) (joins.target_id.trans target)
    intro touched
    have touches := (List.mem_filter.mp touched).2
    simp only [List.contains_eq_mem, Bool.or_eq_true, decide_eq_true_eq, List.mem_map] at touches
    rcases touches with ⟨p', port, same⟩ | ⟨q', port, same⟩
    · -- the node at the start feeds a node among them, so that it is one of them
      have start := (port_unique sound.ids_distinct member port ms (Node.mem_ports.mpr (.inr mp))
        (same.trans joins.source_id.symm)).1
      subst start
      exact outside (closed _ _ ⟨c, joined, p, q, joins, source.symm, follower.symm⟩
        (owner ▸ inside))
    · have finish := (port_unique sound.ids_distinct member port mt (Node.mem_ports.mpr (.inl mq))
        (same.trans joins.target_id.symm)).1
      subst finish
      exact outside (owner ▸ inside)

theorem Sound.alike_remove {id : Int} (outside : ¬ among id) :
    g.Alike (g.run (Edit.remove id)).1 among := by
  rcases run_remove sound id with ⟨why, _, done⟩ | ⟨_, done⟩ <;> rw [done]
  · exact alike_of_eq closed rfl rfl
  · refine ⟨fun n member inside => List.mem_filter.mpr ⟨member, ?_⟩,
      fun n _ inside role c target => sound.mem_untouched closed outside inside target, closed⟩
    exact bne_iff_ne.mpr fun same => outside (same ▸ inside)

omit closed in
/-- The id of a port of one of the nodes is none that is avoided. -/
theorem Sound.portId_ne_of_avoids {target : String}
    (avoids : ∀ n q, g.wiring.find? target = some (n, q) → ¬ among n.id) {k : Node}
    (member : k ∈ g.nodes) {q : Port} (port : q ∈ k.ports) (known : q.id = target) {n : Node}
    (inside : among n.id) (role : String) : portId n.id role ≠ target := by
  rintro same
  have owner : k.id = n.id := owner_of_portId port (known.trans same.symm)
  exact avoids k q (sound.find?_iff.mpr ⟨member, port, known⟩) (owner ▸ inside)

theorem Sound.alike_connect {source target : String}
    (avoids : ∀ n q, g.wiring.find? target = some (n, q) → ¬ among n.id) :
    g.Alike (g.run (Edit.connect source target)).1 among := by
  rcases run_connect sound source target with ⟨why, _, done⟩ | ⟨accepted, _, what, done⟩ <;>
    rw [done]
  · exact alike_of_eq closed rfl rfl
  · refine ⟨fun _ member _ => member, fun n _ inside role c into => ?_, closed⟩
    obtain ⟨p, q, joins, _⟩ := sound.refusal?_eq_none.mp accepted
    obtain ⟨k, mk, mq, _⟩ := joins.target
    have other : c.target ≠ target := into ▸ sound.portId_ne_of_avoids avoids mk
      (Node.mem_ports.mpr (.inl mq)) joins.target_id inside role
    exact sound.mem_making_concat other

theorem Sound.alike_disconnect {source target : String}
    (avoids : ∀ n q, g.wiring.find? target = some (n, q) → ¬ among n.id) :
    g.Alike (g.run (Edit.disconnect source target)).1 among := by
  rcases run_disconnect sound source target with ⟨why, done⟩ | ⟨_, done⟩ <;> rw [done]
  · exact alike_of_eq closed rfl rfl
  · refine ⟨fun _ member _ => member, fun n _ inside role c into => ?_, closed⟩
    refine ⟨List.mem_of_mem_erase, fun joined => (List.mem_erase_of_ne ?_).mpr joined⟩
    rintro rfl
    obtain ⟨k, mk, q, port, known, _⟩ := sound.find?_target joined
    exact sound.portId_ne_of_avoids avoids mk (Node.mem_ports.mpr (.inl port)) known inside role
      into.symm

theorem Sound.alike_update {id : Int} (outside : ¬ among id) (updates : Fields) :
    g.Alike (g.run (Edit.update id updates)).1 among := by
  rcases run_update sound id updates with ⟨answer, _, done⟩ | ⟨m, m', found, made, _, done⟩ <;>
    rw [done]
  · exact alike_of_eq closed rfl rfl
  · obtain ⟨_, rfl⟩ := sound.node?_iff.mp found
    refine ⟨fun n member inside => List.mem_map.mpr ⟨n, member, if_neg ?_⟩,
      fun _ _ _ _ _ _ => Iff.rfl, closed⟩
    simpa [(Node.update_keeps made).1] using fun same : n.id = m.id => outside (same ▸ inside)

/-- A mutation that avoids some nodes, with all that feed them, leaves a graph that agrees on
them. -/
theorem Sound.alike_apply {m : Mutation} (avoids : m.Avoids g among) :
    g.Alike (m.apply g) among := by
  cases m with
  | add kind x y => exact sound.alike_add closed kind x y
  | remove id => exact sound.alike_remove closed avoids
  | connect source target => exact sound.alike_connect closed avoids
  | disconnect source target => exact sound.alike_disconnect closed avoids
  | update id updates => exact sound.alike_update closed avoids updates
  | clear => exact avoids.elim

end Mutations

/-! ## 4. Removing a node that validation warns about -/

/-- What feeds a node that is upstream is upstream. -/
theorem Upstream.closed (n : Int) : ∀ a b, g.Feeds a b → g.Upstream n b → g.Upstream n a :=
  fun _ _ feeds upstream => .head feeds upstream

/-- The terrain output stays the first one when another node goes. -/
theorem output?_of_filter {o : Node} {id : Int} (found : g.output? = some o) (apart : o.id ≠ id) :
    ((g.nodes.filter (·.id != id)).filter (·.isOutput)).head? = some o := by
  have first : g.nodes.find? (·.isOutput) = some o := by rwa [← List.head?_filter]
  rw [List.head?_filter, List.find?_filter]
  obtain ⟨delivers, before, after, split, others⟩ := List.find?_eq_some_iff_append.mp first
  refine List.find?_eq_some_iff_append.mpr
    ⟨by simp [delivers, apart], before, after, split, fun m earlier => ?_⟩
  have other := others m earlier
  simp_all

/-- A node that validation warns about can be removed. The other nodes stay, and so does all that
feeds the terrain output. -/
theorem Sound.remove_warning (sound : g.Sound) {w : Warning} (warned : w ∈ g.warnings) :
    (Mutation.remove w.node).succeeds g = true ∧
    ((Mutation.remove w.node).apply g).nodes = g.nodes.filter (·.id != w.node) ∧
    ∃ o, g.output? = some o ∧ ((Mutation.remove w.node).apply g).output? = some o ∧
      g.Alike ((Mutation.remove w.node).apply g) (g.Upstream o.id) := by
  obtain ⟨o, n, found, member, apart, rfl⟩ := sound.mem_warnings.mp warned
  have different : o.id ≠ n.id := fun same => apart (same ▸ .refl)
  have alike := sound.alike_remove (Upstream.closed o.id) apart
  rw [Mutation.succeeds, Mutation.apply]
  rcases run_remove sound n.id with ⟨why, only, _⟩ | ⟨_, done⟩
  · -- it is not the only terrain output, since `o` is one
    obtain ⟨delivers, one⟩ := only n (sound.node?_iff.mpr ⟨member, rfl⟩)
    obtain ⟨m, single⟩ := List.length_eq_one_iff.mp one
    have first : o ∈ g.outputs := List.mem_of_mem_head? found
    have second : n ∈ g.outputs := List.mem_filter.mpr ⟨member, delivers⟩
    rw [single, List.mem_singleton] at first second
    exact absurd (congrArg Node.id (first.trans second.symm)) different
  · rw [done] at alike ⊢
    exact ⟨rfl, rfl, o, found, output?_of_filter found different, alike⟩

end Graph

end Landform
