import Landform.Proofs.Graph.Cycle
import Landform.Proofs.Graph.States

/-!
# Legal connections

A connection is legal when it leads from an output to an input of another node and of the same port
kind, and the cycle test passes the graph in which it has taken the place of the one that led into
its input. `Edit.connect` looks for a path back before it lets that one go. It accepts the legal
connections all the same: a path that ends where it started first passes its start for the last
time, so that no edge back into the start is needed.

1. `Sound.making_eq`: the connections that make way.
2. `without_return`: paths that never come back to their start.
3. `Reachable.connect_done_iff`: connecting succeeds exactly on legal connections.
-/

namespace Landform.Graph

open Relation

variable {g : Graph}

/-! ## Definitions -/

/-- The connections with one appended in place of those into its target. -/
def joining (g : Graph) (source target : String) : List Connection :=
  g.connections.filter (·.target != target) ++ [⟨source, target⟩]

/-- The graph with other connections and the tables of these. -/
def rewired (g : Graph) (connections : List Connection) : Graph :=
  refreshed { g with connections }

theorem rewired_hasCycle_eq_false_iff (distinct : g.ids.Nodup) {connections : List Connection}
    (joined : ∀ c ∈ connections, ∃ p q, Joins g.nodes c p q) :
    (g.rewired connections).hasCycle = false ↔ Acyclic g.nodes connections :=
  hasCycle_eq_false_iff (g := g.rewired connections) distinct rfl joined

/-- A connection that fits two ports and closes no cycle. -/
structure Legal (g : Graph) (source target : String) : Prop where
  ends_fit : ∃ m p n q, g.wiring.find? source = some (m, p) ∧ g.wiring.find? target = some (n, q) ∧
    m.id ≠ n.id ∧ p.isOutput = true ∧ q.isInput = true ∧ p.kind = q.kind
  no_cycle : (g.rewired (g.joining source target)).hasCycle = false

/-! ## 1. Connections that make way -/

theorem Sound.making_eq (sound : g.Sound) (target : String) :
    g.making target = g.connections.filter (·.target != target) := by
  cases found : g.wiring.incoming? target with
  | none =>
    have free : ∀ c ∈ g.connections, (c.target != target) = true := by
      intro c listed
      refine bne_iff_ne.mpr fun same => ?_
      rw [sound.incoming?_iff.mpr ⟨listed, same⟩] at found
      cases found
    rw [making, found, List.filter_eq_self.mpr free]
  | some old =>
    obtain ⟨listed, rfl⟩ := sound.incoming?_iff.mp found
    have distinct : g.connections.Nodup := List.Nodup.of_map _ sound.targets_distinct
    rw [making, found]
    dsimp only
    rw [distinct.erase_eq_filter]
    refine List.filter_congr fun c member => ?_
    have same : c.target = old.target ↔ c = old :=
      ⟨List.inj_on_of_nodup_map sound.targets_distinct member listed, congrArg _⟩
    grind

/-- A connection into one input leaves those into the others. -/
theorem Sound.mem_making_concat (sound : g.Sound) {source target : String} {c : Connection}
    (other : c.target ≠ target) :
    c ∈ g.making target ++ [⟨source, target⟩] ↔ c ∈ g.connections := by
  rw [sound.making_eq, List.mem_append, List.mem_filter, List.mem_singleton]
  constructor
  · rintro (⟨joined, _⟩ | rfl)
    · exact joined
    · exact absurd rfl other
  · exact fun joined => .inl ⟨joined, bne_iff_ne.mpr other⟩

/-- So does taking one away. -/
theorem mem_erase_of_target_ne {source target : String} {c : Connection}
    (other : c.target ≠ target) : c ∈ g.connections.erase ⟨source, target⟩ ↔ c ∈ g.connections := by
  refine List.mem_erase_of_ne ?_
  rintro rfl
  exact other rfl

/-! ## 2. Paths that do not come back -/

/-- A path can be cut at the last time that it passes its start. -/
theorem without_return {α : Type} {r : α → α → Prop} {a b : α} (path : ReflTransGen r a b) :
    ReflTransGen (fun x y => r x y ∧ y ≠ a) a b := by
  induction path with
  | refl => exact .refl
  | @tail b c _ step ih =>
    by_cases back : c = a
    · exact back ▸ .refl
    · exact ih.tail ⟨step, back⟩

/-- An edge into another node than the target is still there when the target has been taken. -/
theorem feeds_joining (distinct : g.ids.Nodup) {source target : String} {q : Port}
    (input : q ∈ inlets g.nodes) (known : q.id = target) {a b : Int} (feeds : g.Feeds a b)
    (other : b ≠ q.node) : Landform.Feeds g.nodes (g.joining source target) a b := by
  obtain ⟨c, listed, p, q', joins, rfl, rfl⟩ := feeds
  refine ⟨c, List.mem_append_left _ (List.mem_filter.mpr ⟨listed, ?_⟩), p, q', joins, rfl, rfl⟩
  refine bne_iff_ne.mpr fun same => other ?_
  obtain ⟨n, mn, mq, _⟩ := joins.target
  obtain ⟨n', mn', mq'⟩ := mem_inlets.mp input
  have ports := port_unique distinct mn (Node.mem_ports.mpr (.inl mq)) mn'
    (Node.mem_ports.mpr (.inl mq')) (joins.target_id.trans (same.trans known.symm))
  rw [ports.2]

/-! ## 3. Which connections are accepted -/

section Acceptance

variable (sound : g.Sound) {source target : String}

include sound

theorem Sound.joined_joining {p q : Port} (joins : Joins g.nodes ⟨source, target⟩ p q) :
    ∀ c ∈ g.joining source target, ∃ p q, Joins g.nodes c p q := by
  intro c member
  rcases List.mem_append.mp member with kept | new
  · exact sound.joined c (List.mem_filter.mp kept).1
  · rw [List.mem_singleton] at new
    exact new ▸ ⟨p, q, joins⟩

/-- The two ends of a connection, found in the tables, or as ports that are joined. -/
theorem Sound.ends_fit_iff :
    (∃ m p n q, g.wiring.find? source = some (m, p) ∧ g.wiring.find? target = some (n, q) ∧
      m.id ≠ n.id ∧ p.isOutput = true ∧ q.isInput = true ∧ p.kind = q.kind) ↔
    ∃ p q, Joins g.nodes ⟨source, target⟩ p q := by
  constructor
  · rintro ⟨m, p, n, q, first, second, apart, output, input, kinds⟩
    obtain ⟨mm, mp, source_id⟩ := sound.find?_iff.mp first
    obtain ⟨mn, mq, target_id⟩ := sound.find?_iff.mp second
    have outside := (Node.mem_outputs_iff mp).mpr (by simpa [Port.isOutput] using output)
    have inside := (Node.mem_inputs_iff mq).mpr (by simpa [Port.isInput] using input)
    refine ⟨p, q, mem_outlets.mpr ⟨m, mm, outside⟩, source_id, mem_inlets.mpr ⟨n, mn, inside⟩,
      target_id, ?_, kinds⟩
    rwa [Node.node_of_mem_ports mp, Node.node_of_mem_ports mq]
  · rintro ⟨p, q, joins⟩
    obtain ⟨m, mm, mp, owner⟩ := joins.source
    obtain ⟨n, mn, mq, follower⟩ := joins.target
    refine ⟨m, p, n, q, ?_, ?_, owner ▸ follower ▸ joins.apart, ?_, ?_, joins.kind_eq⟩
    · exact sound.find?_iff.mpr ⟨mm, Node.mem_ports.mpr (.inr mp), joins.source_id⟩
    · exact sound.find?_iff.mpr ⟨mn, Node.mem_ports.mpr (.inl mq), joins.target_id⟩
    · simp [Port.isOutput, Node.isOutput_of_mem_outputs mp]
    · simp [Port.isInput, Node.isInput_of_mem_inputs mq]

/-- The search for a path back, before a connection makes way, rejects just what the cycle test
rejects after it. -/
theorem Sound.refusal?_eq_none_iff_legal :
    Edit.refusal? g source target = none ↔ g.Legal source target := by
  constructor
  · intro accepted
    obtain ⟨p, q, joins, _⟩ := sound.refusal?_eq_none.mp accepted
    have formed : WellFormed g.nodes (g.joining source target) g.nextId := by
      rcases run_connect sound source target with ⟨why, refused, _⟩ | ⟨_, formed, _⟩
      · rw [accepted] at refused
        cases refused
      · rwa [sound.making_eq target] at formed
    exact ⟨sound.ends_fit_iff.mpr ⟨p, q, joins⟩,
      (rewired_hasCycle_eq_false_iff formed.ids_distinct formed.joined).mpr formed.acyclic⟩
  · rintro ⟨ends, noCycle⟩
    obtain ⟨p, q, joins⟩ := sound.ends_fit_iff.mp ends
    have acyclic := (rewired_hasCycle_eq_false_iff sound.ids_distinct
      (sound.joined_joining joins)).mp noCycle
    refine sound.refusal?_eq_none.mpr ⟨p, q, joins, fun path => acyclic q.node ?_⟩
    -- the path back, cut at the target, closes a cycle with the new connection
    have kept : ReflTransGen (Landform.Feeds g.nodes (g.joining source target)) q.node p.node :=
      ReflTransGen.mono (fun a b edge => feeds_joining sound.ids_distinct joins.target_mem
        joins.target_id edge.1 edge.2) _ _ (without_return path)
    have new : Landform.Feeds g.nodes (g.joining source target) p.node q.node :=
      ⟨_, List.mem_append_right _ (List.mem_singleton.mpr rfl), p, q, joins, rfl, rfl⟩
    exact .tail' kept new

end Acceptance

/-- Connecting always answers. It succeeds on legal connections only, on all of them, and it leaves
the connections alone unless it succeeds. -/
theorem Reachable.connect_done_iff (reachable : g.Reachable) (source target : String) :
    ∃ outcome, (g.run (Edit.connect source target)).2 = .ok outcome ∧
      (outcome.isDone = true ↔ g.Legal source target) ∧
      (g.run (Edit.connect source target)).1.connections =
        if outcome.isDone then g.joining source target else g.connections := by
  have sound := reachable.sound
  rw [← sound.refusal?_eq_none_iff_legal]
  rcases run_connect sound source target with
    ⟨why, refused, done⟩ | ⟨accepted, _, what, done⟩ <;> rw [done]
  · exact ⟨.refused why, rfl, by simp [refused, Outcome.isDone], rfl⟩
  · exact ⟨.done what, rfl, by simp [accepted, Outcome.isDone], by
      simp [settled, refreshed, sound.making_eq, joining, Outcome.isDone]⟩

/-- The height gives way to the first coordinate. -/
theorem connectedPair_connect_done_iff :
    connectedPair.connections = [⟨"1_outY", "2_in"⟩] ∧
    connectedPair.joining "1_outX" "2_in" = [⟨"1_outX", "2_in"⟩] ∧
    ∃ outcome, (connectedPair.run (Edit.connect "1_outX" "2_in")).2 = .ok outcome ∧
      (outcome.isDone = true ↔ connectedPair.Legal "1_outX" "2_in") ∧
      (connectedPair.run (Edit.connect "1_outX" "2_in")).1.connections =
        if outcome.isDone then connectedPair.joining "1_outX" "2_in"
        else connectedPair.connections :=
  ⟨by decide +kernel, by decide +kernel, connectedPair_built.reachable.connect_done_iff _ _⟩

end Landform.Graph
