import Landform.Proofs.Graph.Order
import Landform.Validation

/-!
# What validation tells

Validation of a sound graph never fails. A graph without problems has a terrain output, and every
required input of its nodes is connected.

1. `Sound.validate_eq`: validation gives the findings.
2. `Sound.wired`: what follows from the absence of problems.
-/

namespace Landform.Graph

variable {g : Graph}

/-! ## 1. Validation does not fail -/

theorem mapM_eq_ok {ε α β : Type} {f : α → Except ε β} {items : List α}
    (each : ∀ a ∈ items, ∃ b, f a = .ok b) : ∃ results, items.mapM f = .ok results := by
  induction items with
  | nil => exact ⟨[], rfl⟩
  | cons a rest ih =>
    obtain ⟨b, first⟩ := each a List.mem_cons_self
    obtain ⟨results, others⟩ := ih fun a member => each a (List.mem_cons_of_mem _ member)
    refine ⟨b :: results, ?_⟩
    rw [List.mapM_cons, first, others]
    rfl

theorem Sound.feeders_eq_ok (sound : g.Sound) (id : Int) : ∃ nodes, g.feeders id = .ok nodes := by
  unfold feeders
  split
  · exact ⟨[], rfl⟩
  · refine mapM_eq_ok fun c listed => ?_
    obtain ⟨q, _, incoming⟩ := List.mem_filterMap.mp listed
    obtain ⟨m, _, _, _, _, owner⟩ := sound.owner_source (sound.incoming?_iff.mp incoming).1
    exact ⟨m, by rw [owner]⟩

theorem Sound.validate_eq (sound : g.Sound) : g.validate = .ok g.findings := by
  have none : g.missingSource? = none := by
    unfold missingSource?
    cases g.output? with
    | none => rfl
    | some output =>
      refine List.findSome?_eq_none_iff.mpr fun id _ => ?_
      obtain ⟨nodes, fed⟩ := sound.feeders_eq_ok id
      rw [fed]
  rw [validate, none]

/-! ## 2. Graphs without problems -/

/-- The terrain output is there, and no required input is open. -/
structure Wired (g : Graph) : Prop where
  output : ∃ n, g.output? = some n
  connected : ∀ n ∈ g.nodes, ∀ q ∈ n.inputs, q.optional = false →
    ∃ c ∈ g.connections, c.target = q.id

theorem mem_nodes_of_output? {n : Node} (found : g.output? = some n) :
    n ∈ g.nodes ∧ n.kind = .terrainOutput := by
  have listed := List.mem_filter.mp (List.mem_of_mem_head? found)
  exact ⟨listed.1, by simpa [Node.isOutput] using listed.2⟩

theorem Sound.wired (sound : g.Sound) (valid : g.problems = []) : g.Wired := by
  obtain ⟨outputs, rest⟩ := List.append_eq_nil_iff.mp (List.append_eq_nil_iff.mp valid).1
  have output : ∃ n, g.output? = some n ∧ g.wiring.isConnected n "in" = true := by
    unfold output?
    unfold outputProblems at outputs
    cases listed : g.outputs with
    | nil =>
      rw [listed] at outputs
      cases outputs
    | cons n others =>
      rw [listed] at outputs
      have connected := (List.append_eq_nil_iff.mp outputs).2
      refine ⟨n, rfl, ?_⟩
      by_contra disconnected
      rw [if_neg disconnected] at connected
      cases connected
  obtain ⟨o, found, connected⟩ := output
  refine ⟨⟨o, found⟩, fun n member q port required => ?_⟩
  suffices known : (g.wiring.incoming? q.id).isSome by
    obtain ⟨c, incoming⟩ := Option.isSome_iff_exists.mp known
    obtain ⟨listed, target⟩ := sound.incoming?_iff.mp incoming
    exact ⟨c, listed, target⟩
  by_cases main : n.id = o.id
  · obtain ⟨mo, kind⟩ := mem_nodes_of_output? found
    have same := node_eq_of_id sound.ids_distinct member mo main
    subst same
    have only : q.role = "in" := by
      have inputs : n.inputs = [(PortSpec.input "in" "Terrain" .terrain false).bind n.id] := by
        rw [Node.inputs, kind]
        rfl
      rw [inputs, List.mem_singleton] at port
      rw [port]
      rfl
    rw [Node.id_of_mem_ports (Node.mem_ports.mpr (.inl port)), only]
    exact connected
  · by_contra disconnected
    have other : n ∈ g.nodes.filter fun m => !g.isMainOutput m := by
      refine List.mem_filter.mpr ⟨member, ?_⟩
      simpa [isMainOutput, found] using fun same => main same.symm
    have none := List.flatMap_eq_nil_iff.mp rest n other
    have clean := List.map_eq_nil_iff.mp none
    refine List.filter_eq_nil_iff.mp clean q port ?_
    simpa [required] using disconnected

end Landform.Graph
