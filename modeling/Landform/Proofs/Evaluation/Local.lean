import Landform.Proofs.Evaluation.Plain
import Landform.Proofs.Graph.Upstream

/-!
# Evaluation is local

The signal of a port depends on the nodes upstream of its node and on the connections into them, at
every depth and within every limit. So a mutation that keeps away from these nodes leaves it as it
is, and removing a node that validation warns about leaves the terrain as it is.

1. `Alike.pulled_eq`: signals in graphs that agree on some nodes.
2. `Alike.terrainAt_eq`: the terrain in graphs that agree on what feeds their terrain output.
3. `Reachable.local`: mutations.
-/

namespace Landform.Graph

variable {g g' : Graph} {among : Int → Prop}

section Agreement

variable (alike : g.Alike g' among) (sound : g.Sound) (sound' : g'.Sound) (limit : DepthLimit)
  (point : Point)

include alike sound sound'

/-! ## 1. Signals -/

/-- The induction is on the port in the first graph. Only ports of the nodes on which the graphs
agree are met, since these nodes hold all that feed them. -/
theorem Alike.pulled_eq (id : String) : ∀ n p, g.wiring.find? id = some (n, p) → among n.id →
    ∀ depth, g'.wiring.portSignal limit point [] depth id =
      g.wiring.portSignal limit point [] depth id := by
  induction id using sound.port_induction with
  | unknown id unknown =>
    intro n p found
    rw [unknown] at found
    cases found
  | output n member p port ih =>
    intro n' p' found inside depth
    have known := sound.find?_output member port
    rw [known] at found
    cases found
    have member' := alike.nodes n member inside
    cases exceeded : limit.isExceeded depth with
    | true =>
      rw [guarded_exceeded limit point known exceeded,
        guarded_exceeded limit point (sound'.find?_output member' port) exceeded]
    | false =>
      rw [pulled_output sound limit point member port exceeded,
        pulled_output sound' limit point member' port exceeded]
      refine congrArg (Option.getD · p.kind.default)
        (Params.rule_congr _ _ rfl (fun spec declared => ?_)
          (alike.isConnected_eq sound sound' member inside))
      have listed : spec.bind n.id ∈ n.inputs := List.mem_map_of_mem declared
      exact ih _ listed n _ (sound.find?_input member listed) inside depth
  | connected c joined ih =>
    intro n q found inside depth
    obtain ⟨_, member, _, port, target, known⟩ := sound.find?_target joined
    rw [known] at found
    cases found
    obtain ⟨m, mm, p, mp, source, owner⟩ := sound.owner_source joined
    have behind : ((g.wiring.incoming? q.id).bind fun c => g.wiring.owner? c.source) = some m := by
      rw [sound.incoming?_iff.mpr ⟨joined, target.symm⟩]
      exact owner
    have feeds := (sound.feeds_of_behind member port behind).2
    have role := Node.id_of_mem_ports (Node.mem_ports.mpr (.inl port))
    have joined' : c ∈ g'.connections :=
      (alike.connections n member inside q.role c (target.symm.trans role)).mpr joined
    cases exceeded : limit.isExceeded depth with
    | true =>
      have known' := sound'.find?_input (alike.nodes n member inside) port
      rw [guarded_exceeded limit point known exceeded,
        guarded_exceeded limit point (target ▸ known') exceeded]
    | false =>
      rw [pulled_connected sound limit point joined exceeded,
        pulled_connected sound' limit point joined' exceeded]
      exact ih m p (source ▸ sound.find?_output mm mp) (alike.closed _ _ feeds inside) (depth + 1)
  | unconnected n member q port unconnected =>
    intro n' q' found inside depth
    rw [sound.find?_input member port] at found
    cases found
    have unconnected' : g'.wiring.incoming? q.id = none := by
      rw [Node.id_of_mem_ports (Node.mem_ports.mpr (.inl port))] at unconnected ⊢
      rw [alike.incoming?_eq sound sound' member inside, unconnected]
    rw [guarded_open sound limit point member port unconnected,
      guarded_open sound' limit point (alike.nodes n member inside) port unconnected']

/-- The ports of nodes on which two graphs agree carry the same signals in both. -/
theorem Alike.portSignal_eq {n : Node} {p : Port} (member : n ∈ g.nodes) (inside : among n.id)
    (port : p ∈ n.ports) : g'.portSignal limit p.id point = g.portSignal limit p.id point :=
  alike.pulled_eq sound sound' limit point p.id n p (sound.find?_iff.mpr ⟨member, port, rfl⟩)
    inside 0

/-! ## 2. The terrain -/

theorem Alike.terrainAt_eq {o : Node} (found : g.output? = some o) (found' : g'.output? = some o)
    (inside : among o.id) : g'.terrainAt limit point = g.terrainAt limit point := by
  have member : o ∈ g.nodes := List.mem_of_mem_filter (List.mem_of_mem_head? found)
  have listed : ∀ q, o.inputs.head? = some q → q ∈ o.ports := fun q first =>
    Node.mem_ports.mpr (.inl (List.mem_of_mem_head? first))
  have input : g'.terrainInput? = g.terrainInput? := by
    simp only [terrainInput?, found, found', Option.bind_eq_bind, Option.bind_some]
    refine Option.bind_congr fun q first => ?_
    have same := alike.incoming?_eq sound sound' member inside q.role
    rw [← Node.id_of_mem_ports (listed q first)] at same
    rw [same]
  rw [terrainAt, terrainAt, Probe.terrain, Probe.terrain, probe, probe, input]
  cases asked : g.terrainInput? with
  | none => rfl
  | some id =>
    obtain ⟨q, first, rfl⟩ : ∃ q, o.inputs.head? = some q ∧ q.id = id := by
      simp only [terrainInput?, found, Option.bind_eq_bind, Option.bind_some,
        Option.bind_eq_some_iff] at asked
      obtain ⟨q, first, _, _, same⟩ := asked
      exact ⟨q, first, by simpa using same⟩
    have signal := alike.portSignal_eq sound sound' limit point member inside (listed q first)
    unfold portSignal at signal
    dsimp only
    rw [signal]

end Agreement

/-! ## 3. Mutations -/

/-- On every reachable graph, a mutation that avoids the nodes upstream of the node of a port leaves
the signal of the port as it was, at every point and within every limit. A node that validation
warns about can be removed, and then the terrain is what it was everywhere. -/
theorem Reachable.local (reachable : g.Reachable) :
    (∀ n ∈ g.nodes, ∀ p ∈ n.ports, ∀ m : Mutation, m.Avoids g (g.Upstream n.id) →
      ∀ limit point,
        (m.apply g).portSignal limit p.id point = g.portSignal limit p.id point) ∧
    ∃ findings, g.validate = .ok findings ∧ ∀ w ∈ findings.warnings,
      (Mutation.remove w.node).succeeds g = true ∧ ∀ limit point,
        ((Mutation.remove w.node).apply g).terrainAt limit point = g.terrainAt limit point := by
  have sound := reachable.sound
  have sound' : ∀ m : Mutation, (m.apply g).Sound := fun m => (reachable.mutate m).sound
  constructor
  · intro n member p port m avoids limit point
    have alike := sound.alike_apply (Upstream.closed n.id) avoids
    exact alike.portSignal_eq sound (sound' m) limit point member .refl port
  · refine ⟨g.findings, sound.validate_eq, fun w warned => ?_⟩
    obtain ⟨succeeds, _, o, found, found', alike⟩ := sound.remove_warning warned
    exact ⟨succeeds, fun limit point =>
      alike.terrainAt_eq sound (sound' _) limit point found found' .refl⟩

/-- A terrain, its output, and a height that nothing uses. -/
def spare : Graph :=
  [Mutation.add "terrain-type" (.int 0) (.int 0), .add "terrain-output" (.int 9) (.int 0),
    .add "position" (.int 0) (.int 9), .add "abs" (.int 9) (.int 9),
    .connect "1_out" "2_in", .connect "3_outY" "4_in"].foldl Mutation.apply (empty 7)

theorem spare_built : spare.Built :=
  (Built.empty 7).run _

/-- Taking the height away from the node that uses it, and removing it, beside the terrain. -/
theorem spare_local :
    spare.terrainAt (some 1) ⟨1, 2, 3⟩ = some ⟨"Stone", .solid, "#888888"⟩ ∧
    (Mutation.disconnect "3_outY" "4_in").succeeds spare = true ∧
    (∀ limit point, ((Mutation.disconnect "3_outY" "4_in").apply spare).portSignal limit "2_in"
      point = spare.portSignal limit "2_in" point) ∧
    spare.warnings = [⟨3, .position⟩, ⟨4, .abs⟩] ∧
    ∀ limit point, ((Mutation.remove 3).apply spare).terrainAt limit point =
      spare.terrainAt limit point := by
  have sound := spare_built.reachable.sound
  have outside : ∀ n q, spare.wiring.find? "4_in" = some (n, q) → ¬ spare.Upstream 2 n.id := by
    have apart : (spare.wiring.find? "4_in").all
        (fun entry => !(spare.feeding 2).contains entry.1.id) = true := by decide +kernel
    intro n q found upstream
    have reached := sound.mem_feeding.mpr ⟨by decide +kernel, upstream⟩
    rw [found] at apart
    simp [reached] at apart
  have input : (spare.wiring.find? "2_in").map (·.1.id) = some 2 := by decide +kernel
  obtain ⟨⟨n, p⟩, found, id⟩ := Option.map_eq_some_iff.mp input
  obtain ⟨member, port, same⟩ := sound.find?_iff.mp found
  obtain ⟨signals, findings, validated, warned⟩ := spare_built.reachable.local
  have warnings : spare.warnings = [⟨3, .position⟩, ⟨4, .abs⟩] := by decide +kernel
  have idle : (⟨3, .position⟩ : Warning) ∈ spare.warnings := warnings ▸ List.mem_cons_self
  rw [sound.validate_eq] at validated
  cases validated
  refine ⟨by decide +kernel, by decide +kernel, fun limit point => ?_, warnings, ?_⟩
  · exact same ▸ signals n member p port _ (id ▸ outside) limit point
  · exact (warned _ idle).2

end Landform.Graph
