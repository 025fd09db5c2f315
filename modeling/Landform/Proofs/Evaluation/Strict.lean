import Landform.Proofs.Evaluation.Inquiry
import Landform.Proofs.Evaluation.Walk

/-!
# Strict evaluation

The strict recursion puts no default for a port that the structure of the graph leaves without a
signal: it fails at an unknown port, beyond the limit, at a port that is met again, and at an open
input. Only where the rule of a node fails does the port keep its default. On a valid graph, within
a limit of at least the number of nodes, the strict recursion never fails. Each of its four guards
is kept by one fact: a rule asks for required and for connected inputs only, a connection comes from
an output of the graph, the ports on the way rank above the port that is asked for, and a chain of
connections is no longer than the number of nodes.

1. `Wiring.strictSignal`: the strict recursion, and its equations.
2. `Supplied`, `Wired.supplied_of_offered`: the ports that a valid graph supplies with a signal.
3. `Sound.strict_eq_ok`: strict evaluation of a supplied port.
4. `Reachable.strict_terrain`: strict evaluation of the terrain.
-/

namespace Landform

/-! ## 1. The strict recursion -/

/-- Why the strict recursion stops at a port. -/
inductive Fault where
  | unknown (port : String)
  | tooDeep (port : String)
  | metAgain (port : String)
  | unconnected (port : String)
deriving Repr, DecidableEq

namespace Wiring

/-- The signal of a port, unless the structure of the graph leaves it or a port that it is pulled
from without one. -/
def strictSignal (w : Wiring) (limit : DepthLimit) (point : Point) (visiting : List String)
    (depth : Nat) (id : String) : Except Fault Signal :=
  match _found : w.find? id with
  | none => .error (.unknown id)
  | some (node, port) =>
    if limit.isExceeded depth then .error (.tooDeep id)
    else if _fresh : visiting.contains id then .error (.metAgain id)
    else if port.isOutput then do
      let inquiry := node.params.inquiry port.role point (w.isConnected node)
      let answer ← inquiry.run fun role =>
        strictSignal w limit point (id :: visiting) depth (portId node.id role)
      return answer.getD port.kind.default
    else
      match w.incoming? id with
      | none => .error (.unconnected id)
      | some c => strictSignal w limit point (id :: visiting) (depth + 1) c.source
termination_by w.unvisited visiting
decreasing_by
  all_goals exact unvisited_cons_lt _found (by simpa using _fresh)

end Wiring

namespace Graph

/-- The terrain at a point, read strictly. -/
def strictTerrain (g : Graph) (limit : DepthLimit) (point : Point) :
    Except Fault (Option Terrain) :=
  match g.terrainInput? with
  | none => .ok none
  | some input => do
    match ← g.wiring.strictSignal limit point [] 0 input with
    | .terrain t => return some t
    | .number _ => return none

section Equations

variable {g : Graph} (limit : DepthLimit) (point : Point) {visiting : List String} {depth : Nat}

/-- The strict recursion at a port of the graph. -/
theorem strict_eq {id : String} {n : Node} {p : Port} (known : g.wiring.find? id = some (n, p)) :
    g.wiring.strictSignal limit point visiting depth id =
      if limit.isExceeded depth then .error (.tooDeep id)
      else if visiting.contains id then .error (.metAgain id)
      else if p.isOutput then do
        let answer ← (n.params.inquiry p.role point (g.wiring.isConnected n)).run fun role =>
          g.wiring.strictSignal limit point (id :: visiting) depth (portId n.id role)
        return answer.getD p.kind.default
      else match g.wiring.incoming? id with
        | none => .error (.unconnected id)
        | some c => g.wiring.strictSignal limit point (id :: visiting) (depth + 1) c.source := by
  rw [Wiring.strictSignal]
  split
  · next found =>
    rw [known] at found
    cases found
  · next found =>
    rw [known] at found
    cases found
    simp only [dite_eq_ite]

variable (sound : g.Sound)

include sound

theorem strict_output {n : Node} {p : Port} (member : n ∈ g.nodes) (port : p ∈ n.outputs)
    (within : limit.isExceeded depth = false) (fresh : p.id ∉ visiting) :
    g.wiring.strictSignal limit point visiting depth p.id = do
      let answer ← (n.params.inquiry p.role point (g.wiring.isConnected n)).run fun role =>
        g.wiring.strictSignal limit point (p.id :: visiting) depth (portId n.id role)
      return answer.getD p.kind.default := by
  rw [strict_eq limit point (sound.find?_output member port), if_neg (by simp [within]),
    if_neg (by simpa using fresh), if_pos (isOutput_of_mem_outputs port)]

theorem strict_connected {c : Connection} (member : c ∈ g.connections)
    (within : limit.isExceeded depth = false) (fresh : c.target ∉ visiting) :
    g.wiring.strictSignal limit point visiting depth c.target =
      g.wiring.strictSignal limit point (c.target :: visiting) (depth + 1) c.source := by
  obtain ⟨n, _, q, port, _, known⟩ := sound.find?_target member
  rw [strict_eq limit point known, if_neg (by simp [within]), if_neg (by simpa using fresh),
    if_neg (by simp [isOutput_of_mem_inputs port]), sound.incoming?_iff.mpr ⟨member, rfl⟩]

end Equations

/-! ## 2. Supplied ports -/

/-- A port that gets a signal without any default: an output, or an input with a connection. -/
def Supplied (g : Graph) (id : String) : Prop :=
  ∃ n p, g.wiring.find? id = some (n, p) ∧
    (p.isOutput = false → ∃ c ∈ g.connections, c.target = id)

variable {g : Graph}

/-- The source of a connection is supplied. -/
theorem Sound.supplied_source (sound : g.Sound) {c : Connection} (member : c ∈ g.connections) :
    g.Supplied c.source := by
  obtain ⟨m, listed, p, port, same, _⟩ := sound.owner_source member
  refine ⟨m, p, same ▸ sound.find?_output listed port, fun input => ?_⟩
  rw [isOutput_of_mem_outputs port] at input
  cases input

/-- On a valid graph an input that a rule may ask for is supplied. -/
theorem Wired.supplied_of_offered (wired : g.Wired) (sound : g.Sound) {n : Node}
    (member : n ∈ g.nodes) {role : String}
    (offered : n.params.Offered (g.wiring.isConnected n) role) :
    (∃ q ∈ n.inputs, q.id = portId n.id role) ∧ g.Supplied (portId n.id role) := by
  obtain ⟨spec, declared, rfl, reason⟩ := offered
  have listed : spec.bind n.id ∈ n.inputs := List.mem_map_of_mem declared
  refine ⟨⟨_, listed, rfl⟩, n, spec.bind n.id, sound.find?_input member listed, fun _ => ?_⟩
  rcases reason with required | connected
  · exact wired.connected n member _ listed required
  · obtain ⟨c, incoming⟩ := Option.isSome_iff_exists.mp connected
    exact ⟨c, sound.incoming?_iff.mp incoming⟩

/-! ## 3. Strict signals -/

/-- The strict recursion agrees with the guarded one on a supplied port, from any ports on the way
that rank above it and any depth that leaves room for the chains of connections behind it. -/
theorem Sound.strict_eq_ok (sound : g.Sound) (wired : g.Wired) (limit : DepthLimit) (point : Point)
    (id : String) : ∀ visiting depth, (∀ v ∈ visiting, g.rank id < g.rank v) →
      (∀ k, g.Chain id k → limit.isExceeded (depth + k) = false) → g.Supplied id →
      g.wiring.strictSignal limit point visiting depth id =
        .ok (g.wiring.portSignal limit point visiting depth id) := by
  induction id using sound.port_induction with
  | unknown id unknown =>
    rintro _ _ _ _ ⟨n, p, found, _⟩
    rw [unknown] at found
    cases found
  | output n member p port ih =>
    intro visiting depth above room _
    have within : limit.isExceeded depth = false := room 0 (.here _)
    have fresh : p.id ∉ visiting := fun met => Nat.lt_irrefl _ (above _ met)
    rw [strict_output limit point sound member port within fresh,
      guarded_output sound limit point member port within fresh, Params.rule_eq_answer]
    -- the rule asks for supplied inputs only, so that the inquiry runs through
    let inquiry := n.params.inquiry p.role point (g.wiring.isConnected n)
    have asks : ∀ role ∈
        inquiry.asked (g.guardedInputs limit point (p.id :: visiting) depth n).input,
        g.wiring.strictSignal limit point (p.id :: visiting) depth (portId n.id role) =
          .ok (g.wiring.portSignal limit point (p.id :: visiting) depth (portId n.id role)) := by
      intro role asked
      obtain ⟨⟨q, input, same⟩, supplied⟩ := wired.supplied_of_offered sound member
        (Params.asked_inquiry _ _ _ _ _ role asked)
      rw [← same] at supplied ⊢
      have lower := sound.rank_input_lt member port input
      exact ih q input (p.id :: visiting) depth
        (List.forall_mem_cons.mpr ⟨lower, fun v met => lower.trans (above v met)⟩)
        (fun k chain => room k (.cross member port input chain)) supplied
    rw [Inquiry.run_eq_ok inquiry asks]
    rfl
  | connected c member ih =>
    intro visiting depth above room _
    have within : limit.isExceeded depth = false := room 0 (.here _)
    have fresh : c.target ∉ visiting := fun met => Nat.lt_irrefl _ (above _ met)
    have lower := sound.rank_source_lt member
    rw [strict_connected limit point sound member within fresh,
      guarded_connected sound limit point member within fresh]
    refine ih _ _ (List.forall_mem_cons.mpr ⟨lower, fun v met => lower.trans (above v met)⟩)
      (fun k chain => ?_) (sound.supplied_source member)
    rw [Nat.add_assoc, Nat.add_comm 1 k]
    exact room (k + 1) (.follow member chain)
  | unconnected n member q port open_ =>
    rintro _ _ _ _ ⟨n', q', found, input⟩
    rw [sound.find?_input member port] at found
    cases found
    obtain ⟨c, joined, target⟩ := input (isOutput_of_mem_inputs port)
    rw [sound.incoming?_iff.mpr ⟨joined, target⟩] at open_
    cases open_

/-! ## 4. The terrain -/

/-- On every reachable graph without problems, at every point and within every limit of at least the
number of nodes, there is an input that delivers the terrain, and the strict recursion meets no
unknown port, no port beyond the limit, no port again and no open input, and ends with the same
signal and the same terrain as evaluation does. -/
theorem Reachable.strict_terrain (reachable : g.Reachable) {findings : Findings}
    (validated : g.validate = .ok findings) (valid : findings.isValid = true) {limit : DepthLimit}
    (deep : limit.isExceeded g.nodes.length = false) (point : Point) :
    (∃ input, g.terrainInput? = some input ∧ g.wiring.strictSignal limit point [] 0 input =
      .ok (g.portSignal limit input point)) ∧
    g.strictTerrain limit point = .ok (g.terrainAt limit point) := by
  have sound := reachable.sound
  rw [sound.validate_eq] at validated
  cases validated
  have wired : g.Wired := sound.wired (List.isEmpty_iff.mp valid)
  obtain ⟨o, found⟩ := wired.output
  have member := (mem_nodes_of_output? found).1
  have required : PortSpec.input "in" "Terrain" .terrain false ∈ o.kind.inputs :=
    inputs_of_output? found ▸ List.mem_singleton_self _
  obtain ⟨_, supplied⟩ := wired.supplied_of_offered sound member ⟨_, required, rfl, .inl rfl⟩
  have strict : g.wiring.strictSignal limit point [] 0 (portId o.id "in") =
      .ok (g.wiring.portSignal limit point [] 0 (portId o.id "in")) := by
    refine sound.strict_eq_ok wired limit point _ [] 0 (fun _ none => absurd none List.not_mem_nil)
      (fun k chain => ?_) supplied
    rw [Nat.zero_add]
    exact DepthLimit.isExceeded_mono deep (chain.le_length sound)
  have input : g.terrainInput? = some (portId o.id "in") := by
    obtain ⟨n, p, known, connected⟩ := supplied
    have port := sound.find?_input member (List.mem_map_of_mem required)
    cases known.symm.trans port
    obtain ⟨c, joined, target⟩ := connected rfl
    have incoming : g.wiring.incoming? (portId o.id "in") = some c :=
      sound.incoming?_iff.mpr ⟨joined, target⟩
    rw [terrainInput?_eq found, Wiring.isConnected, incoming]
    rfl
  refine ⟨⟨_, input, strict⟩, ?_⟩
  unfold strictTerrain terrainAt Probe.terrain probe
  simp only [input]
  rw [strict]
  show (match g.wiring.portSignal limit point [] 0 (portId o.id "in") with
    | .terrain t => Except.ok (some t)
    | .number _ => .ok none) = _
  cases g.wiring.portSignal limit point [] 0 (portId o.id "in") <;> rfl

/-- The beach with both comparisons against the first coordinate. -/
def shore : Graph :=
  (Mutation.connect "1_outX" "3_in2").apply beach

theorem shore_built : shore.Built :=
  .mutate _ beach_built

/-- The shore is valid although a branch of a comparison is open. Within a limit of less than the
number of nodes the strict recursion can fail. -/
theorem shore_strict_terrain :
    shore.validate = .ok ⟨[], []⟩ ∧
    shore.wiring.incoming? "3_useTrue" = none ∧
    shore.strictTerrain (some 6) ⟨1, 2, 3⟩ = .ok (some ⟨"Sand", .solid, "#888888"⟩) ∧
    shore.strictTerrain (some 1) ⟨1, 2, 3⟩ = .error (.tooDeep "1_outY") ∧
    ∀ point, shore.strictTerrain (some 6) point = .ok (shore.terrainAt (some 6) point) := by
  have validated : shore.validate = .ok ⟨[], []⟩ := by
    rw [shore_built.sound.validate_eq]
    exact congrArg Except.ok (by decide +kernel)
  have deep : DepthLimit.isExceeded (some 6) shore.nodes.length = false := by decide +kernel
  have strict := fun point => (shore_built.reachable.strict_terrain validated rfl deep point).2
  refine ⟨validated, by decide +kernel, ?_, by decide +kernel, strict⟩
  rw [strict]
  exact congrArg Except.ok (by decide +kernel)

end Graph

end Landform
