import Landform.Proofs.Evaluation.Plain
import Landform.Proofs.Validation

/-!
# Evaluation within a deep limit

A limit of at least the number of nodes admits every chain of connections, so that the signals
follow the connections without any default for depth. `Needed` are the outputs that the terrain at a
point depends on: those behind the numbers of a needed node, and the one behind the branch that a
needed comparison takes. A point is flawless when no rule fails on a needed output.

1. `deep_output`, `deep_behind`, `deep_open`, `terrainAt_eq`: signals within a deep limit.
2. `Needed`, `Flawless`, `succeeds_of_tame`: what the terrain at a point depends on.
3. `OpenEnd`: the open branch at which a way along the taken branches ends.
-/

namespace Landform.Graph

/-- The output that feeds an input of a node, with its node. -/
def behind? (g : Graph) (id : Int) (role : String) : Option (Node × Port) :=
  (g.wiring.incoming? (portId id role)).bind fun c => g.wiring.find? c.source

/-- What the rules of a node see at a point. -/
def surroundings (g : Graph) (limit : DepthLimit) (point : Point) (n : Node) : Surroundings :=
  { point := point
    input := fun role => g.portSignal limit (portId n.id role) point
    isConnected := g.wiring.isConnected n }

/-- What the rule of a node gives for one of its outputs, if it does not fail. -/
def ruleSignal? (g : Graph) (limit : DepthLimit) (point : Point) (n : Node) (p : Port) :
    Option Signal :=
  n.params.rule p.role (g.surroundings limit point n)

/-- The branch that a comparison takes at a point. -/
def taken? (g : Graph) (limit : DepthLimit) (point : Point) (n : Node) (test : Test) :
    Option Bool :=
  test.operator.decide? (g.portSignal limit (portId n.id "in1") point)
    (g.portSignal limit (portId n.id "in2") point)

variable {g : Graph} (sound : g.Sound) {limit : DepthLimit} (point : Point)

/-! ## 1. Signals -/

/-- What is known of the output that feeds an input. -/
structure Feeding (g : Graph) (n : Node) (spec : PortSpec) (m : Node) (q : Port) : Prop where
  member : m ∈ g.nodes
  output : q ∈ m.outputs
  kind_eq : q.kind = spec.kind
  joined : ∃ c ∈ g.connections, c.target = portId n.id spec.role ∧ c.source = q.id
  feeds : g.Feeds m.id n.id
  rank_lt : ∀ p ∈ n.outputs, g.rank q.id < g.rank p.id

include sound

theorem Sound.feeding {n m : Node} {spec : PortSpec} {q : Port} (member : n ∈ g.nodes)
    (declared : spec ∈ n.kind.inputs) (behind : g.behind? n.id spec.role = some (m, q)) :
    g.Feeding n spec m q := by
  obtain ⟨c, incoming, found⟩ := Option.bind_eq_some_iff.mp behind
  obtain ⟨joined, target⟩ := sound.incoming?_iff.mp incoming
  have input : spec.bind n.id ∈ n.inputs := List.mem_map_of_mem declared
  obtain ⟨p, q', joins⟩ := sound.joined c joined
  obtain ⟨k, mk, mp, follower⟩ := joins.source
  obtain ⟨n', mn, mq, owner⟩ := joins.target
  have known := sound.find?_output mk mp
  rw [joins.source_id, found] at known
  cases known
  obtain ⟨same, rfl⟩ := port_unique sound.ids_distinct mn (Node.mem_ports.mpr (.inl mq)) member
    (Node.mem_ports.mpr (.inl input)) (joins.target_id.trans target)
  subst same
  refine ⟨mk, mp, joins.kind_eq, ⟨c, joined, target, joins.source_id.symm⟩,
    ⟨c, joined, _, _, joins, follower.symm, owner.symm⟩, fun p port => ?_⟩
  rw [joins.source_id]
  exact sound.rank_behind_lt member port input joined target

omit sound in
/-- The only input of a terrain output. -/
theorem inputs_of_output? {o : Node} (found : g.output? = some o) :
    o.kind.inputs = [PortSpec.input "in" "Terrain" .terrain false] := by
  rw [(mem_nodes_of_output? found).2]
  rfl

omit sound in
/-- The input that delivers the terrain, unless it is open. -/
theorem terrainInput?_eq {o : Node} (found : g.output? = some o) :
    g.terrainInput? =
      if g.wiring.isConnected o "in" then some (portId o.id "in") else none := by
  have head : o.inputs.head? = some ((PortSpec.input "in" "Terrain" .terrain false).bind o.id) := by
    rw [Node.inputs, inputs_of_output? found]
    rfl
  rw [terrainInput?, found, Option.bind_eq_bind, Option.bind_some, head, Option.bind_eq_bind,
    Option.bind_some, Wiring.isConnected]
  show ((g.wiring.incoming? (portId o.id "in")).bind fun _ => some (portId o.id "in")) = _
  cases g.wiring.incoming? (portId o.id "in") <;> rfl

/-- The output behind the terrain output carries terrain. -/
theorem Sound.feeding_output {o n : Node} {p : Port} (found : g.output? = some o)
    (behind : g.behind? o.id "in" = some (n, p)) :
    g.Feeding o (PortSpec.input "in" "Terrain" .terrain false) n p :=
  sound.feeding (mem_nodes_of_output? found).1
    (inputs_of_output? found ▸ List.mem_singleton_self _) behind

/-- An input is open exactly when nothing feeds it. -/
theorem Sound.behind?_eq_none {id : Int} {role : String} :
    g.behind? id role = none ↔ g.wiring.incoming? (portId id role) = none := by
  unfold behind?
  cases incoming : g.wiring.incoming? (portId id role) with
  | none => simp
  | some c =>
    obtain ⟨n, member, p, port, source, _⟩ := sound.owner_source (sound.incoming?_iff.mp incoming).1
    have known := sound.find?_output member port
    rw [source] at known
    simp [known]

omit sound in
theorem DepthLimit.isExceeded_mono {k l : Nat} (deep : limit.isExceeded l = false) (le : k ≤ l) :
    limit.isExceeded k = false := by
  cases limit with
  | none => rfl
  | some greatest =>
    simp only [DepthLimit.isExceeded, decide_eq_false_iff_not] at deep ⊢
    omega

variable (deep : limit.isExceeded g.nodes.length = false)

include deep

theorem deep_eq_plainSignal (id : String) :
    g.portSignal limit id point = g.plainSignal sound point id := by
  refine pulled_eq_plainSignal sound limit point id 0 fun k chain => ?_
  rw [Nat.zero_add]
  exact DepthLimit.isExceeded_mono deep (chain.le_length sound)

/-- An output has what the rule of its node gives, or the default of its kind. -/
theorem deep_output {n : Node} {p : Port} (member : n ∈ g.nodes) (port : p ∈ n.outputs) :
    g.portSignal limit p.id point = (g.ruleSignal? limit point n p).getD p.kind.default :=
  portSignal_output sound limit point member port
    (DepthLimit.isExceeded_mono deep (Nat.zero_le _))

/-- A connected input has the signal of the output that feeds it. -/
theorem deep_behind {n m : Node} {spec : PortSpec} {q : Port} (feeding : g.Feeding n spec m q) :
    g.portSignal limit (portId n.id spec.role) point = g.portSignal limit q.id point := by
  obtain ⟨c, joined, target, source⟩ := feeding.joined
  rw [deep_eq_plainSignal sound point deep, deep_eq_plainSignal sound point deep, ← target,
    ← source]
  exact plainSignal_connected sound point joined

/-- An open input has the default of its kind. -/
theorem deep_open {n : Node} {spec : PortSpec} (member : n ∈ g.nodes)
    (declared : spec ∈ n.kind.inputs) (unfed : g.behind? n.id spec.role = none) :
    g.portSignal limit (portId n.id spec.role) point = spec.kind.default := by
  have input : spec.bind n.id ∈ n.inputs := List.mem_map_of_mem declared
  have unconnected : g.wiring.incoming? (spec.bind n.id).id = none :=
    sound.behind?_eq_none.mp unfed
  rw [deep_eq_plainSignal sound point deep]
  exact plainSignal_open sound point member input unconnected

/-- The signal of a comparison is that of the taken branch. -/
theorem portSignal_compare {n : Node} {p : Port} {test : Test} (member : n ∈ g.nodes)
    (port : p ∈ n.outputs) (params : n.params = .compare test) {taken : Bool}
    (decides : g.taken? limit point n test = some taken) :
    g.portSignal limit p.id point =
      if g.wiring.isConnected n (test.branch taken).1 then
        g.portSignal limit (portId n.id (test.branch taken).1) point
      else .number (test.branch taken).2 := by
  rw [deep_output sound point deep member port, ruleSignal?, params, Params.rule]
  unfold taken? at decides
  simp only [surroundings, decides]
  rfl

/-- The terrain at a point is what the output behind the terrain output carries. -/
theorem terrainAt_eq {o n : Node} {p : Port} (found : g.output? = some o)
    (behind : g.behind? o.id "in" = some (n, p)) :
    g.terrainAt limit point = match g.portSignal limit p.id point with
      | .terrain t => some t
      | .number _ => none := by
  have feeding := sound.feeding_output found behind
  obtain ⟨c, incoming, _⟩ := Option.bind_eq_some_iff.mp behind
  have connected : g.wiring.isConnected o "in" = true := by
    rw [Wiring.isConnected, incoming]
    rfl
  have input := terrainInput?_eq found
  rw [if_pos connected] at input
  rw [← deep_behind sound point deep feeding, terrainAt, Probe.terrain, probe, input]
  rfl

/-- A number output carries a number, whether its rule fails or not. -/
theorem number_of_output {n : Node} {p : Port} (member : n ∈ g.nodes) (port : p ∈ n.outputs)
    (float : p.kind = .float) : ∃ x, g.portSignal limit p.id point = .number x := by
  rw [deep_output sound point deep member port]
  cases given : g.ruleSignal? limit point n p with
  | none => exact ⟨0, by rw [float]; rfl⟩
  | some signal =>
    obtain ⟨out, declared, rfl⟩ := List.mem_map.mp port
    exact Params.rule_number declared float given

/-- So does a number input, open or not. -/
theorem number_of_input {n : Node} {spec : PortSpec} (member : n ∈ g.nodes)
    (declared : spec ∈ n.kind.inputs) (float : spec.kind = .float) :
    ∃ x, g.portSignal limit (portId n.id spec.role) point = .number x := by
  cases behind : g.behind? n.id spec.role with
  | none => exact ⟨0, by rw [deep_open sound point deep member declared behind, float]; rfl⟩
  | some entry =>
    have feeding := sound.feeding member declared behind
    rw [deep_behind sound point deep feeding]
    exact number_of_output sound point deep feeding.member feeding.output
      (feeding.kind_eq.trans float)

omit deep

/-- Behind the terrain output of a graph without problems stands an output that carries terrain. -/
theorem Wired.source (wired : g.Wired) : ∃ o n p, g.output? = some o ∧
    g.behind? o.id "in" = some (n, p) ∧ p.kind = .terrain := by
  obtain ⟨o, found⟩ := wired.output
  have member := (mem_nodes_of_output? found).1
  have declared : PortSpec.input "in" "Terrain" .terrain false ∈ o.kind.inputs :=
    inputs_of_output? found ▸ List.mem_singleton_self _
  obtain ⟨c, joined, target⟩ := wired.connected o member _ (List.mem_map_of_mem declared) rfl
  have incoming : g.wiring.incoming? (portId o.id "in") = some c :=
    sound.incoming?_iff.mpr ⟨joined, target⟩
  cases behind : g.behind? o.id "in" with
  | none =>
    rw [sound.behind?_eq_none.mp behind] at incoming
    cases incoming
  | some entry =>
    exact ⟨o, entry.1, entry.2, found, behind, (sound.feeding_output found behind).kind_eq⟩

omit sound

/-! ## 2. What the terrain depends on -/

/-- The outputs that the terrain at a point depends on. -/
inductive Needed (g : Graph) (limit : DepthLimit) (point : Point) : Node → Port → Prop
  | terrain {o n : Node} {p : Port} : g.output? = some o → g.behind? o.id "in" = some (n, p) →
      Needed g limit point n p
  | number {n m : Node} {p q : Port} {spec : PortSpec} : Needed g limit point n p →
      spec ∈ n.kind.inputs → spec.kind = .float → g.behind? n.id spec.role = some (m, q) →
      Needed g limit point m q
  | branch {n m : Node} {p q : Port} {test : Test} {taken : Bool} : Needed g limit point n p →
      n.params = .compare test → g.taken? limit point n test = some taken →
      g.behind? n.id (test.branch taken).1 = some (m, q) → Needed g limit point m q

/-- Each branch of a comparison is a declared terrain input. -/
theorem branch_declared {n : Node} {test : Test} (params : n.params = .compare test)
    (taken : Bool) :
    ∃ spec ∈ n.kind.inputs, spec.role = (test.branch taken).1 ∧ spec.kind = .terrain := by
  obtain ⟨spec, declared, role, kind⟩ := Kind.exists_branch taken
  refine ⟨spec, ?_, role.trans (by cases taken <;> rfl), kind⟩
  rw [Node.kind, params]
  exact declared

/-- What the terrain depends on are outputs of nodes of the graph. -/
theorem Needed.output (sound : g.Sound) {point : Point} {n : Node} {p : Port}
    (needed : g.Needed limit point n p) : n ∈ g.nodes ∧ p ∈ n.outputs := by
  induction needed with
  | terrain found behind =>
    have feeding := sound.feeding_output found behind
    exact ⟨feeding.member, feeding.output⟩
  | number _ declared _ behind ih =>
    have feeding := sound.feeding ih.1 declared behind
    exact ⟨feeding.member, feeding.output⟩
  | @branch n m p q test taken _ params _ behind ih =>
    obtain ⟨spec, declared, role, _⟩ := branch_declared params taken
    rw [← role] at behind
    have feeding := sound.feeding ih.1 declared behind
    exact ⟨feeding.member, feeding.output⟩

/-- No rule fails on an output that the terrain at a point depends on. -/
def Flawless (g : Graph) (limit : DepthLimit) (point : Point) : Prop :=
  ∀ n p, g.Needed limit point n p → (g.ruleSignal? limit point n p).isSome = true

/-- The rule of a node with tame parameters succeeds. -/
theorem succeeds_of_tame (sound : g.Sound) (deep : limit.isExceeded g.nodes.length = false)
    {n : Node} {p : Port} (tame : n.params.isTame = true) (member : n ∈ g.nodes)
    (port : p ∈ n.outputs) : (g.ruleSignal? limit point n p).isSome = true := by
  obtain ⟨out, declared, rfl⟩ := List.mem_map.mp port
  exact Params.rule_isSome tame declared fun spec asked float =>
    number_of_input sound point deep member asked float

/-- Tame parameters throughout make every point flawless. -/
theorem flawless_of_tame (sound : g.Sound) (deep : limit.isExceeded g.nodes.length = false)
    (tame : ∀ n ∈ g.nodes, n.params.isTame = true) : g.Flawless limit point := by
  intro n p needed
  obtain ⟨member, port⟩ := needed.output sound
  exact succeeds_of_tame point sound deep (tame n member) member port

/-- With each of some outputs come those that feed its node with numbers, and no rule fails on any
of them. -/
structure Firm (g : Graph) (limit : DepthLimit) (point : Point) (among : Node → Port → Prop) :
    Prop where
  closed : ∀ {n m : Node} {p q : Port} {spec : PortSpec}, among n p → spec ∈ n.kind.inputs →
    spec.kind = .float → g.behind? n.id spec.role = some (m, q) → among m q
  succeeds : ∀ {n : Node} {p : Port}, among n p → (g.ruleSignal? limit point n p).isSome = true

theorem Flawless.firm {g : Graph} {limit : DepthLimit} {point : Point}
    (flawless : g.Flawless limit point) : g.Firm limit point (g.Needed limit point) :=
  ⟨.number, fun needed => flawless _ _ needed⟩

/-! ## 3. Open branches -/

/-- Along the branches that comparisons take at a point, the way from a node ends at an open branch,
which stands for a number. -/
inductive OpenEnd (g : Graph) (limit : DepthLimit) (point : Point) : Node → Float → Prop
  | here {n : Node} {test : Test} {taken : Bool} : n.params = .compare test →
      g.taken? limit point n test = some taken → g.behind? n.id (test.branch taken).1 = none →
      OpenEnd g limit point n (test.branch taken).2
  | there {n m : Node} {q : Port} {test : Test} {taken : Bool} {x : Float} :
      n.params = .compare test → g.taken? limit point n test = some taken →
      g.behind? n.id (test.branch taken).1 = some (m, q) → OpenEnd g limit point m x →
      OpenEnd g limit point n x

end Landform.Graph
