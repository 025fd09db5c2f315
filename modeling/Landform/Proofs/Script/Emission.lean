import Landform.Proofs.Graph.Order
import Landform.Script.Emit

/-!
# Emission without cycles

On a sound graph no port and no node is met again on the way, so that the reports of a cycle never
come up and what is on the way does not matter. Emission then follows the connections: the
expression of an output is what the rule of its node gives on the expressions of the inputs, and the
decision of a comparison chooses between the decisions of its branches.

1. `rule_congr`: a rule asks for the declared inputs only.
2. `portExpr_output`: the expression of an output port.
3. `decision_compare`, `decision_other`: the decision of a node.
-/

namespace Landform.Script

open Landform.Graph Lua

variable {g : Graph} (sound : g.Sound) (contents : Contents)

/-! ## 1. Rules -/

theorem rule_congr (n : Node) (role : Option String) (content : Expr)
    {input input' : String → Except Error Expr}
    (inputs : ∀ spec ∈ n.kind.inputs, input spec.role = input' spec.role) :
    rule n role content input = rule n role content input' := by
  obtain ⟨id, params, x, y, extras⟩ := n
  cases params with
  | add | subtract | multiply | abs | lerp _ | coserp | gaussian _ | remap _ | distance _
  | terrainOutput =>
    simp only [Node.kind, Params.kind, Kind.inputs, Kind.number, Kind.pointInputs, PortSpec.input,
      List.mem_cons, List.not_mem_nil, or_false, forall_eq_or_imp, forall_eq] at inputs
    simp only [rule, inputs]
  | noise2d _ | noise3d _ | mandelbrot _ | position | terrainType _ | compare _ => rfl

/-! ## 2. Expressions of ports -/

theorem portExpr_met {visiting : List String} {id : String} (met : id ∈ visiting) :
    portExpr g.wiring contents visiting id = .error (.cycleThroughPort id) := by
  rw [portExpr, dif_pos (by simpa using met)]

theorem portExpr_unknown {visiting : List String} {id : String} (fresh : id ∉ visiting)
    (unknown : g.wiring.find? id = none) :
    portExpr g.wiring contents visiting id = .error .missingPart := by
  rw [portExpr, dif_neg (by simpa using fresh)]
  split
  · rfl
  · next found =>
    rw [unknown] at found
    cases found

/-- What a port emits while other ports are on the way, on any graph. -/
theorem portExpr_found {visiting : List String} {id : String} (fresh : id ∉ visiting) {n : Node}
    {p : Port} (known : g.wiring.find? id = some (n, p)) :
    portExpr g.wiring contents visiting id =
      rule n (some p.role) (.name (contents n)) fun role =>
        match g.wiring.incoming? (portId n.id role) with
        | none => .ok (.integer 0)
        | some c => portExpr g.wiring contents (id :: visiting) c.source := by
  rw [portExpr, dif_neg (by simpa using fresh)]
  split
  · next found =>
    rw [known] at found
    cases found
  · next found =>
    rw [known] at found
    cases found
    rfl

include sound

/-- What an output port emits while some ports are on the way. -/
theorem portExpr_step {n : Node} {p : Port} (member : n ∈ g.nodes) (port : p ∈ n.outputs)
    {visiting : List String} (fresh : p.id ∉ visiting) :
    portExpr g.wiring contents visiting p.id =
      rule n (some p.role) (.name (contents n)) fun role =>
        match g.wiring.incoming? (portId n.id role) with
        | none => .ok (.integer 0)
        | some c => portExpr g.wiring contents (p.id :: visiting) c.source :=
  portExpr_found contents fresh (sound.find?_output member port)

/-- Ports on the way that rank above a port do not matter to its expression. -/
theorem portExpr_visiting {n : Node} {p : Port} (member : n ∈ g.nodes) (port : p ∈ n.outputs)
    {visiting : List String} (above : ∀ v ∈ visiting, g.rank p.id < g.rank v) :
    portExpr g.wiring contents visiting p.id = portExpr g.wiring contents [] p.id := by
  induction rank : g.rank p.id using Nat.strong_induction_on generalizing n p visiting with
  | _ rank ih =>
    subst rank
    have fresh : p.id ∉ visiting := fun way => Nat.lt_irrefl _ (above _ way)
    rw [portExpr_step sound contents member port fresh,
      portExpr_step sound contents member port List.not_mem_nil]
    refine rule_congr _ _ _ fun spec declared => ?_
    have listed : spec.bind n.id ∈ n.inputs := List.mem_map_of_mem declared
    cases incoming : g.wiring.incoming? (portId n.id spec.role) with
    | none => rfl
    | some c =>
      obtain ⟨joined, target⟩ := sound.incoming?_iff.mp incoming
      obtain ⟨m, mm, p', mp, source, _⟩ := sound.owner_source joined
      have lower := sound.rank_behind_lt member port listed joined target
      dsimp only
      rw [← source] at lower ⊢
      have first := ih _ lower mm mp
        (List.forall_mem_cons.mpr ⟨lower, fun v way => lower.trans (above v way)⟩) rfl
      have second := ih _ lower mm mp
        (List.forall_mem_cons.mpr ⟨lower, fun _ none => absurd none List.not_mem_nil⟩) rfl
      exact first.trans second.symm

/-- The expression of an output port is that of its node for the role of the port. -/
theorem portExpr_output {n : Node} {p : Port} (member : n ∈ g.nodes) (port : p ∈ n.outputs) :
    portExpr g.wiring contents [] p.id = nodeExpr g.wiring contents n (some p.role) := by
  rw [portExpr_step sound contents member port List.not_mem_nil]
  refine rule_congr _ _ _ fun spec declared => ?_
  have listed : spec.bind n.id ∈ n.inputs := List.mem_map_of_mem declared
  unfold inputExpr
  cases incoming : g.wiring.incoming? (portId n.id spec.role) with
  | none => rfl
  | some c =>
    obtain ⟨joined, target⟩ := sound.incoming?_iff.mp incoming
    obtain ⟨m, mm, p', mp, source, _⟩ := sound.owner_source joined
    have lower := sound.rank_behind_lt member port listed joined target
    dsimp only
    rw [← source] at lower ⊢
    exact portExpr_visiting sound contents mm mp (List.forall_mem_cons.mpr
      ⟨lower, fun _ none => absurd none List.not_mem_nil⟩)

/-- What a connected input emits. -/
theorem inputExpr_connected {n : Node} {q : Port} (port : q ∈ n.inputs) {c : Connection}
    (joined : c ∈ g.connections) (target : c.target = q.id) :
    inputExpr g.wiring contents n q.role = portExpr g.wiring contents [] c.source := by
  rw [inputExpr, ← Node.id_of_mem_ports (Node.mem_ports.mpr (.inl port)),
    sound.incoming?_iff.mpr ⟨joined, target⟩]

/-! ## 3. Decisions of nodes -/

/-- A node is found by its id, with one of its ports. -/
theorem ownerOf?_eq {n : Node} (member : n ∈ g.nodes) :
    ∃ p, ownerOf? g.wiring n.id = some (n, p) := by
  have some : ∃ p, p ∈ n.ports := by
    rw [Node.ports_eq]
    exact List.exists_mem_of_ne_nil _ (by cases n.kind <;> simp [Kind.inputs, Kind.outputs])
  obtain ⟨p, port⟩ := some
  unfold ownerOf?
  rw [sound.wiring_eq]
  cases hit : (entries g.nodes).find? fun entry => entry.1.id == n.id with
  | none =>
    exact absurd (by simp) (List.find?_eq_none.mp hit (n, p) (mem_entries.mpr ⟨member, port⟩))
  | some entry =>
    obtain ⟨m, q⟩ := entry
    have listed := (mem_entries.mp (List.mem_of_find?_eq_some hit)).1
    have same : m.id = n.id := by simpa using List.find?_some hit
    rw [node_eq_of_id sound.ids_distinct listed member same]
    exact ⟨q, rfl⟩

omit sound in
theorem compare_of_kind {n : Node} (compares : n.kind = .compare) :
    ∃ test, n.params = .compare test := by
  rw [Node.kind] at compares
  cases params : n.params with
  | compare test => exact ⟨test, rfl⟩
  | _ =>
    rw [params] at compares
    cases compares

/-- The role of the branch that a comparison takes. -/
def branchRole (taken : Bool) : String :=
  if taken then "useTrue" else "useFalse"

omit sound in
/-- Both branches of a comparison are terrain inputs. -/
theorem branch_port {n : Node} (compares : n.kind = .compare) (taken : Bool) :
    ∃ q ∈ n.inputs, q.role = branchRole taken ∧ q.kind = .terrain := by
  obtain ⟨spec, declared, role, kind⟩ := Kind.exists_branch taken
  exact ⟨spec.bind n.id, List.mem_map_of_mem (compares ▸ declared), role, kind⟩

omit sound in
/-- The decision of a branch of a comparison while some nodes are on the way. -/
def branchOf (g : Graph) (contents : Contents) (visiting : List Int) (n : Node) (role : String)
    (fallback : Float) : Except Error Decision :=
  match (g.wiring.incoming? (portId n.id role)).bind fun c => g.wiring.owner? c.source with
  | none => .ok (.assign (.number fallback))
  | some source => decision g.wiring contents visiting source.id

section Found

omit sound

variable {visiting : List Int}

theorem decision_met {id : Int} (met : id ∈ visiting) :
    decision g.wiring contents visiting id = .error (.cycleThroughNode id) := by
  rw [decision, dif_pos (by simpa using met)]

theorem decision_unknown {id : Int} (fresh : id ∉ visiting)
    (unknown : ownerOf? g.wiring id = none) :
    decision g.wiring contents visiting id = .error .missingPart := by
  rw [decision, dif_neg (by simpa using fresh)]
  split
  · rfl
  · next found =>
    rw [unknown] at found
    cases found

/-- The decision of a comparison while other nodes are on the way, on any graph. -/
theorem decision_found_compare {n : Node} {p : Port} {test : Test} (fresh : n.id ∉ visiting)
    (known : ownerOf? g.wiring n.id = some (n, p)) (params : n.params = .compare test) :
    decision g.wiring contents visiting n.id = (do
      let left ← inputExpr g.wiring contents n "in1"
      let right ← inputExpr g.wiring contents n "in2"
      let ifTrue ← branchOf g contents (n.id :: visiting) n "useTrue" test.useTrue
      let ifFalse ← branchOf g contents (n.id :: visiting) n "useFalse" test.useFalse
      return .choose n.id left test.operator right ifTrue ifFalse) := by
  rw [decision, dif_neg (by simpa using fresh)]
  split
  · next found =>
    rw [known] at found
    cases found
  · next found =>
    rw [known] at found
    cases found
    rw [params]
    rfl

/-- The decision of any other node while other nodes are on the way, on any graph. -/
theorem decision_found_other {n : Node} {p : Port} (fresh : n.id ∉ visiting)
    (known : ownerOf? g.wiring n.id = some (n, p)) (other : n.kind ≠ .compare) :
    decision g.wiring contents visiting n.id = (do
      return .assign (← nodeExpr g.wiring contents n (n.kind.outputs.head?.map (·.role)))) := by
  rw [decision, dif_neg (by simpa using fresh)]
  split
  · next found =>
    rw [known] at found
    cases found
  · next found =>
    rw [known] at found
    cases found
    split
    · next test params =>
      exact absurd (Node.kind_of_compare params) other
    · rfl

end Found

theorem decision_step_compare {n : Node} (member : n ∈ g.nodes) {test : Test}
    (params : n.params = .compare test) {visiting : List Int} (fresh : n.id ∉ visiting) :
    decision g.wiring contents visiting n.id = (do
      let left ← inputExpr g.wiring contents n "in1"
      let right ← inputExpr g.wiring contents n "in2"
      let ifTrue ← branchOf g contents (n.id :: visiting) n "useTrue" test.useTrue
      let ifFalse ← branchOf g contents (n.id :: visiting) n "useFalse" test.useFalse
      return .choose n.id left test.operator right ifTrue ifFalse) := by
  obtain ⟨p, known⟩ := ownerOf?_eq sound member
  exact decision_found_compare contents fresh known params

theorem decision_step_other {n : Node} (member : n ∈ g.nodes) (other : n.kind ≠ .compare)
    {visiting : List Int} (fresh : n.id ∉ visiting) :
    decision g.wiring contents visiting n.id = (do
      return .assign (← nodeExpr g.wiring contents n (n.kind.outputs.head?.map (·.role)))) := by
  obtain ⟨p, known⟩ := ownerOf?_eq sound member
  exact decision_found_other contents fresh known other

/-- A branch depends on what is on the way only through the decisions of lower nodes. -/
theorem branchOf_congr {n : Node} (member : n ∈ g.nodes) (compares : n.kind = .compare)
    (visiting visiting' : List Int)
    (same : ∀ m ∈ g.nodes, g.height m.id < g.height n.id →
      decision g.wiring contents visiting m.id = decision g.wiring contents visiting' m.id)
    (taken : Bool) (fallback : Float) :
    branchOf g contents visiting n (branchRole taken) fallback =
      branchOf g contents visiting' n (branchRole taken) fallback := by
  obtain ⟨q, port, role, _⟩ := branch_port compares taken
  unfold branchOf
  rw [← role, ← Node.id_of_mem_ports (Node.mem_ports.mpr (.inl port))]
  cases source : (g.wiring.incoming? q.id).bind fun c => g.wiring.owner? c.source with
  | none => rfl
  | some m =>
    obtain ⟨listed, feeds⟩ := sound.feeds_of_behind member port source
    exact same m listed (sound.height_lt feeds)

/-- Nodes on the way that are higher than a node do not matter to its decision. -/
theorem decision_visiting {n : Node} (member : n ∈ g.nodes) {visiting : List Int}
    (above : ∀ v ∈ visiting, g.height n.id < g.height v) :
    decision g.wiring contents visiting n.id = decision g.wiring contents [] n.id := by
  induction height : g.height n.id using Nat.strong_induction_on generalizing n visiting with
  | _ height ih =>
    subst height
    have fresh : n.id ∉ visiting := fun way => Nat.lt_irrefl _ (above _ way)
    by_cases compares : n.kind = .compare
    · obtain ⟨test, params⟩ := compare_of_kind compares
      rw [decision_step_compare sound contents member params fresh,
        decision_step_compare sound contents member params List.not_mem_nil]
      have branches := branchOf_congr sound contents member compares
        (n.id :: visiting) [n.id] fun m listed lower =>
          (ih _ lower listed
            (List.forall_mem_cons.mpr ⟨lower, fun v way => lower.trans (above v way)⟩) rfl).trans
          (ih _ lower listed
            (List.forall_mem_cons.mpr ⟨lower, fun _ none => absurd none List.not_mem_nil⟩) rfl).symm
      have ifTrue : branchOf g contents (n.id :: visiting) n "useTrue" test.useTrue =
        branchOf g contents [n.id] n "useTrue" test.useTrue := branches true _
      have ifFalse : branchOf g contents (n.id :: visiting) n "useFalse" test.useFalse =
        branchOf g contents [n.id] n "useFalse" test.useFalse := branches false _
      rw [ifTrue, ifFalse]
    · rw [decision_step_other sound contents member compares fresh,
        decision_step_other sound contents member compares List.not_mem_nil]

/-- The decision of a comparison chooses between the decisions of its branches. -/
theorem decision_compare {n : Node} (member : n ∈ g.nodes) {test : Test}
    (params : n.params = .compare test) :
    decision g.wiring contents [] n.id = (do
      let left ← inputExpr g.wiring contents n "in1"
      let right ← inputExpr g.wiring contents n "in2"
      let ifTrue ← branchOf g contents [] n "useTrue" test.useTrue
      let ifFalse ← branchOf g contents [] n "useFalse" test.useFalse
      return .choose n.id left test.operator right ifTrue ifFalse) := by
  have compares := Node.kind_of_compare params
  rw [decision_step_compare sound contents member params List.not_mem_nil]
  -- the node itself is on the way to its branches, but it is higher than what is behind them
  have branches := branchOf_congr sound contents member compares [n.id] [] fun m listed lower =>
    decision_visiting sound contents listed
      (List.forall_mem_cons.mpr ⟨lower, fun _ none => absurd none List.not_mem_nil⟩)
  have ifTrue : branchOf g contents [n.id] n "useTrue" test.useTrue =
    branchOf g contents [] n "useTrue" test.useTrue := branches true _
  have ifFalse : branchOf g contents [n.id] n "useFalse" test.useFalse =
    branchOf g contents [] n "useFalse" test.useFalse := branches false _
  rw [ifTrue, ifFalse]

/-- Any other node assigns its expression. -/
theorem decision_other {n : Node} (member : n ∈ g.nodes) (other : n.kind ≠ .compare) :
    decision g.wiring contents [] n.id = (do
      return .assign (← nodeExpr g.wiring contents n (n.kind.outputs.head?.map (·.role)))) :=
  decision_step_other sound contents member other List.not_mem_nil

end Landform.Script
