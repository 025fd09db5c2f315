import Landform.Proofs.Evaluation.Deep
import Landform.Proofs.Graph.Upstream
import Landform.Proofs.Lua.Renaming
import Landform.Proofs.Script.Emission

/-!
# Emission follows what feeds a node

What is emitted for a node depends on the nodes that feed it and on the connections into them, up to
the names of locals. So two graphs that agree on some nodes emit the same for them once every local
is replaced by the name that it stands for.

1. `rule_rename`, `rule_renamed`: the rule of a node.
2. `portExpr_renamed`, `inputExpr_renamed`: ports.
3. `decision_renamed`: decisions.
-/

namespace Landform.Script

open Landform.Graph Lua

/-! ## 1. Rules -/

theorem rename_viewExpr (f : String → String) (m : Noise.Mandelbrot Float) :
    (viewExpr m).rename f = viewExpr m := by
  unfold viewExpr
  dsimp only
  split <;> simp [planeCoordinate, Expr.rename, renameAll]

/-- A rule passes on what it is given. -/
theorem rule_rename (f : String → String) (n : Node) (role : Option String) (content : Expr)
    (input : String → Except Error Expr) :
    (rule n role content input).map (·.rename f) =
      rule n role (content.rename f) fun role => (input role).map (·.rename f) := by
  obtain ⟨id, params, x, y, extras⟩ := n
  cases params with
  | add | subtract | multiply =>
    dsimp only [rule]
    cases input "in1" <;> cases input "in2" <;> rfl
  | abs | remap _ =>
    dsimp only [rule]
    cases input "in" <;> rfl
  | lerp power =>
    dsimp only [rule]
    cases power == 1.0 <;> cases input "in1" <;> cases input "in2" <;> cases input "factor" <;> rfl
  | coserp =>
    dsimp only [rule]
    cases input "in1" <;> cases input "in2" <;> cases input "factor" <;> rfl
  | gaussian _ =>
    dsimp only [rule]
    cases input "x" <;> cases input "y" <;> cases input "z" <;> rfl
  | distance _ =>
    dsimp only [rule]
    cases input "x" <;> cases input "y" <;> cases input "z" <;> rfl
  | mandelbrot view => exact congrArg Except.ok (rename_viewExpr f view)
  | position =>
    dsimp only [rule]
    split <;> rfl
  | noise2d _ | noise3d _ | terrainType _ | compare _ | terrainOutput => rfl

theorem rule_renamed {n : Node} {role : Option String} {content content' : Expr}
    {input input' : String → Except Error Expr} {f f' : String → String}
    (own : ∀ t, n.params = .terrainType t → content.rename f = content'.rename f')
    (inputs : ∀ spec ∈ n.kind.inputs,
      (input spec.role).map (·.rename f) = (input' spec.role).map (·.rename f')) :
    (rule n role content input).map (·.rename f) =
      (rule n role content' input').map (·.rename f') := by
  have emitted : rule n role (content.rename f) (fun role => (input role).map (·.rename f)) =
      rule n role (content.rename f) fun role => (input' role).map (·.rename f') :=
    rule_congr n role _ inputs
  rw [rule_rename, rule_rename, emitted]
  -- only the rule of a terrain node reads its local
  obtain ⟨id, params, x, y, extras⟩ := n
  cases params with
  | terrainType t => rw [own t rfl]
  | _ => rfl

/-! ## 2. Ports -/

section Agreement

variable {g g' : Graph} {among : Int → Prop} (alike : g.Alike g' among) (sound : g.Sound)
  (sound' : g'.Sound) {contents contents' : Contents} {f f' : String → String}
  (same : ∀ n ∈ g.nodes, among n.id → ∀ t, n.params = .terrainType t →
    f (contents n) = f' (contents' n))

include alike sound sound'

/-- An input emits the same in both graphs when what feeds it does. -/
theorem inputExpr_step {n : Node} (member : n ∈ g.nodes) (inside : among n.id) {spec : PortSpec}
    (declared : spec ∈ n.kind.inputs)
    (next : ∀ {m q}, g.Feeding n spec m q → among m.id →
      (portExpr g.wiring contents [] q.id).map (·.rename f) =
        (portExpr g'.wiring contents' [] q.id).map (·.rename f')) :
    (inputExpr g.wiring contents n spec.role).map (·.rename f) =
      (inputExpr g'.wiring contents' n spec.role).map (·.rename f') := by
  unfold inputExpr
  rw [alike.incoming?_eq sound sound' member inside]
  cases incoming : g.wiring.incoming? (portId n.id spec.role) with
  | none => rfl
  | some c =>
    cases behind : g.behind? n.id spec.role with
    | none =>
      rw [sound.behind?_eq_none.mp behind] at incoming
      cases incoming
    | some entry =>
      obtain ⟨m, q⟩ := entry
      have feeding := sound.feeding member declared behind
      obtain ⟨c', joined, target, source⟩ := feeding.joined
      cases incoming.symm.trans (sound.incoming?_iff.mpr ⟨joined, target⟩)
      dsimp only
      rw [source]
      exact next feeding (alike.closed _ _ feeding.feeds inside)

include same

/-- The ports of nodes on which two graphs agree emit the same in both. -/
theorem portExpr_renamed {n : Node} {p : Port} (member : n ∈ g.nodes) (inside : among n.id)
    (port : p ∈ n.outputs) :
    (portExpr g.wiring contents [] p.id).map (·.rename f) =
      (portExpr g'.wiring contents' [] p.id).map (·.rename f') := by
  induction rank : g.rank p.id using Nat.strong_induction_on generalizing n p with
  | _ rank ih =>
    subst rank
    rw [portExpr_output sound contents member port,
      portExpr_output sound' contents' (alike.nodes n member inside) port]
    refine rule_renamed (fun t params => ?_) fun spec declared =>
      inputExpr_step alike sound sound' member inside declared fun feeding inside =>
        ih _ (feeding.rank_lt p port) feeding.member inside feeding.output rfl
    rw [Expr.rename, Expr.rename, same n member inside t params]

theorem inputExpr_renamed {n : Node} (member : n ∈ g.nodes) (inside : among n.id) {spec : PortSpec}
    (declared : spec ∈ n.kind.inputs) :
    (inputExpr g.wiring contents n spec.role).map (·.rename f) =
      (inputExpr g'.wiring contents' n spec.role).map (·.rename f') :=
  inputExpr_step alike sound sound' member inside declared fun feeding inside =>
    portExpr_renamed alike sound sound' same feeding.member inside feeding.output

theorem nodeExpr_renamed {n : Node} (member : n ∈ g.nodes) (inside : among n.id)
    (role : Option String) :
    (nodeExpr g.wiring contents n role).map (·.rename f) =
      (nodeExpr g'.wiring contents' n role).map (·.rename f') := by
  refine rule_renamed (fun t params => ?_) fun spec declared =>
    inputExpr_renamed alike sound sound' same member inside declared
  rw [Expr.rename, Expr.rename, same n member inside t params]

omit same in
/-- What is behind an input is the same node in both graphs, and one on which they agree. -/
theorem source_eq {n : Node} (member : n ∈ g.nodes) (inside : among n.id) {q : Port}
    (port : q ∈ n.inputs) :
    (g'.wiring.incoming? (portId n.id q.role)).bind (fun c => g'.wiring.owner? c.source) =
      (g.wiring.incoming? (portId n.id q.role)).bind fun c => g.wiring.owner? c.source := by
  rw [alike.incoming?_eq sound sound' member inside]
  refine Option.bind_congr fun c incoming => ?_
  obtain ⟨joined, target⟩ := sound.incoming?_iff.mp incoming
  obtain ⟨m, mm, p, mp, source, owner⟩ := sound.owner_source joined
  have feeds := (sound.feeds_of_behind member port (m := m) (by
    rw [Node.id_of_mem_ports (Node.mem_ports.mpr (.inl port)), incoming]
    exact owner)).2
  have member' := alike.nodes m mm (alike.closed _ _ feeds inside)
  rw [owner]
  exact sound'.owner?_iff.mpr ⟨member', p, Node.mem_ports.mpr (.inr mp), source⟩

end Agreement

/-! ## 3. Decisions -/

/-- The decision of a comparison from its parts. -/
def chosen (node : Int) (test : Comparison) (left right : Except Error Expr)
    (ifTrue ifFalse : Except Error Decision) : Except Error Decision := do
  return .choose node (← left) test (← right) (← ifTrue) (← ifFalse)

theorem chosen_rename (f : String → String) (node : Int) (test : Comparison)
    (left right : Except Error Expr) (ifTrue ifFalse : Except Error Decision) :
    (chosen node test left right ifTrue ifFalse).map (·.rename f) =
      chosen node test (left.map (·.rename f)) (right.map (·.rename f)) (ifTrue.map (·.rename f))
        (ifFalse.map (·.rename f)) := by
  cases left <;> cases right <;> cases ifTrue <;> cases ifFalse <;> rfl

/-- The decision of any other node from its expression. -/
def assigned (content : Except Error Expr) : Except Error Decision := do
  return .assign (← content)

theorem assigned_rename (f : String → String) (content : Except Error Expr) :
    (assigned content).map (·.rename f) = assigned (content.map (·.rename f)) := by
  cases content <;> rfl

/-- The nodes on which two graphs agree decide the same in both. -/
theorem decision_renamed {g g' : Graph} {among : Int → Prop} (alike : g.Alike g' among)
    (sound : g.Sound) (sound' : g'.Sound) {contents contents' : Contents} {f f' : String → String}
    (same : ∀ n ∈ g.nodes, among n.id → ∀ t, n.params = .terrainType t →
      f (contents n) = f' (contents' n)) {n : Node} (member : n ∈ g.nodes) (inside : among n.id) :
    (decision g.wiring contents [] n.id).map (·.rename f) =
      (decision g'.wiring contents' [] n.id).map (·.rename f') := by
  revert inside
  refine @Sound.node_induction _ sound (fun id => among id →
    (decision g.wiring contents [] id).map (·.rename f) =
      (decision g'.wiring contents' [] id).map (·.rename f'))
    (fun n member ih inside => ?_) n member
  have member' := alike.nodes n member inside
  by_cases compares : n.kind = .compare
  · obtain ⟨test, params⟩ := compare_of_kind compares
    have branch : ∀ taken fallback,
        (branchOf g contents [] n (branchRole taken) fallback).map (·.rename f) =
          (branchOf g' contents' [] n (branchRole taken) fallback).map (·.rename f') := by
      intro taken fallback
      obtain ⟨q, port, role, _⟩ := branch_port compares taken
      unfold branchOf
      rw [← role, source_eq alike sound sound' member inside port]
      cases source : (g.wiring.incoming? (portId n.id q.role)).bind
          fun c => g.wiring.owner? c.source with
      | none => rfl
      | some m =>
        rw [← Node.id_of_mem_ports (Node.mem_ports.mpr (.inl port))] at source
        have feeds := (sound.feeds_of_behind member port source).2
        exact ih m.id feeds (alike.closed _ _ feeds inside)
    obtain ⟨first, second⟩ := Node.compared_mem_inputs compares
    have left : (inputExpr g.wiring contents n "in1").map (·.rename f) =
        (inputExpr g'.wiring contents' n "in1").map (·.rename f') :=
      inputExpr_renamed alike sound sound' same member inside first
    have right : (inputExpr g.wiring contents n "in2").map (·.rename f) =
        (inputExpr g'.wiring contents' n "in2").map (·.rename f') :=
      inputExpr_renamed alike sound sound' same member inside second
    have ifTrue : (branchOf g contents [] n "useTrue" test.useTrue).map (·.rename f) =
      (branchOf g' contents' [] n "useTrue" test.useTrue).map (·.rename f') := branch true _
    have ifFalse : (branchOf g contents [] n "useFalse" test.useFalse).map (·.rename f) =
      (branchOf g' contents' [] n "useFalse" test.useFalse).map (·.rename f') := branch false _
    rw [decision_compare sound contents member params,
      decision_compare sound' contents' member' params, ← chosen, ← chosen, chosen_rename,
      chosen_rename, left, right, ifTrue, ifFalse]
  · rw [decision_other sound contents member compares,
      decision_other sound' contents' member' compares, ← assigned, ← assigned, assigned_rename,
      assigned_rename, nodeExpr_renamed alike sound sound' same member inside]

end Landform.Script
