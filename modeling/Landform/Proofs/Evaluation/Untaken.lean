import Landform.Proofs.Evaluation.Walk
import Landform.Proofs.Params.Fields

/-!
# The branch that is not taken

A comparison asks for the branch that its test selects and for no other. The test itself depends on
the two numbers alone, which no path from a branch leads back to. So what is connected to the other
branch at a point, and the number that stands for it, reach no port but the input of that branch.

1. `rule_untaken`, `update_fallback`: the rule of a comparison does not see the branch, and an
   update can change it alone.
2. `ButBranch.plainSignal_eq`: signals in graphs that differ in the branch only.
3. `Sound.butBranch_apply`: mutations of the branch.
4. `Reachable.untaken`: what they change.
-/

namespace Landform

/-! ## Definitions -/

/-- The test with another number for one open branch. -/
def Test.withFallback (test : Test) (side : Bool) (x : Float) : Test :=
  if side then { test with useTrue := x } else { test with useFalse := x }

/-- The input of a branch of a comparison. -/
def Node.branchId (n : Node) (test : Test) (side : Bool) : String :=
  portId n.id (test.branch side).1

/-- A mutation of one branch of a comparison: it connects or disconnects the input of the branch, or
it updates nothing of the test but the number for the open branch. -/
inductive Mutation.Rebranches (n : Node) (test : Test) (side : Bool) : Mutation → Prop
  | connect (source : String) :
      Rebranches n test side (.connect source (n.branchId test side))
  | disconnect (source : String) :
      Rebranches n test side (.disconnect source (n.branchId test side))
  | fallback {updates : Fields} {n' : Node} {x : Float} : n.update updates = .ok n' →
      n'.params = .compare (test.withFallback side x) →
      Rebranches n test side (.update n.id updates)

/-- The field of the number that stands for an open branch. -/
def Test.fallbackField (side : Bool) : String :=
  if side then "use_true" else "use_false"

namespace Graph

/-- A second graph differs from a first one in one branch of a comparison only. -/
structure ButBranch (g g' : Graph) (n : Node) (test : Test) (side : Bool) : Prop where
  same_ports : SamePorts g.nodes g'.nodes
  others : ∀ k ∈ g.nodes, k.id ≠ n.id → k ∈ g'.nodes
  itself : ∃ n' ∈ g'.nodes, n'.id = n.id ∧ ∃ x, n'.params = .compare (test.withFallback side x)
  connections : ∀ c : Connection, c.target ≠ n.branchId test side →
    (c ∈ g'.connections ↔ c ∈ g.connections)

end Graph

/-! ## 1. Comparisons -/

theorem Test.withFallback_self (test : Test) (side : Bool) :
    test.withFallback side (test.branch side).2 = test := by
  cases side <;> rfl

theorem Test.operator_withFallback (test : Test) (side : Bool) (x : Float) :
    (test.withFallback side x).operator = test.operator := by
  cases side <;> rfl

theorem Test.branch_withFallback (test : Test) (taken : Bool) (x : Float) :
    (test.withFallback (!taken) x).branch taken = test.branch taken := by
  cases taken <;> rfl

theorem Test.branch_ne (test : Test) (taken : Bool) :
    (test.branch taken).1 ≠ (test.branch !taken).1 := by
  cases taken <;> simp [branch]

theorem Test.number_ne_branch (test : Test) (side : Bool) {role : String}
    (number : role = "in1" ∨ role = "in2") : role ≠ (test.branch side).1 := by
  rcases number with rfl | rfl <;> cases side <;> simp [branch]

/-- The rule of a comparison sees its numbers and the selected branch. -/
theorem Params.rule_untaken {test : Test} {taken : Bool} {role : String} {s s' : Surroundings}
    (first : s'.input "in1" = s.input "in1") (second : s'.input "in2" = s.input "in2")
    (decides : test.operator.decide? (s.input "in1") (s.input "in2") = some taken)
    (branch : s'.input (test.branch taken).1 = s.input (test.branch taken).1)
    (connected : s'.isConnected (test.branch taken).1 = s.isConnected (test.branch taken).1)
    (x : Float) :
    (compare (test.withFallback (!taken) x)).rule role s' = (compare test).rule role s := by
  simp only [rule, first, second, decides, test.operator_withFallback, Option.bind_eq_bind,
    Option.bind_some, test.branch_withFallback, branch, connected]

theorem Test.replace_fallback (test : Test) (side : Bool) {v : Value} {x : Float}
    (read : v.toFloat = .ok x) :
    test.replace [(Test.fallbackField side, v)] = .ok (test.withFallback side x) := by
  cases side with
  | false =>
    refine Except.bind_eq_ok.mpr ⟨test.operator.sign, rfl, Except.bind_eq_ok.mpr
      ⟨test.useTrue, rfl, Except.bind_eq_ok.mpr ⟨x, read, ?_⟩⟩⟩
    rw [Comparison.ofSign?_sign]
    rfl
  | true =>
    refine Except.bind_eq_ok.mpr ⟨test.operator.sign, rfl, Except.bind_eq_ok.mpr
      ⟨x, read, Except.bind_eq_ok.mpr ⟨test.useFalse, rfl, ?_⟩⟩⟩
    rw [Comparison.ofSign?_sign]
    rfl

/-- An update that names nothing but the number for an open branch, in whatever spelling. -/
theorem Node.update_fallback {n : Node} {test : Test} (params : n.params = .compare test)
    {side : Bool} {name : String} (named : canonicalField name = Test.fallbackField side)
    {v : Value} {x : Float} (read : v.toFloat = .ok x) :
    ∃ n', n.update [(name, v)] = .ok n' ∧ n'.params = .compare (test.withFallback side x) := by
  have known : n.params.known [(name, v)] = [(Test.fallbackField side, v)] := by
    rw [params, Params.known, List.map_singleton, named]
    cases side <;> rfl
  have replaced : n.params.replace [(Test.fallbackField side, v)] =
      .ok (.compare (test.withFallback side x)) := by
    rw [params]
    exact Except.bind_eq_ok.mpr ⟨_, test.replace_fallback side read, rfl⟩
  have merged : n.params.merge [(name, v)] =
      .ok ⟨.compare (test.withFallback side x), n.params.extras [(name, v)], false⟩ := by
    rw [Params.merge, known]
    exact Except.bind_eq_ok.mpr ⟨_, replaced, rfl⟩
  exact ⟨_, Except.bind_eq_ok.mpr ⟨_, merged, rfl⟩, rfl⟩

namespace Graph

variable {g g' : Graph} {n : Node} {test : Test} {taken side : Bool}

/-! ## 2. Signals -/

theorem portId_ne_branchId {role : String} (other : role ≠ (test.branch side).1) :
    portId n.id role ≠ n.branchId test side :=
  fun same => other (portId_injective same).2

section Signals

variable (sound : g.Sound) (sound' : g'.Sound)

include sound in
/-- The input of a branch is no output of the graph. -/
theorem Sound.source_ne_branchId (member : n ∈ g.nodes) (params : n.params = .compare test)
    {k : Node} {p : Port} (listed : k ∈ g.nodes) (port : p ∈ k.outputs) :
    p.id ≠ n.branchId test side := by
  intro same
  obtain ⟨spec, declared, role, _⟩ := branch_declared params side
  have input : spec.bind n.id ∈ n.inputs := List.mem_map_of_mem declared
  have id : (spec.bind n.id).id = n.branchId test side := by rw [Node.branchId, ← role]; rfl
  obtain ⟨_, rfl⟩ := port_unique sound.ids_distinct listed (Node.mem_ports.mpr (.inr port)) member
    (Node.mem_ports.mpr (.inl input)) (same.trans id.symm)
  have output := isOutput_of_mem_outputs port
  rw [isOutput_of_mem_inputs input] at output
  cases output

include sound sound'

/-- Nodes with the same ports leave the same ids unknown. -/
theorem Sound.find?_congr (same : SamePorts g.nodes g'.nodes) {id : String}
    (unknown : g.wiring.find? id = none) : g'.wiring.find? id = none := by
  by_contra known
  obtain ⟨⟨k', p⟩, found⟩ := Option.ne_none_iff_exists'.mp known
  obtain ⟨listed', port, rfl⟩ := sound'.find?_iff.mp found
  rcases Node.mem_ports.mp port with input | output
  · obtain ⟨k, listed, there⟩ :=
      mem_inlets.mp (same.inlets_eq ▸ mem_inlets.mpr ⟨k', listed', input⟩)
    rw [sound.find?_input listed there] at unknown
    cases unknown
  · obtain ⟨k, listed, there⟩ :=
      mem_outlets.mp (same.outlets_eq ▸ mem_outlets.mpr ⟨k', listed', output⟩)
    rw [sound.find?_output listed there] at unknown
    cases unknown

theorem ButBranch.incoming?_eq (differs : g.ButBranch g' n test side) {id : String}
    (other : id ≠ n.branchId test side) : g'.wiring.incoming? id = g.wiring.incoming? id := by
  refine Option.ext fun c => ?_
  rw [sound.incoming?_iff, sound'.incoming?_iff]
  constructor
  · rintro ⟨joined, rfl⟩
    exact ⟨(differs.connections c other).mp joined, rfl⟩
  · rintro ⟨joined, rfl⟩
    exact ⟨(differs.connections c other).mpr joined, rfl⟩

/-- The node of the comparison carries what it did, if its numbers and its selected branch do. -/
theorem ButBranch.rule_eq (differs : g.ButBranch g' n test !taken) (member : n ∈ g.nodes)
    (params : n.params = .compare test) (point : Point)
    (decides : test.operator.decide? (g.plainSignal sound point (portId n.id "in1"))
      (g.plainSignal sound point (portId n.id "in2")) = some taken)
    (inputs : ∀ spec ∈ n.kind.inputs, spec.role ≠ (test.branch !taken).1 →
      g'.plainSignal sound' point (portId n.id spec.role) =
        g.plainSignal sound point (portId n.id spec.role)) {p : Port} (port : p ∈ n.outputs) :
    g'.plainSignal sound' point p.id = g.plainSignal sound point p.id := by
  obtain ⟨n', member', sameId, x, params'⟩ := differs.itself
  have compares := Node.kind_of_compare params
  have compares' := Node.kind_of_compare params'
  obtain ⟨first, second⟩ := Node.compared_mem_inputs compares
  have port' : p ∈ n'.outputs := by
    rw [Node.outputs, compares', sameId, ← compares]
    exact port
  obtain ⟨branch, declared, role, _⟩ := branch_declared params taken
  have apart : (test.branch taken).1 ≠ (test.branch !taken).1 := test.branch_ne taken
  rw [plainSignal_output sound point member port, plainSignal_output sound' point member' port',
    params, params', sameId]
  refine congrArg (Option.getD · p.kind.default)
    (Params.rule_untaken ?_ ?_ decides (role ▸ inputs branch declared (role ▸ apart)) ?_ x)
  · exact inputs _ first (test.number_ne_branch _ (.inl rfl))
  · exact inputs _ second (test.number_ne_branch _ (.inr rfl))
  · dsimp only
    rw [Wiring.isConnected, Wiring.isConnected, sameId,
      differs.incoming?_eq sound sound' (portId_ne_branchId apart)]

/-- The induction is on the port in the first graph. At the comparison itself the test decides as it
did, since its numbers rank below its output. -/
theorem ButBranch.plainSignal_eq (differs : g.ButBranch g' n test !taken) (member : n ∈ g.nodes)
    (params : n.params = .compare test) (point : Point)
    (decides : test.operator.decide? (g.plainSignal sound point (portId n.id "in1"))
      (g.plainSignal sound point (portId n.id "in2")) = some taken) (id : String) :
    id ≠ n.branchId test (!taken) →
      g'.plainSignal sound' point id = g.plainSignal sound point id := by
  induction id using sound.port_induction with
  | unknown id unknown =>
    intro _
    rw [plainSignal_unknown sound point unknown,
      plainSignal_unknown sound' point (sound.find?_congr sound' differs.same_ports unknown)]
  | output k listed p port ih =>
    intro _
    by_cases same : k.id = n.id
    · obtain rfl := node_eq_of_id sound.ids_distinct listed member same
      refine differs.rule_eq sound sound' member params point decides
        (fun spec declared other => ?_) port
      exact ih _ (List.mem_map_of_mem declared) (portId_ne_branchId other)
    · rw [plainSignal_output sound point listed port,
        plainSignal_output sound' point (differs.others k listed same) port]
      have apart (role : String) : portId k.id role ≠ n.branchId test !taken :=
        fun equal => same (portId_injective equal).1
      refine congrArg (Option.getD · p.kind.default)
        (Params.rule_congr _ _ rfl (fun spec declared => ?_) ?_)
      · exact ih _ (List.mem_map_of_mem declared) (apart spec.role)
      · funext role
        dsimp only
        rw [Wiring.isConnected, Wiring.isConnected, differs.incoming?_eq sound sound' (apart role)]
  | connected c joined ih =>
    intro other
    obtain ⟨k, listed, p, port, source, _⟩ := sound.owner_source joined
    have apart : c.source ≠ n.branchId test !taken :=
      source ▸ sound.source_ne_branchId member params listed port
    rw [plainSignal_connected sound point joined,
      plainSignal_connected sound' point ((differs.connections c other).mpr joined), ih apart]
  | unconnected k listed q port unconnected =>
    intro other
    obtain ⟨k', listed', port'⟩ : ∃ k' ∈ g'.nodes, q ∈ k'.inputs :=
      mem_inlets.mp (differs.same_ports.inlets_eq ▸ mem_inlets.mpr ⟨k, listed, port⟩)
    have unconnected' : g'.wiring.incoming? q.id = none := by
      rw [differs.incoming?_eq sound sound' other, unconnected]
    rw [plainSignal_open sound point listed port unconnected,
      plainSignal_open sound' point listed' port' unconnected']

/-- Within a limit of at least the number of nodes. -/
theorem ButBranch.portSignal_eq (differs : g.ButBranch g' n test !taken) (member : n ∈ g.nodes)
    (params : n.params = .compare test) {limit : DepthLimit} {point : Point}
    (deep : limit.isExceeded g.nodes.length = false)
    (decides : g.taken? limit point n test = some taken) {id : String}
    (other : id ≠ n.branchId test !taken) :
    g'.portSignal limit id point = g.portSignal limit id point := by
  have deep' : limit.isExceeded g'.nodes.length = false := by
    rw [← differs.same_ports.length_eq]
    exact deep
  unfold taken? at decides
  rw [deep_eq_plainSignal sound point deep, deep_eq_plainSignal sound point deep] at decides
  rw [deep_eq_plainSignal sound point deep, deep_eq_plainSignal sound' point deep']
  exact differs.plainSignal_eq sound sound' member params point decides id other

end Signals

/-! ## 3. Mutations -/

section Mutations

variable (sound : g.Sound) (member : n ∈ g.nodes) (params : n.params = .compare test)

include member params

theorem butBranch_of_connections (nodes : g'.nodes = g.nodes)
    (connections : ∀ c : Connection, c.target ≠ n.branchId test side →
      (c ∈ g'.connections ↔ c ∈ g.connections)) : g.ButBranch g' n test side where
  same_ports := by rw [SamePorts, nodes]
  others := fun k listed _ => nodes ▸ listed
  itself := ⟨n, nodes ▸ member, rfl, (test.branch side).2, by rw [test.withFallback_self, params]⟩
  connections := connections

include sound

theorem Sound.butBranch_connect (source : String) :
    g.ButBranch (g.run (Edit.connect source (n.branchId test side))).1 n test side := by
  rcases run_connect sound source (n.branchId test side) with
    ⟨why, _, done⟩ | ⟨_, _, what, done⟩ <;> rw [done]
  · exact butBranch_of_connections member params rfl fun _ _ => Iff.rfl
  · exact butBranch_of_connections member params rfl fun _ other => sound.mem_making_concat other

theorem Sound.butBranch_disconnect (source : String) :
    g.ButBranch (g.run (Edit.disconnect source (n.branchId test side))).1 n test side := by
  rcases run_disconnect sound source (n.branchId test side) with ⟨why, done⟩ | ⟨_, done⟩ <;>
    rw [done]
  · exact butBranch_of_connections member params rfl fun _ _ => Iff.rfl
  · exact butBranch_of_connections member params rfl fun _ other => mem_erase_of_target_ne other

theorem Sound.butBranch_update {updates : Fields} {n' : Node} {x : Float}
    (made : n.update updates = .ok n') (params' : n'.params = .compare (test.withFallback side x)) :
    g.ButBranch (g.run (Edit.update n.id updates)).1 n test side := by
  rcases run_update sound n.id updates with
    ⟨answer, _, done⟩ | ⟨m, m', found, made', same, done⟩ <;> rw [done]
  · exact butBranch_of_connections member params rfl fun _ _ => Iff.rfl
  · rw [sound.node?_iff.mpr ⟨member, rfl⟩] at found
    cases found
    rw [made] at made'
    cases made'
    have sameId := (Node.update_keeps made).1
    refine ⟨same, fun k listed other => ?_, ?_, fun _ _ => Iff.rfl⟩
    · exact List.mem_map.mpr ⟨k, listed, if_neg (by simpa [sameId] using other)⟩
    · refine ⟨n', List.mem_map.mpr ⟨n, member, if_pos (by simp [sameId])⟩, sameId, x, params'⟩

theorem Sound.butBranch_apply {m : Mutation} (rebranches : m.Rebranches n test side) :
    g.ButBranch (m.apply g) n test side := by
  cases rebranches with
  | connect source => exact sound.butBranch_connect member params source
  | disconnect source => exact sound.butBranch_disconnect member params source
  | fallback made params' => exact sound.butBranch_update member params made params'

end Mutations

/-! ## 4. Reachable graphs -/

/-- On every reachable graph, at every point and within every limit of at least the number of nodes,
a mutation of the branch that a comparison does not take leaves the signal of every port as it was,
but for the input of that branch. -/
theorem Reachable.untaken (reachable : g.Reachable) (member : n ∈ g.nodes)
    (params : n.params = .compare test) {limit : DepthLimit}
    (deep : limit.isExceeded g.nodes.length = false) {point : Point}
    (decides : g.taken? limit point n test = some taken) {m : Mutation}
    (rebranches : m.Rebranches n test !taken) :
    ∀ id, id ≠ n.branchId test (!taken) →
      (m.apply g).portSignal limit id point = g.portSignal limit id point := by
  intro id other
  have differs := reachable.sound.butBranch_apply member params rebranches
  exact differs.portSignal_eq reachable.sound (reachable.mutate m).sound member params deep decides
    other

/-- The first comparison of a beach. -/
theorem beach_compares : ∃ n ∈ beach.nodes, n.id = 2 ∧ ∃ test : Test, n.params = .compare test ∧
    test.operator = .less := by
  have computed : (beach.nodes.any fun n => n.id == 2 && n.kind == .compare &&
      (n.params.value "operator").asText == "<") = true := by
    decide +kernel
  obtain ⟨n, member, found⟩ := List.any_eq_true.mp computed
  simp only [Bool.and_eq_true, beq_iff_eq] at found
  obtain ⟨⟨id, compares⟩, sign⟩ := found
  refine ⟨n, member, id, ?_⟩
  obtain ⟨id, params, x, y, extras⟩ := n
  cases params with
  | compare test =>
    have same := Comparison.ofSign?_sign test.operator
    rw [show test.operator.sign = "<" from sign] at same
    exact ⟨test, rfl, (Option.some.inj same).symm⟩
  | _ => cases compares

/-- Where the first comparison takes the stone, the sand may replace what lies beyond, and the
number for the open branch may change. -/
theorem beach_untaken :
    (Mutation.connect "5_out" "2_useFalse").succeeds beach = true ∧
    (Mutation.update 2 [("useFalse", .int 7)]).succeeds beach = true ∧
    ∀ m ∈ [Mutation.connect "5_out" "2_useFalse", .update 2 [("useFalse", .int 7)]],
      ∀ id, id ≠ "2_useFalse" →
        (m.apply beach).portSignal (some 6) id ⟨3, 2, 1⟩ =
          beach.portSignal (some 6) id ⟨3, 2, 1⟩ := by
  obtain ⟨n, member, id, test, params, less⟩ := beach_compares
  have decides : beach.taken? (some 6) ⟨3, 2, 1⟩ n test = some true := by
    rw [taken?, id, less]
    decide +kernel
  have deep : DepthLimit.isExceeded (some 6) beach.nodes.length = false := by decide +kernel
  have branch : n.branchId test (!true) = "2_useFalse" := by
    rw [Node.branchId, id]
    show portId 2 "useFalse" = "2_useFalse"
    decide +kernel
  refine ⟨by decide +kernel, by decide +kernel, ?_⟩
  intro m listed
  have rebranches : m.Rebranches n test !true := by
    rcases List.mem_pair.mp listed with rfl | rfl
    · exact branch ▸ .connect "5_out"
    · obtain ⟨n', made, params'⟩ := Node.update_fallback params (show
        canonicalField "useFalse" = Test.fallbackField (!true) by decide +kernel)
        (show Value.toFloat (.int 7) = .ok 7 by decide +kernel)
      exact id ▸ .fallback made params'
  exact branch ▸ beach_built.reachable.untaken member params deep decides rebranches

end Graph

end Landform
