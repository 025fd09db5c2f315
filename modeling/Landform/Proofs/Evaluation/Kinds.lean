import Landform.Proofs.Evaluation.Inquiry
import Landform.Proofs.Evaluation.Walk

/-!
# Signals respect the kinds of ports

Signals are numbers or terrains, and nothing about a signal says which port it belongs to. That a
port of numbers never carries a terrain follows from the connections, which join ports of one kind,
from the rules, and from the defaults that stand in for whatever gives no signal. A port of terrain
can carry a number in one way only: an open branch of a comparison delivers its fallback.

This holds at every depth and with any ports on the way, so also where a guard cuts the evaluation
short. No rule then meets a terrain where it computes with numbers.

1. `Params.rule_terrain`, `Params.operand_or_delivered`: one rule.
2. `Graph.Carries`, `Sound.carries`: all ports, by recursion along the connections.
3. `Reachable.kinds_respected`: reachable graphs.
-/

namespace Landform

/-! ## 1. One rule -/

/-- Only comparisons and terrain outputs take terrain. -/
theorem Kind.compare_or_output {k : Kind} {spec : PortSpec} (member : spec ∈ k.inputs)
    (terrain : spec.kind = .terrain) : k = .compare ∨ k = .terrainOutput := by
  have others : ∀ k : Kind, k ≠ .compare → k ≠ .terrainOutput → ∀ spec ∈ k.inputs,
      spec.kind ≠ .terrain := by
    intro k
    cases k <;> decide
  by_contra neither
  exact others k (fun same => neither (.inl same)) (fun same => neither (.inr same)) spec member
    terrain

namespace Params

/-- A rule for a terrain output gives a terrain, or what a comparison has on a branch. -/
theorem rule_terrain {p : Params} {out : PortSpec} (declared : out ∈ p.kind.outputs)
    (terrain : out.kind = .terrain) {s : Surroundings} {signal : Signal}
    (succeeded : p.rule out.role s = some signal) :
    (∃ t, signal = .terrain t) ∨ ∃ test taken, p = .compare test ∧
      (signal = s.input (test.branch taken).1 ∨ signal = .number (test.branch taken).2) := by
  cases p with
  | terrainType t =>
    cases succeeded
    exact .inl ⟨t, rfl⟩
  | compare test =>
    obtain ⟨taken, _, done⟩ := Option.bind_eq_some_iff.mp succeeded
    cases done
    refine .inr ⟨test, taken, rfl, ?_⟩
    dsimp only
    split
    · exact .inl rfl
    · exact .inr rfl
  | _ =>
    rcases Kind.terrain_or_compare declared terrain with same | same <;> cases same

/-- A rule computes with number inputs only. What else it asks for it delivers as it is. -/
theorem operand_or_delivered (p : Params) (out : String) (s : Surroundings) :
    ∀ role ∈ (p.inquiry out s.point s.isConnected).asked s.input,
      (∃ spec ∈ p.kind.inputs, spec.role = role ∧ spec.kind = .float) ∨
        p.rule out s = some (s.input role) := by
  intro role asked
  cases p with
  | compare test =>
    unfold inquiry at asked
    rcases asked with _ | ⟨_, _ | ⟨_, asked⟩⟩
    · exact .inl ⟨_, .head _, rfl, rfl⟩
    · exact .inl ⟨_, .tail _ (.head _), rfl, rfl⟩
    · -- behind the test, only the selected branch is asked for
      dsimp only at asked
      split at asked
      · cases asked
      · next taken decides =>
        split at asked
        · next connected =>
          cases List.mem_singleton.mp asked
          right
          simp [rule, decides, connected]
        · cases asked
  | terrainOutput =>
    cases List.mem_singleton.mp asked
    exact .inr rfl
  | _ =>
    obtain ⟨spec, declared, rfl, _⟩ := asked_inquiry _ out s.point s.isConnected s.input role asked
    cases kind : spec.kind with
    | float => exact .inl ⟨spec, declared, rfl, kind⟩
    | terrain => rcases Kind.compare_or_output declared kind with same | same <;> cases same

end Params

/-! ## 2. All ports -/

namespace Graph

/-- What a port of a kind can carry: a port of numbers a number, a port of terrain a terrain or the
fallback of a comparison of the graph. -/
inductive Carries (g : Graph) : PortKind → Signal → Prop
  | number (x : Float) : Carries g .float (.number x)
  | terrain (t : Terrain) : Carries g .terrain (.terrain t)
  | fallback {n : Node} {test : Test} (taken : Bool) : n ∈ g.nodes → n.params = .compare test →
      Carries g .terrain (.number (test.branch taken).2)

theorem carries_default (g : Graph) (kind : PortKind) : g.Carries kind kind.default := by
  cases kind with
  | float => exact .number 0
  | terrain => exact .terrain .openAir

theorem Carries.exists_number {g : Graph} {signal : Signal} (carries : g.Carries .float signal) :
    ∃ x, signal = .number x := by
  cases carries
  exact ⟨_, rfl⟩

theorem Carries.terrain_or_fallback {g : Graph} {signal : Signal}
    (carries : g.Carries .terrain signal) :
    (∃ t, signal = .terrain t) ∨ ∃ m ∈ g.nodes, ∃ test, m.params = .compare test ∧
      (signal = .number test.useTrue ∨ signal = .number test.useFalse) := by
  cases carries with
  | terrain t => exact .inl ⟨t, rfl⟩
  | fallback taken member compares =>
    refine .inr ⟨_, member, _, compares, ?_⟩
    cases taken
    · exact .inr rfl
    · exact .inl rfl

section Sound

variable {g : Graph} (sound : g.Sound) (limit : DepthLimit) (point : Point)

/-- The rule of a node keeps to the kind of the output when the branches of comparisons do. -/
theorem carries_rule {n : Node} {p : Port} (member : n ∈ g.nodes) (port : p ∈ n.outputs)
    {s : Surroundings} (branches : ∀ spec ∈ n.kind.inputs, spec.kind = .terrain →
      g.Carries .terrain (s.input spec.role)) :
    g.Carries p.kind ((n.params.rule p.role s).getD p.kind.default) := by
  cases given : n.params.rule p.role s with
  | none => exact carries_default g p.kind
  | some signal =>
    obtain ⟨out, declared, rfl⟩ := List.mem_map.mp port
    cases kind : out.kind with
    | float =>
      obtain ⟨x, rfl⟩ := Params.rule_number declared kind given
      exact kind ▸ .number x
    | terrain =>
      have terrain : (out.bind n.id).kind = .terrain := kind
      rw [terrain]
      obtain ⟨t, rfl⟩ | ⟨test, taken, compares, rfl | rfl⟩ :=
        Params.rule_terrain declared kind given
      · exact .terrain t
      · obtain ⟨spec, listed, role, branch⟩ := Kind.exists_branch taken
        have here : spec ∈ n.kind.inputs := by
          rw [Node.kind, compares]
          exact listed
        have named : spec.role = (test.branch taken).1 := by
          rw [role, Test.branch]
          split <;> rfl
        exact named ▸ branches spec here branch
      · exact .fallback taken member compares

include sound

theorem Sound.carries (id : String) : ∀ visiting depth n p, g.wiring.find? id = some (n, p) →
    g.Carries p.kind (g.wiring.portSignal limit point visiting depth id) := by
  induction id using sound.port_induction with
  | unknown id unknown =>
    intro _ _ n p known
    rw [unknown] at known
    cases known
  | output n member p port ih =>
    intro visiting depth n' p' known
    cases known.symm.trans (sound.find?_output member port)
    rw [guarded_eq limit point known, isOutput_of_mem_outputs port]
    split
    · exact carries_default g p.kind
    · split
      · exact carries_default g p.kind
      · refine carries_rule member port fun spec declared terrain => ?_
        have listed : spec.bind n.id ∈ n.inputs := List.mem_map_of_mem declared
        exact terrain ▸ ih _ listed (p.id :: visiting) depth n (spec.bind n.id)
          (sound.find?_input member listed)
  | connected c member ih =>
    intro visiting depth n q' known
    obtain ⟨p, q, joins⟩ := sound.joined c member
    obtain ⟨m, mm, source, _⟩ := joins.source
    obtain ⟨k, mk, target, _⟩ := joins.target
    have found := sound.find?_input mk target
    rw [joins.target_id] at found
    obtain ⟨rfl, rfl⟩ : k = n ∧ q = q' := by simpa using found.symm.trans known
    have behind := ih (c.target :: visiting) (depth + 1) m p
      (joins.source_id ▸ sound.find?_output mm source)
    rw [guarded_eq limit point known, sound.incoming?_iff.mpr ⟨member, rfl⟩,
      isOutput_of_mem_inputs target]
    split
    · exact carries_default g q.kind
    · split
      · exact carries_default g q.kind
      · exact joins.kind_eq ▸ behind
  | unconnected n member q port none =>
    intro visiting depth n' p known
    cases known.symm.trans (sound.find?_input member port)
    rw [guarded_open sound limit point member port none]
    exact carries_default g q.kind

end Sound

/-- Every port of a reachable graph carries what its kind promises, and no rule computes with a
terrain: an input that it asks for carries a number, or the rule delivers the signal as it is. -/
theorem Reachable.kinds_respected {g : Graph} (reachable : g.Reachable) (limit : DepthLimit)
    (point : Point) (visiting : List String) (depth : Nat) {n : Node} (member : n ∈ g.nodes) :
    (∀ p ∈ n.ports, p.kind = .float →
      ∃ x, g.wiring.portSignal limit point visiting depth p.id = .number x) ∧
    (∀ p ∈ n.ports, p.kind = .terrain →
      (∃ t, g.wiring.portSignal limit point visiting depth p.id = .terrain t) ∨
      ∃ m ∈ g.nodes, ∃ test, m.params = .compare test ∧
        (g.wiring.portSignal limit point visiting depth p.id = .number test.useTrue ∨
          g.wiring.portSignal limit point visiting depth p.id = .number test.useFalse)) ∧
    ∀ p ∈ n.outputs,
      let s := g.guardedInputs limit point visiting depth n
      ∀ role ∈ (n.params.inquiry p.role s.point s.isConnected).asked s.input,
        (∃ x, s.input role = .number x) ∧ (∃ q ∈ n.inputs, q.role = role ∧ q.kind = .float) ∨
          n.params.rule p.role s = some (s.input role) := by
  have sound := reachable.sound
  have carries (p : Port) (port : p ∈ n.ports) :
      g.Carries p.kind (g.wiring.portSignal limit point visiting depth p.id) :=
    sound.carries limit point p.id visiting depth n p (sound.find?_iff.mpr ⟨member, port, rfl⟩)
  have numbers (p : Port) (port : p ∈ n.ports) (float : p.kind = .float) :
      ∃ x, g.wiring.portSignal limit point visiting depth p.id = .number x :=
    (float ▸ carries p port).exists_number
  refine ⟨numbers, fun p port terrain => (terrain ▸ carries p port).terrain_or_fallback,
    fun p _ role asked => ?_⟩
  rcases Params.operand_or_delivered _ _ _ role asked with ⟨spec, declared, rfl, float⟩ | delivered
  · have listed : spec.bind n.id ∈ n.inputs := List.mem_map_of_mem declared
    exact .inl ⟨numbers _ (Node.mem_ports.mpr (.inl listed)) float, _, listed, rfl, float⟩
  · exact .inr delivered

/-- Below zero the second comparison of the beach has a number on its terrain output: the fallback
of its open branch. Its number inputs still carry numbers. -/
theorem beach_kinds_respected : ∃ n ∈ beach.nodes, n.id = 3 ∧
    (beach.wiring.portSignal (some 6) ⟨-3, -2, 1⟩ [] 0 "3_out").number?.isSome = true ∧
    (∀ p ∈ n.ports, p.kind = .float →
      ∃ x, beach.wiring.portSignal (some 6) ⟨-3, -2, 1⟩ [] 0 p.id = .number x) ∧
    ∀ p ∈ n.ports, p.kind = .terrain →
      (∃ t, beach.wiring.portSignal (some 6) ⟨-3, -2, 1⟩ [] 0 p.id = .terrain t) ∨
      ∃ m ∈ beach.nodes, ∃ test, m.params = .compare test ∧
        (beach.wiring.portSignal (some 6) ⟨-3, -2, 1⟩ [] 0 p.id = .number test.useTrue ∨
          beach.wiring.portSignal (some 6) ⟨-3, -2, 1⟩ [] 0 p.id = .number test.useFalse) := by
  obtain ⟨n, member, id⟩ : ∃ n ∈ beach.nodes, n.id = 3 := by decide +kernel
  obtain ⟨numbers, terrains, _⟩ :=
    beach_built.reachable.kinds_respected (some 6) ⟨-3, -2, 1⟩ [] 0 member
  exact ⟨n, member, id, by decide +kernel, numbers, terrains⟩

end Graph

end Landform
