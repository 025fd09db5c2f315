import Landform.Proofs.Evaluation.Deep
import Landform.Proofs.Graph.Upstream

/-!
# Where the terrain comes from

From the node behind the terrain output, a walk follows at each comparison the branch that its test
selects at a point. It ends at a terrain or at an open branch. The terrain of the graph at the point
is the one at which the walk ends; no default takes its place.

1. `Walk.unique`, `exists_walk`: there is one walk from a node that delivers terrain.
2. `Walk.carried`, `Walk.upstream`: what the end of the walk says about its start.
3. `Reachable.terrainAt_walk`: the terrain of a graph.
-/

namespace Landform.Graph

/-! ## Definitions -/

/-- Where a walk ends: at a terrain, or at a comparison whose selected branch is open. -/
inductive Ending where
  | terrain (node : Node) (t : Terrain)
  | opening (node : Node) (branch : String)

/-- What a node carries when the walk from it ends there: the terrain, or a number for the open
branch. -/
def Ending.Carried : Ending → Signal → Prop
  | terrain _ t, signal => signal = .terrain t
  | opening _ _, signal => ∃ x, signal = .number x

/-- The walk from a node along the branches that comparisons select at a point, to its end. -/
inductive Walk (g : Graph) (limit : DepthLimit) (point : Point) : Node → Ending → Prop
  | terrain {n : Node} {t : Terrain} : n.params = .terrainType t →
      Walk g limit point n (.terrain n t)
  | opening {n : Node} {test : Test} {taken : Bool} : n.params = .compare test →
      g.taken? limit point n test = some taken → g.behind? n.id (test.branch taken).1 = none →
      Walk g limit point n (.opening n (test.branch taken).1)
  | branch {n m : Node} {q : Port} {test : Test} {taken : Bool} {e : Ending} :
      n.params = .compare test → g.taken? limit point n test = some taken →
      g.behind? n.id (test.branch taken).1 = some (m, q) → Walk g limit point m e →
      Walk g limit point n e

/-- What leaves a graph without terrain at a point: there is no terrain output, its input is open,
or the walk from the node behind it ends at an open branch. -/
inductive Barren (g : Graph) (limit : DepthLimit) (point : Point) : Prop
  | noOutput : g.output? = none → Barren g limit point
  | openInput {o : Node} : g.output? = some o → g.wiring.isConnected o "in" = false →
      Barren g limit point
  | openBranch {o n m : Node} {p : Port} {branch : String} : g.output? = some o →
      g.behind? o.id "in" = some (n, p) → g.Walk limit point n (.opening m branch) →
      Barren g limit point

variable {g : Graph} {limit : DepthLimit} {point : Point}

/-! ## 1. One walk -/

theorem Walk.unique {n : Node} {e e' : Ending} (walk : g.Walk limit point n e)
    (walk' : g.Walk limit point n e') : e = e' := by
  induction walk with
  | terrain params =>
    cases walk' with
    | terrain params' =>
      cases params.symm.trans params'
      rfl
    | opening params' _ _ | branch params' _ _ _ => cases params.symm.trans params'
  | opening params decides unfed =>
    cases walk' with
    | terrain params' => cases params.symm.trans params'
    | opening params' decides' _ =>
      cases params.symm.trans params'
      cases decides.symm.trans decides'
      rfl
    | branch params' decides' behind _ =>
      cases params.symm.trans params'
      cases decides.symm.trans decides'
      cases unfed.symm.trans behind
  | branch params decides behind _ ih =>
    cases walk' with
    | terrain params' => cases params.symm.trans params'
    | opening params' decides' unfed =>
      cases params.symm.trans params'
      cases decides.symm.trans decides'
      cases behind.symm.trans unfed
    | branch params' decides' behind' rest =>
      cases params.symm.trans params'
      cases decides.symm.trans decides'
      cases behind.symm.trans behind'
      exact ih rest

section Sound

variable (sound : g.Sound) (deep : limit.isExceeded g.nodes.length = false)

include sound

/-- The node behind the selected branch of a comparison. -/
theorem feeding_of_branch {n m : Node} {q : Port} {test : Test} {taken : Bool}
    (member : n ∈ g.nodes) (params : n.params = .compare test)
    (behind : g.behind? n.id (test.branch taken).1 = some (m, q)) :
    ∃ spec, spec.role = (test.branch taken).1 ∧ spec.kind = .terrain ∧ g.Feeding n spec m q := by
  obtain ⟨spec, declared, role, kind⟩ := branch_declared params taken
  exact ⟨spec, role, kind, sound.feeding member declared (role ▸ behind)⟩

include deep

/-- The test of a comparison decides, since both its inputs carry numbers. -/
theorem exists_taken {n : Node} {test : Test} (member : n ∈ g.nodes)
    (params : n.params = .compare test) : ∃ taken, g.taken? limit point n test = some taken := by
  obtain ⟨first, second⟩ := Node.compared_mem_inputs (Node.kind_of_compare params)
  obtain ⟨x, left⟩ := number_of_input sound point deep member first rfl
  obtain ⟨y, right⟩ := number_of_input sound point deep member second rfl
  exact ⟨test.operator.holds x y, congrArg₂ test.operator.decide? left right⟩

/-- From every node that delivers terrain there is a walk to an end. -/
theorem exists_walk {n : Node} {p : Port} (member : n ∈ g.nodes) (port : p ∈ n.outputs)
    (terrain : p.kind = .terrain) : ∃ e, g.Walk limit point n e := by
  induction rank : g.rank p.id using Nat.strong_induction_on generalizing n p with
  | _ rank ih =>
    subst rank
    rcases Node.terrain_or_compare port terrain with ⟨t, params⟩ | ⟨test, params⟩
    · exact ⟨_, .terrain params⟩
    · obtain ⟨taken, decides⟩ := exists_taken sound deep member params
      cases behind : g.behind? n.id (test.branch taken).1 with
      | none => exact ⟨_, .opening params decides behind⟩
      | some entry =>
        obtain ⟨m, q⟩ := entry
        obtain ⟨spec, _, kind, feeding⟩ := feeding_of_branch sound member params behind
        obtain ⟨e, walk⟩ := ih _ (feeding.rank_lt p port) feeding.member feeding.output
          (feeding.kind_eq.trans kind) rfl
        exact ⟨e, .branch params decides behind walk⟩

/-! ## 2. The end of a walk -/

/-- A node delivers the terrain at which the walk from it ends, and a number when the walk ends at
an open branch. -/
theorem Walk.carried {n : Node} {e : Ending} (walk : g.Walk limit point n e) (member : n ∈ g.nodes)
    {p : Port} (port : p ∈ n.outputs) : e.Carried (g.portSignal limit p.id point) := by
  induction walk generalizing p with
  | terrain params =>
    show g.portSignal limit p.id point = _
    rw [deep_output sound point deep member port, ruleSignal?, params]
    rfl
  | @opening n test taken params decides unfed =>
    have unconnected : g.wiring.isConnected n (test.branch taken).1 = false := by
      rw [Wiring.isConnected, sound.behind?_eq_none.mp unfed]
      rfl
    refine ⟨(test.branch taken).2, ?_⟩
    rw [portSignal_compare sound point deep member port params decides,
      if_neg (by simp [unconnected])]
  | @branch n m q test taken e params decides behind _ ih =>
    obtain ⟨spec, role, _, feeding⟩ := feeding_of_branch sound member params behind
    obtain ⟨c, incoming, _⟩ := Option.bind_eq_some_iff.mp behind
    have connected : g.wiring.isConnected n (test.branch taken).1 = true := by
      rw [Wiring.isConnected, incoming]
      rfl
    rw [portSignal_compare sound point deep member port params decides, if_pos connected, ← role,
      deep_behind sound point deep feeding]
    exact ih feeding.member feeding.output

omit deep

/-- A terrain at which a walk ends is one of the graph, upstream of the start. -/
theorem Walk.upstream {n m : Node} {t : Terrain} (walk : g.Walk limit point n (.terrain m t))
    (member : n ∈ g.nodes) :
    m ∈ g.nodes ∧ m.params = .terrainType t ∧ g.Upstream n.id m.id := by
  generalize ending : Ending.terrain m t = e at walk
  induction walk with
  | terrain params =>
    cases ending
    exact ⟨member, params, .refl⟩
  | opening _ _ _ => cases ending
  | branch params _ behind _ ih =>
    obtain ⟨_, _, _, feeding⟩ := feeding_of_branch sound member params behind
    obtain ⟨listed, same, upstream⟩ := ih feeding.member ending
    exact ⟨listed, same, upstream.tail feeding.feeds⟩

/-! ## 3. The terrain of a graph -/

include deep

theorem Barren.terrainAt_eq_none (barren : g.Barren limit point) :
    g.terrainAt limit point = none := by
  cases barren with
  | noOutput missing =>
    have unread : g.terrainInput? = none := by
      rw [terrainInput?, missing]
      rfl
    rw [terrainAt, Probe.terrain, probe, unread]
  | openInput found unconnected =>
    have unread := terrainInput?_eq found
    rw [if_neg (by simp [unconnected])] at unread
    rw [terrainAt, Probe.terrain, probe, unread]
  | openBranch found behind walk =>
    have feeding := sound.feeding_output found behind
    obtain ⟨x, number⟩ := walk.carried sound deep feeding.member feeding.output
    rw [terrainAt_eq sound point deep found behind, number]

/-- Where a graph is not barren, the walk ends at a terrain, which is that of the graph. -/
theorem exists_terrain (fertile : ¬ g.Barren limit point) : ∃ o n p m t, g.output? = some o ∧
    g.behind? o.id "in" = some (n, p) ∧ g.Walk limit point n (.terrain m t) ∧
    m ∈ g.nodes ∧ m.params = .terrainType t ∧ m.id ∈ g.feeding o.id ∧
    g.terrainAt limit point = some t := by
  obtain ⟨o, found⟩ := Option.ne_none_iff_exists'.mp fun none => fertile (.noOutput none)
  obtain ⟨⟨n, p⟩, behind⟩ : ∃ entry, g.behind? o.id "in" = some entry := by
    refine Option.ne_none_iff_exists'.mp fun none => fertile (.openInput found ?_)
    rw [Wiring.isConnected, sound.behind?_eq_none.mp none]
    rfl
  have feeding := sound.feeding_output found behind
  obtain ⟨e, walk⟩ : ∃ e, g.Walk limit point n e :=
    exists_walk sound deep feeding.member feeding.output feeding.kind_eq
  cases e with
  | opening m branch => exact absurd (.openBranch found behind walk) fertile
  | terrain m t =>
    obtain ⟨member, params, upstream⟩ := walk.upstream sound feeding.member
    have carried : g.portSignal limit p.id point = .terrain t :=
      walk.carried sound deep feeding.member feeding.output
    have output : o.id ∈ g.ids := List.mem_map_of_mem (mem_nodes_of_output? found).1
    refine ⟨o, n, p, m, t, found, behind, walk, member, params,
      sound.mem_feeding.mpr ⟨output, upstream.tail feeding.feeds⟩, ?_⟩
    rw [terrainAt_eq sound point deep found behind, carried]

end Sound

/-- On every reachable graph, at every point and within every limit of at least the number of nodes,
there is no terrain exactly when the graph is barren at the point. Otherwise the terrain is that of
a node of the graph that feeds the terrain output, and the walk from the node behind the terrain
output ends there. A walk has one end only. -/
theorem Reachable.terrainAt_walk (reachable : g.Reachable)
    (deep : limit.isExceeded g.nodes.length = false) (point : Point) :
    (g.terrainAt limit point = none ↔ g.Barren limit point) ∧
    (¬ g.Barren limit point → ∃ o n p m t, g.output? = some o ∧
      g.behind? o.id "in" = some (n, p) ∧ g.Walk limit point n (.terrain m t) ∧
      m ∈ g.nodes ∧ m.params = .terrainType t ∧ m.id ∈ g.feeding o.id ∧
      g.terrainAt limit point = some t) ∧
    ∀ n e e', g.Walk limit point n e → g.Walk limit point n e' → e = e' := by
  have sound := reachable.sound
  refine ⟨⟨fun none => ?_, fun barren => barren.terrainAt_eq_none sound deep⟩,
    exists_terrain sound deep, fun n e e' walk walk' => walk.unique walk'⟩
  by_contra fertile
  obtain ⟨_, _, _, _, t, _, _, _, _, _, _, some⟩ := exists_terrain sound deep fertile
  rw [none] at some
  cases some

/-- Stone where the height is less than the first coordinate, sand elsewhere unless the height is
less than zero, where the branch is open. -/
def beach : Graph :=
  [Mutation.add "position" (.int 0) (.int 0), .add "compare" (.int 9) (.int 0),
    .add "compare" (.int 9) (.int 9), .add "terrain-type" (.int 9) (.int 18),
    .add "terrain-type" (.int 9) (.int 27), .add "terrain-output" (.int 18) (.int 0),
    .update 5 [("name", .text "Sand")], .connect "1_outY" "2_in1", .connect "1_outX" "2_in2",
    .connect "1_outY" "3_in1", .connect "4_out" "2_useTrue", .connect "3_out" "2_useFalse",
    .connect "5_out" "3_useFalse", .connect "2_out" "6_in"].foldl Mutation.apply (empty 7)

theorem beach_built : beach.Built :=
  (Built.empty 7).run _

/-- Points where the walk ends at the stone, at the sand, and at the open branch. -/
theorem beach_terrainAt_walk :
    beach.terrainAt (some 6) ⟨3, 2, 1⟩ = some ⟨"Stone", .solid, "#888888"⟩ ∧
    beach.terrainAt (some 6) ⟨1, 2, 3⟩ = some ⟨"Sand", .solid, "#888888"⟩ ∧
    beach.Barren (some 6) ⟨-3, -2, 1⟩ ∧
    (∃ o n p m, beach.output? = some o ∧ beach.behind? o.id "in" = some (n, p) ∧
      beach.Walk (some 6) ⟨1, 2, 3⟩ n (.terrain m ⟨"Sand", .solid, "#888888"⟩) ∧
      m.id ∈ beach.feeding o.id) := by
  have deep : DepthLimit.isExceeded (some 6) beach.nodes.length = false := by decide +kernel
  have sand : beach.terrainAt (some 6) ⟨1, 2, 3⟩ = some ⟨"Sand", .solid, "#888888"⟩ := by
    decide +kernel
  refine ⟨by decide +kernel, sand, ?_, ?_⟩
  · exact (beach_built.reachable.terrainAt_walk deep _).1.mp (by decide +kernel)
  · obtain ⟨barren, fertile, _⟩ := beach_built.reachable.terrainAt_walk deep ⟨1, 2, 3⟩
    have found : ¬ beach.Barren (some 6) ⟨1, 2, 3⟩ := by
      rw [← barren, sand]
      exact nofun
    obtain ⟨o, n, p, m, t, output, behind, walk, _, _, feeds, same⟩ := fertile found
    rw [sand] at same
    cases same
    exact ⟨o, n, p, m, output, behind, walk, feeds⟩

end Landform.Graph
