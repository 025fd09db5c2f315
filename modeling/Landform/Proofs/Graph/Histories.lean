import Landform.Proofs.Graph.Saved
import Landform.Proofs.Graph.Versions

/-!
# Histories

A history edits a graph and, between the edits, replaces it by what is loaded from its own data.
The next id never falls, since an edit keeps or raises it and loading takes it over from the data,
so that an id that was given out once is not given out again, also after its node has gone. A
terrain output can go only while there is another one.

1. `outputs_of_remove`: what removing a node leaves of the terrain outputs.
2. `Follows`, `Reachable.follows_apply`: what one move keeps.
3. `stage_follows`: what a history keeps.
4. `Reachable.ids_fresh_outputs_kept`: fresh ids, lasting outputs, and no failed reload.
-/

namespace Landform

/-! ## Definitions -/

/-- One move of a history: an edit other than clearing the graph, or saving the graph and loading it
again with a seed. -/
inductive Move where
  | edit (m : Mutation) (kept : m ≠ .clear)
  | reload (seed : Int)

/-- The graph after a move. A reload that fails would leave the graph as it was. -/
def Move.apply (g : Graph) : Move → Graph
  | edit m _ => m.apply g
  | reload seed => (Graph.ofValue g.toValue seed).toOption.getD g

namespace Graph

/-- A graph after the first moves of a history. -/
def stage (g : Graph) (history : List Move) (k : Nat) : Graph :=
  (history.take k).foldl Move.apply g

/-- Whether a graph has a node that delivers terrain. -/
def Delivers (g : Graph) : Prop :=
  ∃ n ∈ g.nodes, n.isOutput = true

/-- What every later graph of a history keeps from an earlier one. -/
structure Follows (later earlier : Graph) : Prop where
  nextId_le : earlier.nextId ≤ later.nextId
  delivers : earlier.Delivers → later.Delivers

namespace Follows

theorem refl (g : Graph) : g.Follows g :=
  ⟨Int.le_refl _, id⟩

theorem trans {a b c : Graph} (second : c.Follows b) (first : b.Follows a) : c.Follows a :=
  ⟨Int.le_trans first.nextId_le second.nextId_le, second.delivers ∘ first.delivers⟩

/-- Only the nodes and the next id matter. -/
theorem of_nodes {g g' : Graph} (nodes : g'.nodes = g.nodes) (next : g'.nextId = g.nextId) :
    g'.Follows g := by
  refine ⟨Int.le_of_eq next.symm, ?_⟩
  unfold Delivers
  rw [nodes]
  exact id

end Follows

variable {g : Graph}

theorem delivers_iff : g.Delivers ↔ g.outputs ≠ [] := by
  unfold Delivers outputs
  rw [ne_eq, List.filter_eq_nil_iff]
  push Not
  rfl

/-! ## 1. Removing nodes -/

section Removing

variable (sound : g.Sound)

include sound

/-- Next to a terrain output that may be removed there is another one. -/
theorem other_output {n : Node} (member : n ∈ g.nodes) (output : n.isOutput = true)
    (several : g.outputs.length ≠ 1) : ∃ m ∈ g.outputs, m.id ≠ n.id := by
  have listed : n ∈ g.outputs := List.mem_filter.mpr ⟨member, output⟩
  by_contra none
  push Not at none
  -- all outputs have the id of the node, so they are the node itself
  have alone : ∀ m ∈ g.outputs, m = n := fun m output' =>
    node_eq_of_id sound.ids_distinct (List.mem_filter.mp output').1 member (none m output')
  have distinct : g.outputs.Nodup := (List.Nodup.of_map _ sound.ids_distinct).filter _
  have same := List.eq_replicate_of_mem alone
  rw [same, List.nodup_replicate] at distinct
  have := List.length_pos_of_mem listed
  omega

/-- Removing a node leaves a terrain output where there was one. -/
theorem outputs_of_remove (id : Int) (delivers : g.Delivers) :
    (g.run (Edit.remove id)).1.Delivers := by
  rcases run_remove sound id with ⟨why, _, done⟩ | ⟨_, done⟩
  · rw [done]
    exact delivers
  · -- the edit was done, so its guard let the node go
    have guarded : ∀ n, g.node? id = some n → n.isOutput = true → g.outputs.length ≠ 1 := by
      intro n found output single
      rw [Edit.remove, run_bind_ok (run_get g), found] at done
      simp only [output, single, BEq.rfl, Bool.and_self, if_true] at done
      rw [run_pure] at done
      exact absurd (congrArg Prod.snd done) (by simp)
    rw [done]
    show ∃ n ∈ g.nodes.filter (·.id != id), n.isOutput = true
    obtain ⟨n, member, output⟩ := delivers
    by_cases same : n.id = id
    · subst same
      have several := guarded n (sound.node?_iff.mpr ⟨member, rfl⟩) output
      obtain ⟨m, listed, other⟩ := other_output sound member output several
      obtain ⟨member', output'⟩ := List.mem_filter.mp listed
      exact ⟨m, List.mem_filter.mpr ⟨member', by simpa using other⟩, output'⟩
    · exact ⟨n, List.mem_filter.mpr ⟨member, by simpa using same⟩, output⟩

end Removing

/-! ## 2. One move -/

/-- Replacing a node by one of its kind keeps the terrain outputs. -/
theorem delivers_replacing {nodes : List Node} {n n' : Node} (listed : n ∈ nodes)
    (distinct : (nodes.map (·.id)).Nodup) (id : n'.id = n.id) (kind : n'.kind = n.kind)
    (delivers : ∃ m ∈ nodes, m.isOutput = true) :
    ∃ m ∈ nodes.map (fun m => if m.id == n'.id then n' else m), m.isOutput = true := by
  obtain ⟨m, member, output⟩ := delivers
  refine ⟨_, List.mem_map_of_mem member, ?_⟩
  split
  · next same =>
    have : m = n := node_eq_of_id distinct member listed (by simpa [id] using same)
    subst this
    unfold Node.isOutput at output ⊢
    rw [kind]
    exact output
  · exact output

/-- An edit other than clearing keeps or raises the next id, and keeps a terrain output. -/
theorem Sound.follows_apply (sound : g.Sound) {m : Mutation} (kept : m ≠ .clear) :
    (m.apply g).Follows g := by
  cases m with
  | add kind x y =>
    rw [Mutation.apply]
    rcases run_add sound.toWellFormed kind x y with
      ⟨random, cause, done⟩ | ⟨random, k, seed, n, _, _, _, done⟩ <;> rw [done]
    · exact .of_nodes rfl rfl
    · refine ⟨Int.le_add_one (Int.le_refl _), ?_⟩
      rintro ⟨m, member, output⟩
      exact ⟨m, List.mem_append_left _ member, output⟩
  | remove id =>
    have next : ((Mutation.remove id).apply g).nextId = g.nextId := by
      rcases run_remove sound id with ⟨why, _, done⟩ | ⟨_, done⟩
      · exact congrArg (·.1.nextId) done
      · exact congrArg (·.1.nextId) done
    exact ⟨Int.le_of_eq next.symm, outputs_of_remove sound id⟩
  | connect source target =>
    rw [Mutation.apply]
    rcases run_connect sound source target with ⟨why, _, done⟩ | ⟨_, _, what, done⟩ <;> rw [done]
    · exact .refl g
    · exact .of_nodes rfl rfl
  | disconnect source target =>
    rw [Mutation.apply]
    rcases run_disconnect sound source target with ⟨why, done⟩ | ⟨_, done⟩ <;> rw [done]
    · exact .refl g
    · exact .of_nodes rfl rfl
  | update id updates =>
    rw [Mutation.apply]
    rcases run_update sound id updates with ⟨answer, _, done⟩ | ⟨n, n', found, made, _, done⟩ <;>
      rw [done]
    · exact .refl g
    · obtain ⟨same, kind⟩ := Node.update_keeps made
      obtain ⟨member, _⟩ := sound.node?_iff.mp found
      exact ⟨Int.le_refl _, delivers_replacing member sound.ids_distinct same kind⟩
  | clear => exact absurd rfl kept

/-- A node that is added gets the next id, which is then an id of the graph. -/
theorem Sound.add_eq_ok (sound : g.Sound) {kind : String} {x y : Value} {id : Int}
    (added : (g.run (Edit.add kind x y)).2 = .ok id) :
    id = g.nextId ∧ id ∈ (g.run (Edit.add kind x y)).1.ids := by
  rcases run_add sound.toWellFormed kind x y with
    ⟨random, cause, done⟩ | ⟨random, k, seed, n, _, made, _, done⟩ <;> rw [done] at added ⊢
  · cases added
  · cases added
    refine ⟨rfl, List.mem_map.mpr ⟨n, ?_, (Node.create_eq_ok made).1⟩⟩
    exact List.mem_append_right _ (List.mem_singleton.mpr rfl)

section Moves

variable (reachable : g.Reachable)

include reachable

/-- Saving a graph and loading it again does not fail. -/
theorem Reachable.reload_eq (seed : Int) :
    ofValue g.toValue seed = .ok ((Move.reload seed).apply g) := by
  obtain ⟨⟨random, version, loaded⟩, _⟩ := reachable.ofValue_toValue seed
  rw [Move.apply, loaded]
  rfl

theorem Reachable.move (m : Move) : (m.apply g).Reachable := by
  cases m with
  | edit m kept => exact .mutate m reachable
  | reload seed => exact .loaded (reachable.reload_eq seed)

theorem Reachable.follows_apply (m : Move) : (m.apply g).Follows g := by
  cases m with
  | edit m kept => exact reachable.sound.follows_apply kept
  | reload seed =>
    obtain ⟨⟨random, version, loaded⟩, _⟩ := reachable.ofValue_toValue seed
    rw [Move.apply, loaded]
    exact .of_nodes rfl rfl

/-! ## 3. Histories -/

theorem Reachable.moves (history : List Move) : (history.foldl Move.apply g).Reachable := by
  induction history generalizing g with
  | nil => exact reachable
  | cons m rest ih => exact ih (reachable.move m)

theorem Reachable.follows_moves (history : List Move) :
    (history.foldl Move.apply g).Follows g := by
  induction history generalizing g with
  | nil => exact .refl g
  | cons m rest ih => exact (ih (reachable.move m)).trans (reachable.follows_apply m)

/-- Each stage of a history follows the stages before it. -/
theorem Reachable.stage_follows {history : List Move} {i j : Nat} (le : i ≤ j) :
    (g.stage history j).Follows (g.stage history i) := by
  have between : g.stage history j =
      ((history.take j).drop i).foldl Move.apply (g.stage history i) :=
    foldl_take_of_le Move.apply history le
  rw [between]
  exact (reachable.moves _).follows_moves _

/-! ## 4. Fresh ids and lasting outputs -/

/-- In a history of a reachable graph, of any length and with reloads anywhere, the id that adding a
node answers with is the id of a node then and was the id of none at any stage before; once there is
a node that delivers terrain there is one at every later stage; and no reload fails. -/
theorem Reachable.ids_fresh_outputs_kept (history : List Move) :
    (∀ (i j : Nat) (kind : String) (x y : Value) (id : Int), i ≤ j →
      ((g.stage history j).run (Edit.add kind x y)).2 = .ok id →
        id ∈ ((g.stage history j).run (Edit.add kind x y)).1.ids ∧
        id ∉ (g.stage history i).ids) ∧
    (∀ i j : Nat, i ≤ j → (g.stage history i).outputs ≠ [] → (g.stage history j).outputs ≠ []) ∧
    ∀ (k : Nat) (seed : Int), ofValue (g.stage history k).toValue seed =
      .ok ((Move.reload seed).apply (g.stage history k)) := by
  have reached (k : Nat) : (g.stage history k).Reachable := reachable.moves _
  refine ⟨fun i j kind x y id le added => ?_, fun i j le some => ?_, fun k seed => ?_⟩
  · obtain ⟨next, listed⟩ := (reached j).sound.add_eq_ok added
    refine ⟨listed, fun used => ?_⟩
    -- the ids of the earlier stage are below its next id, and so below the one that was given out
    obtain ⟨n, member, same⟩ := List.mem_map.mp used
    have below := (reached i).sound.ids_below n member
    have rising : (g.stage history i).nextId ≤ (g.stage history j).nextId :=
      (reachable.stage_follows le).nextId_le
    omega
  · exact delivers_iff.mp ((reachable.stage_follows le).delivers (delivers_iff.mpr some))
  · exact (reached k).reload_eq seed

end Moves

/-- A terrain output is added, the node with the greatest id goes, and the graph is loaded anew. -/
def turnover : List Move :=
  [.edit (.add "terrain-output" (.int 0) (.int 0)) nofun,
    .edit (.add "abs" (.int 0) (.int 0)) nofun, .edit (.remove 4) nofun, .reload 3,
    .edit (.remove 3) nofun]

/-- After the id 4 has gone, the next node gets the id 5; the terrain output stays. -/
theorem connectedPair_ids_fresh :
    (List.range 6).map (fun k => (connectedPair.stage turnover k).ids) =
      [[1, 2], [1, 2, 3], [1, 2, 3, 4], [1, 2, 3], [1, 2, 3], [1, 2, 3]] ∧
    ((connectedPair.stage turnover 5).run (Edit.add "abs" (.int 0) (.int 0))).2.toOption =
      some 5 ∧
    (∀ (i j : Nat) (kind : String) (x y : Value) (id : Int), i ≤ j →
      ((connectedPair.stage turnover j).run (Edit.add kind x y)).2 = .ok id →
        id ∈ ((connectedPair.stage turnover j).run (Edit.add kind x y)).1.ids ∧
        id ∉ (connectedPair.stage turnover i).ids) ∧
    (∀ i j : Nat, i ≤ j → (connectedPair.stage turnover i).outputs ≠ [] →
      (connectedPair.stage turnover j).outputs ≠ []) ∧
    ∀ (k : Nat) (seed : Int), ofValue (connectedPair.stage turnover k).toValue seed =
      .ok ((Move.reload seed).apply (connectedPair.stage turnover k)) :=
  ⟨by decide +kernel, by decide +kernel,
    connectedPair_built.reachable.ids_fresh_outputs_kept turnover⟩

end Graph

end Landform
