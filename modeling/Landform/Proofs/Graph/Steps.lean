import Landform.Graph.Edit
import Landform.Proofs.Graph.Changes
import Landform.Proofs.Params

/-!
# What an edit does

Each edit either leaves a graph as it is, up to the random numbers, or changes it in one way that
its lemma states. An edit that changes the structure ends with `commit`, which succeeds on
well-formed nodes and connections and leaves `Graph.settled`.

1. `run_bind` and its companions: running edits one after the other.
2. `run_commit`: the end of a change.
3. `run_add`, `run_remove`, `run_connect`, `run_disconnect`, `run_update`, `run_clear`: the edits.
-/

namespace Landform

open Relation

/-! ## 1. Running edits -/

namespace Graph

variable {α β : Type}

theorem run_pure (g : Graph) (a : α) : g.run (pure a) = (g, .ok a) := rfl

theorem run_throw (g : Graph) (cause : Error) : g.run (throw cause : Edit α) = (g, .error cause) :=
  rfl

theorem run_get (g : Graph) : g.run (get : Edit Graph) = (g, .ok g) := rfl

theorem run_set (g g' : Graph) : g.run (set g' : Edit Unit) = (g', .ok ()) := rfl

theorem run_modify (g : Graph) (change : Graph → Graph) :
    g.run (modify change : Edit Unit) = (change g, .ok ()) := rfl

theorem run_lift (g : Graph) (result : Except Error α) :
    g.run (Edit.lift result) = (g, result) := by
  cases result <;> rfl

theorem run_bind (g : Graph) (first : Edit α) (rest : α → Edit β) :
    g.run (first >>= rest) =
      match g.run first with
      | (g', .ok a) => g'.run (rest a)
      | (g', .error cause) => (g', .error cause) := by
  simp only [run, EStateM.run, bind, EStateM.bind]
  cases first g <;> rfl

theorem run_bind_ok {g g' : Graph} {first : Edit α} {rest : α → Edit β} {a : α}
    (done : g.run first = (g', .ok a)) : g.run (first >>= rest) = g'.run (rest a) := by
  rw [run_bind, done]

theorem run_bind_error {g g' : Graph} {first : Edit α} {rest : α → Edit β} {cause : Error}
    (failed : g.run first = (g', .error cause)) : g.run (first >>= rest) = (g', .error cause) := by
  rw [run_bind, failed]

/-- A run that answers went through its first part. -/
theorem run_bind_eq_ok {g g' : Graph} {first : Edit α} {rest : α → Edit β} {b : β}
    (done : g.run (first >>= rest) = (g', .ok b)) :
    ∃ between a, g.run first = (between, .ok a) ∧ between.run (rest a) = (g', .ok b) := by
  rw [run_bind] at done
  split at done
  · next between a found => exact ⟨between, a, found, done⟩
  · exact absurd done (by simp)

/-! ## 2. The end of a change -/

/-- The graph with the tables of its nodes and connections. -/
def refreshed (g : Graph) : Graph :=
  { g with tables := .of g.nodes g.connections }

/-- The graph after the end of a change. -/
def settled (g : Graph) : Graph :=
  { g.refreshed with version := g.version + 1 }

theorem settled_sound {g : Graph} (formed : WellFormed g.nodes g.connections g.nextId) :
    g.settled.Sound :=
  { formed with tables_eq := rfl }

theorem refreshed_sound {g : Graph} (formed : WellFormed g.nodes g.connections g.nextId) :
    g.refreshed.Sound :=
  { formed with tables_eq := rfl }

theorem Sound.dangling?_eq_none {g : Graph} (sound : g.Sound) : g.dangling? = none := by
  refine List.findSome?_eq_none_iff.mpr fun c member => ?_
  obtain ⟨p, q, joins⟩ := sound.joined c member
  obtain ⟨m, mm, mp, _⟩ := joins.source
  obtain ⟨n, mn, mq, _⟩ := joins.target
  rw [sound.find?_iff.mpr ⟨mm, Node.mem_ports.mpr (.inr mp), joins.source_id⟩,
    sound.find?_iff.mpr ⟨mn, Node.mem_ports.mpr (.inl mq), joins.target_id⟩]
  rfl

theorem run_commit {g : Graph} (formed : WellFormed g.nodes g.connections g.nextId) :
    g.run Edit.commit = (g.settled, .ok ()) := by
  have whole := (refreshed_sound formed).dangling?_eq_none
  rw [Edit.commit, run_bind_ok (run_modify g _), run_bind_ok (run_get _)]
  rw [refreshed] at whole
  rw [whole]
  rfl

end Graph

/-! ## 3. The edits -/

namespace Graph

variable (g : Graph)

/-- Drawing a seed changes the random numbers at most. -/
theorem run_drawSeed (k : Kind) :
    ∃ random seed, g.run (Edit.drawSeed k) = ({ g with random }, .ok seed) := by
  unfold Edit.drawSeed
  split
  · rw [run_bind_ok (run_get g)]
    generalize g.random.below Edit.seedRange = drawn
    exact ⟨drawn.2, drawn.1, rfl⟩
  · exact ⟨g.random, 0, rfl⟩

variable {g} (formed : WellFormed g.nodes g.connections g.nextId)

include formed

/-- Adding a node fails, or appends a node with the next id. -/
theorem run_add (kind : String) (x y : Value) :
    (∃ random cause, g.run (Edit.add kind x y) = ({ g with random }, .error cause)) ∨
    ∃ random k seed n, Catalog.find kind = .ok k ∧ Node.create g.nextId k seed x y = .ok n ∧
      WellFormed (g.nodes ++ [n]) g.connections (g.nextId + 1) ∧
      g.run (Edit.add kind x y) = (settled { g with
        random, nodes := g.nodes ++ [n], nextId := g.nextId + 1 }, .ok g.nextId) := by
  unfold Edit.add
  have looked := run_lift g (Catalog.find kind)
  cases found : Catalog.find kind with
  | error cause =>
    rw [found] at looked
    exact .inl ⟨g.random, cause, run_bind_error looked⟩
  | ok k =>
    rw [found] at looked
    obtain ⟨random, seed, drawn⟩ := run_drawSeed g k
    rw [run_bind_ok looked, run_bind_ok drawn, run_bind_ok (run_get _)]
    have created := run_lift { g with random } (Node.create g.nextId k seed x y)
    cases made : Node.create g.nextId k seed x y with
    | error cause =>
      rw [made] at created
      exact .inl ⟨random, cause, run_bind_error created⟩
    | ok n =>
      rw [made] at created
      obtain ⟨id, _, _⟩ := Node.create_eq_ok made
      have fresh : n.id ∉ g.nodes.map (·.id) := by
        intro used
        obtain ⟨m, member, same⟩ := List.mem_map.mp used
        have := formed.ids_below m member
        omega
      have grown : WellFormed (g.nodes ++ [n]) g.connections (g.nextId + 1) :=
        formed.append fresh (by omega) (by omega)
      refine .inr ⟨random, k, seed, n, rfl, made, grown, ?_⟩
      rw [run_bind_ok created, run_bind_ok (run_set _ _), run_bind_ok (run_commit grown), run_pure,
        id]

omit formed

/-- What is left of the connections when a node goes. -/
def untouched (g : Graph) (id : Int) : List Connection :=
  g.connections.filter fun c => !(g.touching id).contains c

theorem not_touches_of_untouched {n : Node} (found : g.node? n.id = some n) {c : Connection}
    (kept : c ∈ g.untouched n.id) : ¬ Touches n c := by
  obtain ⟨member, apart⟩ := List.mem_filter.mp kept
  intro touches
  have listed : c ∈ g.touching n.id := by
    rw [touching, found]
    refine List.mem_filter.mpr ⟨member, ?_⟩
    simp only [List.contains_eq_mem, Bool.or_eq_true, decide_eq_true_eq]
    exact touches
  simp [listed] at apart

/-- Removing a node changes nothing when there is none or it is the only terrain output, or takes
the node away with the connections that touch it. -/
theorem run_remove (sound : g.Sound) (id : Int) :
    (∃ why, (∀ n, g.node? id = some n → n.isOutput = true ∧ g.outputs.length = 1) ∧
      g.run (Edit.remove id) = (g, .ok (.refused why))) ∨
    WellFormed (g.nodes.filter (·.id != id)) (g.untouched id) g.nextId ∧
      g.run (Edit.remove id) =
        (settled { g with nodes := g.nodes.filter (·.id != id), connections := g.untouched id },
          .ok (.done (.removedNode id))) := by
  rw [Edit.remove, run_bind_ok (run_get g)]
  cases found : g.node? id with
  | none => exact .inl ⟨_, by simp, run_pure g _⟩
  | some n =>
    dsimp only
    split
    · next only => exact .inl ⟨_, by simpa using only, run_pure g _⟩
    · obtain ⟨member, rfl⟩ := sound.node?_iff.mp found
      have formed : WellFormed (g.nodes.filter (·.id != n.id)) (g.untouched n.id) g.nextId :=
        sound.toWellFormed.without member List.filter_sublist
          fun c kept => not_touches_of_untouched found kept
      refine .inr ⟨formed, ?_⟩
      rw [run_bind_ok (run_set _ _), ← untouched, run_bind_ok (run_commit formed), run_pure]

/-- What is left of the connections when another one takes an input. -/
def making (g : Graph) (target : String) : List Connection :=
  match g.wiring.incoming? target with
  | some old => g.connections.erase old
  | none => g.connections

theorem making_sublist (g : Graph) (target : String) :
    (g.making target).Sublist g.connections := by
  unfold making
  split
  · exact List.erase_sublist
  · exact .refl _

theorem Sound.target_ne_of_making (sound : g.Sound) {target : String} {d : Connection}
    (kept : d ∈ g.making target) : d.target ≠ target := by
  rintro rfl
  have member := (g.making_sublist d.target).subset kept
  rw [making, sound.incoming?_iff.mpr ⟨member, rfl⟩] at kept
  have distinct : g.connections.Nodup := List.Nodup.of_map _ sound.targets_distinct
  exact distinct.not_mem_erase kept

/-- Connecting two ports changes nothing, or adds the connection in place of the one that led into
the input. -/
theorem run_connect (sound : g.Sound) (source target : String) :
    (∃ why, Edit.refusal? g source target = some why ∧
      g.run (Edit.connect source target) = (g, .ok (.refused why))) ∨
    Edit.refusal? g source target = none ∧
      WellFormed g.nodes (g.making target ++ [⟨source, target⟩]) g.nextId ∧
      ∃ what, g.run (Edit.connect source target) =
        (settled { g with connections := g.making target ++ [⟨source, target⟩] },
          .ok (.done what)) := by
  rw [Edit.connect, run_bind_ok (run_get g)]
  cases checked : Edit.refusal? g source target with
  | some why => exact .inl ⟨why, rfl, run_pure g _⟩
  | none =>
    obtain ⟨p, q, joins, noPath⟩ := sound.refusal?_eq_none.mp checked
    have fewer := sound.toWellFormed.sublist (g.making_sublist target)
    have noPath' : ¬ ReflTransGen (Landform.Feeds g.nodes (g.making target)) q.node p.node := by
      refine fun path => noPath (ReflTransGen.mono (fun a b feeds => ?_) _ _ path)
      exact feeds.mono (fun _ h => h) (fun _ h => h) (g.making_sublist target).subset
    have formed := fewer.join joins noPath' fun d kept => sound.target_ne_of_making kept
    refine .inr ⟨rfl, formed, ?_⟩
    dsimp only
    rw [run_bind_ok (run_set _ _)]
    exact ⟨_, (run_bind_ok (run_commit formed)).trans (run_pure _ _)⟩

/-- Removing a connection changes nothing, or removes just that connection. -/
theorem run_disconnect (sound : g.Sound) (source target : String) :
    (∃ why, g.run (Edit.disconnect source target) = (g, .ok (.refused why))) ∨
    WellFormed g.nodes (g.connections.erase ⟨source, target⟩) g.nextId ∧
      g.run (Edit.disconnect source target) =
        (settled { g with connections := g.connections.erase ⟨source, target⟩ },
          .ok (.done .disconnected)) := by
  rw [Edit.disconnect, run_bind_ok (run_get g)]
  dsimp only
  split
  · have formed := sound.toWellFormed.sublist (List.erase_sublist (a := ⟨source, target⟩))
    refine .inr ⟨formed, ?_⟩
    rw [run_bind_ok (run_set _ _), run_bind_ok (run_commit formed), run_pure]
  · exact .inl ⟨_, run_pure g _⟩

/-- The nodes with one of them replaced. -/
def replacing (g : Graph) (updated : Node) : List Node :=
  g.nodes.map fun n => if n.id == updated.id then updated else n

theorem samePorts_replacing {n updated : Node} (found : g.node? n.id = some n)
    (distinct : g.ids.Nodup) (id : updated.id = n.id) (kind : updated.kind = n.kind) :
    SamePorts g.nodes (g.replacing updated) := by
  unfold SamePorts replacing
  rw [List.map_map]
  refine List.map_congr_left fun m member => ?_
  by_cases same : m.id = n.id
  · have := node_eq_of_id distinct member ((node?_iff distinct).mp found).1 same
    subst this
    simp [id, kind]
  · simp [id, same]

/-- Updating parameters fails, refuses, or replaces the node by one of the same id and kind. -/
theorem run_update (sound : g.Sound) (id : Int) (updates : Fields) :
    (∃ answer, (∀ what, answer ≠ .ok (.done what)) ∧
      g.run (Edit.update id updates) = (g, answer)) ∨
    ∃ n updated, g.node? id = some n ∧ n.update updates = .ok updated ∧
      SamePorts g.nodes (g.replacing updated) ∧
      g.run (Edit.update id updates) =
        ({ g with nodes := g.replacing updated, version := g.version + 1 },
          .ok (.done .updated)) := by
  rw [Edit.update, run_bind_ok (run_get g)]
  cases found : g.node? id with
  | none => exact .inl ⟨_, by simp, run_pure g _⟩
  | some n =>
    obtain ⟨member, rfl⟩ := sound.node?_iff.mp found
    dsimp only
    cases made : n.update updates with
    | error cause =>
      dsimp only
      split
      · exact .inl ⟨_, by simp, run_pure g _⟩
      · exact .inl ⟨_, by simp, run_throw g _⟩
    | ok updated =>
      obtain ⟨same, kind⟩ := Node.update_keeps made
      have ports := samePorts_replacing found sound.ids_distinct same kind
      refine .inr ⟨n, updated, rfl, made, ports, ?_⟩
      dsimp only
      rw [run_bind_ok (run_set _ _), run_pure, replacing, same]

/-- Clearing a graph leaves no nodes and no connections. -/
theorem run_clear (g : Graph) :
    g.run Edit.clear =
      (settled { g with nodes := [], connections := [], nextId := 1 }, .ok ()) := by
  rw [Edit.clear, run_bind_ok (run_modify _ _)]
  exact run_commit (.nil 1)

end Graph

end Landform
