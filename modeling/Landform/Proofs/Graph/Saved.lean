import Landform.Proofs.Graph.States

/-!
# Saving and loading

A graph that is saved as data and loaded again is the same graph, up to its random numbers and its
version. Loading appends each node to those before it, since its parameters are whole and its id is
new, and then each connection to those before it, since a part of an acyclic set of connections is
acyclic.

1. `Stored`, `Reachable.stored`: what holds of every graph that can be saved.
2. `run_loadNode`, `run_loadNodes`: loading saved nodes.
3. `run_loadConnection`, `run_loadConnections`: loading saved connections.
4. `Reachable.ofValue_toValue`: loading what was saved.
-/

namespace Landform.Graph

open Relation

/-! ## 1. Graphs that can be saved -/

/-- What holds of the nodes and of the next id, also while a graph is being read. -/
structure Reading (g : Graph) : Prop where
  nodes_whole : ∀ n ∈ g.nodes, n.Whole
  next_pos : 0 < g.nextId

/-- A sound graph of whole nodes whose next id is positive. -/
structure Stored (g : Graph) : Prop extends g.Sound, g.Reading

theorem stored_empty (seed : Int) : (empty seed).Stored :=
  { empty_sound seed with
    nodes_whole := fun _ none => absurd none List.not_mem_nil
    next_pos := Int.zero_lt_one }

theorem forall_mem_append_singleton {α : Type} {holds : α → Prop} {l : List α} {a : α}
    (all : ∀ b ∈ l, holds b) (new : holds a) : ∀ b ∈ l ++ [a], holds b :=
  List.forall_mem_append.mpr ⟨all, List.forall_mem_singleton.mpr new⟩

/-- A change keeps a graph fit to be saved. -/
theorem Stored.change {g g' : Graph} (stored : g.Stored) (changed : g.Changed g') : g'.Stored := by
  have sound := stored.toSound.change changed
  cases changed with
  | unchanged _ =>
    exact { sound with nodes_whole := stored.nodes_whole, next_pos := stored.next_pos }
  | added made _ =>
    exact { sound with
      nodes_whole := forall_mem_append_singleton stored.nodes_whole (Node.whole_of_create made)
      next_pos := Int.lt_add_one_of_le (Int.le_of_lt stored.next_pos) }
  | removed _ =>
    exact { sound with
      nodes_whole := fun n kept => stored.nodes_whole n (List.mem_filter.mp kept).1
      next_pos := stored.next_pos }
  | connected _ _ | disconnected _ =>
    exact { sound with nodes_whole := stored.nodes_whole, next_pos := stored.next_pos }
  | updated found made _ =>
    refine { sound with nodes_whole := ?_, next_pos := stored.next_pos }
    refine List.forall_mem_map.mpr fun m member => ?_
    split
    · exact (stored.nodes_whole _ (stored.node?_iff.mp found).1).update made
    · exact stored.nodes_whole m member
  | cleared =>
    exact { sound with
      nodes_whole := fun _ none => absurd none List.not_mem_nil
      next_pos := Int.zero_lt_one }

theorem keeps_reading_loadNode (entry : Value) : Keeps Reading (loadNode entry) := by
  intro g reading
  generalize result : g.run (loadNode entry) = left
  cases result ▸ read_loadNode g entry with
  | stopped random cause => exact { reading with }
  | appended _ _ whole =>
    exact ⟨forall_mem_append_singleton reading.nodes_whole whole,
      Int.lt_of_lt_of_le reading.next_pos (Int.le_max_left _ _)⟩

theorem stored_of_ofValue {config : Value} {seed : Int} {g : Graph}
    (done : ofValue config seed = .ok g) : g.Stored := by
  obtain ⟨nodes, connections, loaded, nextId, _, _, _, read, loading, done⟩ :=
    stages_of_ofValue done
  have reading : loaded.Reading := by
    have start : (empty seed).Reading := ⟨(stored_empty seed).nodes_whole, Int.zero_lt_one⟩
    have all := Keeps.forM nodes keeps_reading_loadNode _ start
    rwa [read] at all
  have unconnected : (loaded.unconnected nextId).Stored :=
    { loading.sound_unconnected nextId with
      nodes_whole := reading.nodes_whole
      next_pos := Int.lt_of_lt_of_le reading.next_pos (Int.le_max_left _ _) }
  have connect (source target : String) : Keeps Stored (Edit.connect source target) :=
    fun _ stored => stored.change (changed_connect stored.toSound source target)
  have all := Keeps.forM connections (keeps_loadConnection connect) _ unconnected
  rwa [done] at all

theorem Built.stored {g : Graph} (built : g.Built) : g.Stored := by
  induction built with
  | empty seed => exact stored_empty seed
  | mutate m _ ih => exact ih.change (changed_apply ih.toSound m)

theorem Reachable.stored {g : Graph} (reachable : g.Reachable) : g.Stored := by
  induction reachable with
  | empty seed => exact stored_empty seed
  | template done => exact (built_of_build done).stored
  | loaded done => exact stored_of_ofValue done
  | mutate m _ ih => exact ih.change (changed_apply ih.toSound m)

/-! ## 2. Saved nodes -/

theorem run_lift_bind_ok {α β : Type} {g : Graph} {result : Except Error α} {rest : α → Edit β}
    {a : α} (given : result = .ok a) :
    g.run (Edit.lift result >>= rest) = g.run (rest a) := by
  rw [given]
  exact run_bind_ok (run_lift g _)

theorem kindOf_name (k : Kind) : kindOf (.text k.name) = .ok k := by
  cases k <;> rfl

section NodeValue

variable (n : Node)

theorem entry_id : (nodeValue n).entry "id" = .ok (.int n.id) := rfl

theorem entry_kind : (nodeValue n).entry "kind" = .ok (.text n.kind.name) := rfl

theorem entryOr_x (default : Value) : (nodeValue n).entryOr "x" default = .ok (.float n.x) := rfl

theorem entryOr_y (default : Value) : (nodeValue n).entryOr "y" default = .ok (.float n.y) := rfl

theorem entryOr_params (default : Value) :
    (nodeValue n).entryOr "params" default = .ok (.object n.params.fields) := rfl

/-- Further fields are saved only if there are any. -/
theorem entryOr_extras : (nodeValue n).entryOr "extra_params" .null =
    .ok (if n.extras.isEmpty then .null else .object n.extras) := by
  unfold nodeValue
  cases n.extras.isEmpty <;> rfl

end NodeValue

theorem asFields_object (fields : Fields) (cause : Error) :
    (Value.object fields).asFields cause = .ok fields := by
  cases fields with
  | nil => rfl
  | cons _ _ => rfl

theorem asFields_extras (extras : Fields) (cause : Error) :
    (if extras.isEmpty then Value.null else .object extras).asFields cause = .ok extras := by
  cases extras with
  | nil => rfl
  | cons _ _ => rfl

theorem create_eq (id : Int) (k : Kind) (seed : Int) (x y : Float) :
    Node.create id k seed (.float x) (.float y) = .ok ⟨id, k.defaults seed, x, y, []⟩ := rfl

/-- Loading a saved node appends the node. -/
theorem run_loadNode {h : Graph} {n : Node} (whole : n.Whole) (fresh : h.node? n.id = none) :
    ∃ random, h.run (loadNode (nodeValue n)) =
      ({ h with random, nodes := h.nodes ++ [n], nextId := max h.nextId (n.id + 1) }, .ok ()) := by
  obtain ⟨random, seed, drawn⟩ := run_drawSeed h n.kind
  have updated := whole.update_fields ⟨n.id, n.kind.defaults seed, n.x, n.y, []⟩
    (Kind.kind_defaults seed n.kind) rfl
  refine ⟨random, ?_⟩
  unfold loadNode
  rw [run_lift_bind_ok (entry_id n), run_lift_bind_ok (show Value.toInt (.int n.id) = _ from rfl),
    run_bind_ok (run_get h), fresh]
  simp only [Option.isSome_none, Bool.false_eq_true, if_false]
  rw [run_lift_bind_ok (entry_kind n), run_lift_bind_ok (kindOf_name n.kind),
    run_lift_bind_ok (entryOr_x n _), run_lift_bind_ok (entryOr_y n _), run_bind_ok drawn,
    run_lift_bind_ok (create_eq n.id n.kind seed n.x n.y), run_lift_bind_ok (entryOr_params n _),
    run_lift_bind_ok (asFields_object _ _), run_lift_bind_ok updated,
    run_lift_bind_ok (entryOr_extras n), run_lift_bind_ok (asFields_extras _ _), run_modify,
    Table.putAll_of_nodup (by exact whole.extras_distinct)]
  rfl

/-- Loading saved nodes appends them to the nodes that were there. The next id stays within any
bound that it and the ids of the nodes are within. -/
theorem run_loadNodes {bound : Int} (nodes : List Node) (h : Graph)
    (whole : ∀ n ∈ nodes, n.Whole) (distinct : ((h.nodes ++ nodes).map (·.id)).Nodup)
    (below : ∀ n ∈ nodes, n.id < bound) (next : h.nextId ≤ bound) :
    ∃ random nextId, nextId ≤ bound ∧ h.run ((nodes.map nodeValue).forM loadNode) =
      ({ h with random, nodes := h.nodes ++ nodes, nextId }, .ok ()) := by
  induction nodes generalizing h with
  | nil => exact ⟨h.random, h.nextId, next, by rw [List.append_nil]; rfl⟩
  | cons n rest ih =>
    have fresh : h.node? n.id = none := by
      refine List.find?_eq_none.mpr fun m member => ?_
      rw [List.map_append] at distinct
      have other := (List.nodup_append.mp distinct).2.2 m.id (List.mem_map_of_mem member) n.id
        List.mem_cons_self
      simpa using other
    obtain ⟨random, loaded⟩ := run_loadNode (whole n List.mem_cons_self) fresh
    have later : h.nodes ++ [n] ++ rest = h.nodes ++ n :: rest := by simp
    obtain ⟨random', nextId, within, done⟩ := ih
      { h with random, nodes := h.nodes ++ [n], nextId := max h.nextId (n.id + 1) }
      (fun m member => whole m (List.mem_cons_of_mem _ member)) (by rw [later]; exact distinct)
      (fun m member => below m (List.mem_cons_of_mem _ member))
      (Int.max_le.mpr ⟨next, below n List.mem_cons_self⟩)
    refine ⟨random', nextId, within, ?_⟩
    rw [List.map_cons, List.forM, run_bind_ok loaded, done]
    simp only [later]

/-! ## 3. Saved connections -/

/-- A connection of a well-formed graph is accepted after those before it. -/
theorem accepted_of_prefix {h : Graph} (sound : h.Sound) {c : Connection}
    {nextId : Int} (formed : WellFormed h.nodes (h.connections ++ [c]) nextId) :
    Edit.refusal? h c.source c.target = none ∧ h.wiring.incoming? c.target = none := by
  have listed : c ∈ h.connections ++ [c] := List.mem_append_right _ (List.mem_singleton.mpr rfl)
  obtain ⟨p, q, joins⟩ := formed.joined c listed
  constructor
  · refine sound.refusal?_eq_none.mpr ⟨p, q, joins, fun path => formed.acyclic q.node ?_⟩
    -- a path back would close a cycle with the connection itself
    have kept : ReflTransGen (Landform.Feeds h.nodes (h.connections ++ [c])) q.node p.node :=
      ReflTransGen.mono (fun a b feeds => feeds.mono (fun _ m => m) (fun _ m => m)
        fun _ => List.mem_append_left _) _ _ path
    exact .tail' kept ⟨c, listed, p, q, joins, rfl, rfl⟩
  · cases found : h.wiring.incoming? c.target with
    | none => rfl
    | some d =>
      obtain ⟨member, same⟩ := sound.incoming?_iff.mp found
      have distinct := formed.targets_distinct
      rw [List.map_append] at distinct
      exact absurd same ((List.nodup_append.mp distinct).2.2 _ (List.mem_map_of_mem member) _
        List.mem_cons_self)

/-- Loading a saved connection appends it. -/
theorem run_loadConnection {h : Graph} (sound : h.Sound) {c : Connection} {nextId : Int}
    (formed : WellFormed h.nodes (h.connections ++ [c]) nextId) :
    h.run (loadConnection (connectionValue c)) =
      (settled { h with connections := h.connections ++ [c] }, .ok ()) := by
  obtain ⟨accepted, free⟩ := accepted_of_prefix sound formed
  unfold loadConnection
  rw [run_lift_bind_ok (show (connectionValue c).entry "from" = .ok (.text c.source) from rfl),
    run_lift_bind_ok (show Value.asName (.text c.source) = .ok c.source from rfl),
    run_lift_bind_ok (show (connectionValue c).entry "to" = .ok (.text c.target) from rfl),
    run_lift_bind_ok (show Value.asName (.text c.target) = .ok c.target from rfl)]
  rcases run_connect sound c.source c.target with ⟨why, refused, _⟩ | ⟨_, _, what, done⟩
  · rw [accepted] at refused
    cases refused
  · rw [run_bind_ok done, making, free]
    rfl

/-- Loading saved connections appends them to the connections that were there. -/
theorem run_loadConnections (connections : List Connection) (h : Graph) (sound : h.Sound)
    {nextId : Int} (formed : WellFormed h.nodes (h.connections ++ connections) nextId) :
    ∃ version, h.run ((connections.map connectionValue).forM loadConnection) =
      ({ refreshed { h with connections := h.connections ++ connections } with version },
        .ok ()) := by
  induction connections generalizing h with
  | nil =>
    refine ⟨h.version, ?_⟩
    rw [List.append_nil, refreshed, ← sound.tables_eq]
    rfl
  | cons c rest ih =>
    -- each prefix of the saved connections is well formed by itself
    have later : h.connections ++ [c] ++ rest = h.connections ++ c :: rest := by simp
    have first : WellFormed h.nodes (h.connections ++ [c]) nextId :=
      formed.sublist (by rw [← later]; exact List.sublist_append_left _ _)
    have grown : WellFormed h.nodes (h.connections ++ [c]) h.nextId :=
      { first with ids_below := sound.ids_below }
    obtain ⟨version, done⟩ := ih (settled { h with connections := h.connections ++ [c] })
      (settled_sound grown) (show WellFormed h.nodes (h.connections ++ [c] ++ rest) nextId from
        later ▸ formed)
    refine ⟨version, ?_⟩
    rw [List.map_cons, List.forM, run_bind_ok (run_loadConnection sound first), done]
    simp only [settled, refreshed, later]

/-! ## 4. Saved graphs -/

/-- Loading what was saved fills an empty graph. -/
theorem Stored.run_loadAll {g : Graph} (stored : g.Stored) (seed : Int) :
    ∃ random version,
      (empty seed).run (loadAll g.toValue) = ({ g with random, version }, .ok ()) := by
  have bare : WellFormed g.nodes [] g.nextId := stored.toWellFormed.sublist (List.nil_sublist _)
  obtain ⟨random, nextId, within, loaded⟩ := run_loadNodes g.nodes (empty seed)
    stored.nodes_whole stored.ids_distinct stored.ids_below stored.next_pos
  -- the ids that were read keep within the saved next id, which is the one that stays
  have raised : max nextId g.nextId = g.nextId := Int.max_eq_right within
  have start :=
    settled_sound (g := { empty seed with random, nodes := g.nodes, nextId := g.nextId }) bare
  obtain ⟨version, connected⟩ := run_loadConnections g.connections _ start stored.toWellFormed
  refine ⟨random, version, ?_⟩
  unfold loadAll
  rw [run_lift_bind_ok (show g.toValue.entryOr "nodes" _ =
      .ok (.list (g.nodes.map nodeValue)) from rfl),
    run_lift_bind_ok (show (Value.list (g.nodes.map nodeValue)).parts = .ok _ from rfl),
    run_bind_ok loaded,
    run_lift_bind_ok (show g.toValue.entryOr "next_node_id" _ = .ok (.int g.nextId) from rfl),
    run_lift_bind_ok (show (Value.int g.nextId).toInt = .ok g.nextId from rfl),
    run_bind_ok (run_modify _ _)]
  simp only [raised]
  rw [run_bind_ok (run_commit (show WellFormed ([] ++ g.nodes) [] g.nextId from bare)),
    run_lift_bind_ok (show g.toValue.entryOr "connections" _ =
      .ok (.list (g.connections.map connectionValue)) from rfl),
    run_lift_bind_ok (show (Value.list (g.connections.map connectionValue)).parts = .ok _ from rfl)]
  refine connected.trans ?_
  rw [refreshed, stored.tables_eq]
  rfl

/-- A graph that is saved and loaded again differs in its random numbers and its version at most,
so that it is saved as the same data. -/
theorem Reachable.ofValue_toValue {g : Graph} (reachable : g.Reachable) (seed : Int) :
    (∃ random version, ofValue g.toValue seed = .ok { g with random, version }) ∧
      (ofValue g.toValue seed).map toValue = .ok g.toValue := by
  obtain ⟨random, version, loaded⟩ := reachable.stored.run_loadAll seed
  have same : ofValue g.toValue seed = .ok { g with random, version } := by
    unfold ofValue
    rw [loaded]
    rfl
  exact ⟨⟨random, version, same⟩, by rw [same]; rfl⟩

/-- A connected pair with a remark on its second node. -/
def notedPair : Graph :=
  (Mutation.update 2 [("note", .text "height")]).apply connectedPair

theorem notedPair_built : notedPair.Built :=
  .mutate _ connectedPair_built

theorem notedPair_ofValue_toValue :
    notedPair.nodes.map (·.extras.names) = [[], ["note"]] ∧
    notedPair.connections = [⟨"1_outY", "2_in"⟩] ∧
    (∃ random version, ofValue notedPair.toValue 3 = .ok { notedPair with random, version }) ∧
    (ofValue notedPair.toValue 3).map toValue = .ok notedPair.toValue :=
  ⟨by decide +kernel, by decide +kernel, notedPair_built.reachable.ofValue_toValue 3⟩

end Landform.Graph
