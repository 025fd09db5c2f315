import Landform.Graph.Config
import Landform.Graph.Template
import Landform.Proofs.Graph.Steps

/-!
# Reachable graphs

`Mutation` lists the edits that a caller can make, with all their arguments; `Mutation.apply` gives
the graph after one of them, also when the edit fails. `Graph.Built` graphs come from an empty graph
by mutations; `Graph.Reachable` graphs come by mutations from an empty graph, from a template or
from data.

1. `Keeps`: edits that keep a property of graphs, and how they compose.
2. `Changed`, `changed_apply`, `Sound.change`: what a mutation leaves of a sound graph.
3. `built_of_build`: templates give built graphs. `read_loadNode`, `stages_of_ofValue`: loading
   gives sound ones.
4. `Reachable.consistent`: what holds of every reachable graph.
-/

namespace Landform

open Relation

/-- An edit that a caller can make. -/
inductive Mutation where
  | add (kind : String) (x y : Value)
  | remove (id : Int)
  | connect (source target : String)
  | disconnect (source target : String)
  | update (id : Int) (updates : Fields)
  | clear

/-- The graph after a mutation, whether it applies, does not apply, or fails. -/
def Mutation.apply (g : Graph) : Mutation → Graph
  | add kind x y => (g.run (Edit.add kind x y)).1
  | remove id => (g.run (Edit.remove id)).1
  | connect source target => (g.run (Edit.connect source target)).1
  | disconnect source target => (g.run (Edit.disconnect source target)).1
  | update id updates => (g.run (Edit.update id updates)).1
  | clear => (g.run Edit.clear).1

namespace Graph

/-- Graphs that come from an empty graph by mutations. -/
inductive Built : Graph → Prop
  | empty (seed : Int) : Built (.empty seed)
  | mutate {g : Graph} (m : Mutation) : Built g → Built (m.apply g)

/-- Graphs that come by mutations from an empty graph, from a template, or from data. -/
inductive Reachable : Graph → Prop
  | empty (seed : Int) : Reachable (.empty seed)
  | template {name : String} {seed : Int} {g : Graph} : Template.build name seed = .ok g →
      Reachable g
  | loaded {config : Value} {seed : Int} {g : Graph} : ofValue config seed = .ok g → Reachable g
  | mutate {g : Graph} (m : Mutation) : Reachable g → Reachable (m.apply g)

theorem Built.run {g : Graph} (built : g.Built) (mutations : List Mutation) :
    (mutations.foldl Mutation.apply g).Built := by
  induction mutations generalizing g with
  | nil => exact built
  | cons m rest ih => exact ih (.mutate m built)

theorem Built.reachable {g : Graph} (built : g.Built) : g.Reachable := by
  induction built with
  | empty seed => exact .empty seed
  | mutate m _ ih => exact .mutate m ih

end Graph

/-! ## 1. Edits that keep a property -/

/-- An edit keeps a property of graphs, also when it fails. -/
def Keeps {α : Type} (holds : Graph → Prop) (edit : Edit α) : Prop :=
  ∀ g : Graph, holds g → holds (g.run edit).1

namespace Keeps

variable {α β : Type} {holds : Graph → Prop}

theorem pure (a : α) : Keeps holds (pure a) :=
  fun _ given => given

theorem throw (cause : Error) : Keeps holds (throw cause : Edit α) :=
  fun _ given => given

theorem lift (result : Except Error α) : Keeps holds (Edit.lift result) := by
  intro g given
  rw [Graph.run_lift]
  exact given

theorem bind {first : Edit α} {rest : α → Edit β} (start : Keeps holds first)
    (next : ∀ a, Keeps holds (rest a)) : Keeps holds (first >>= rest) := by
  intro g given
  have between := start g given
  rw [Graph.run_bind]
  split
  · next g' a found =>
    rw [found] at between
    exact next a g' between
  · next g' cause found =>
    rw [found] at between
    exact between

theorem forM (items : List β) {edit : β → Edit Unit} (each : ∀ item, Keeps holds (edit item)) :
    Keeps holds (items.forM edit) := by
  induction items with
  | nil => exact pure ()
  | cons item rest ih => exact bind (each item) fun _ => ih

end Keeps

/-! ## 2. Mutations -/

namespace Graph

theorem empty_sound (seed : Int) : (empty seed).Sound :=
  { WellFormed.nil 1 with tables_eq := rfl }

/-- What an edit leaves of a sound graph: the outcome of one change, or the graph as it was up to
the random numbers. -/
inductive Changed (g : Graph) : Graph → Prop
  | unchanged (random : Twister) : Changed g { g with random }
  | added {random : Twister} {k : Kind} {seed : Int} {x y : Value} {n : Node} :
      Node.create g.nextId k seed x y = .ok n →
      WellFormed (g.nodes ++ [n]) g.connections (g.nextId + 1) →
      Changed g (settled { g with random, nodes := g.nodes ++ [n], nextId := g.nextId + 1 })
  | removed {id : Int} : WellFormed (g.nodes.filter (·.id != id)) (g.untouched id) g.nextId →
      Changed g (settled { g with
        nodes := g.nodes.filter (·.id != id), connections := g.untouched id })
  | connected {source target : String} : Edit.refusal? g source target = none →
      WellFormed g.nodes (g.making target ++ [⟨source, target⟩]) g.nextId →
      Changed g (settled { g with connections := g.making target ++ [⟨source, target⟩] })
  | disconnected {source target : String} :
      WellFormed g.nodes (g.connections.erase ⟨source, target⟩) g.nextId →
      Changed g (settled { g with connections := g.connections.erase ⟨source, target⟩ })
  | updated {id : Int} {n n' : Node} {updates : Fields} : g.node? id = some n →
      n.update updates = .ok n' → SamePorts g.nodes (g.replacing n') →
      Changed g { g with nodes := g.replacing n', version := g.version + 1 }
  | cleared : Changed g (settled { g with nodes := [], connections := [], nextId := 1 })

section Changes

variable {g : Graph} (sound : g.Sound)

include sound

theorem changed_add (kind : String) (x y : Value) : g.Changed (g.run (Edit.add kind x y)).1 := by
  rcases run_add sound.toWellFormed kind x y with
    ⟨random, cause, done⟩ | ⟨random, k, seed, n, _, made, formed, done⟩ <;> rw [done]
  · exact .unchanged random
  · exact .added made formed

theorem changed_remove (id : Int) : g.Changed (g.run (Edit.remove id)).1 := by
  rcases run_remove sound id with ⟨why, _, done⟩ | ⟨formed, done⟩ <;> rw [done]
  · exact .unchanged g.random
  · exact .removed formed

theorem changed_connect (source target : String) :
    g.Changed (g.run (Edit.connect source target)).1 := by
  rcases run_connect sound source target with ⟨why, _, done⟩ | ⟨accepted, formed, what, done⟩ <;>
    rw [done]
  · exact .unchanged g.random
  · exact .connected accepted formed

theorem changed_disconnect (source target : String) :
    g.Changed (g.run (Edit.disconnect source target)).1 := by
  rcases run_disconnect sound source target with ⟨why, done⟩ | ⟨formed, done⟩ <;> rw [done]
  · exact .unchanged g.random
  · exact .disconnected formed

theorem changed_update (id : Int) (updates : Fields) :
    g.Changed (g.run (Edit.update id updates)).1 := by
  rcases run_update sound id updates with ⟨answer, _, done⟩ | ⟨n, n', found, made, same, done⟩ <;>
    rw [done]
  · exact .unchanged g.random
  · exact .updated found made same

theorem changed_apply (m : Mutation) : g.Changed (m.apply g) := by
  cases m with
  | add kind x y => exact changed_add sound kind x y
  | remove id => exact changed_remove sound id
  | connect source target => exact changed_connect sound source target
  | disconnect source target => exact changed_disconnect sound source target
  | update id updates => exact changed_update sound id updates
  | clear =>
    rw [Mutation.apply, run_clear]
    exact .cleared

/-- A change keeps a graph sound. -/
theorem Sound.change {g' : Graph} (changed : g.Changed g') : g'.Sound := by
  cases changed with
  | unchanged random => exact { sound with }
  | added _ formed | removed formed | connected _ formed | disconnected formed =>
    exact settled_sound formed
  | updated _ _ same =>
    -- an update computes no tables, but those of the nodes before it are still right
    exact { sound.toWellFormed.congr same with tables_eq := sound.tables_eq.trans same.tables_eq }
  | cleared => exact settled_sound (.nil 1)

end Changes

theorem keeps_sound_connect (source target : String) :
    Keeps Sound (Edit.connect source target) :=
  fun _ sound => sound.change (changed_connect sound source target)

theorem Built.sound {g : Graph} (built : g.Built) : g.Sound := by
  induction built with
  | empty seed => exact empty_sound seed
  | mutate m _ ih => exact ih.change (changed_apply ih m)

end Graph

/-! ## 3. Templates and data -/

namespace Template

open Landform.Graph Keeps

theorem keeps_built_place (kind : String) (x y : Int) : Keeps Built (place kind x y) :=
  fun _ built => .mutate (.add kind (.int x) (.int y)) built

theorem keeps_built_update (id : Int) (updates : Fields) : Keeps Built (Edit.update id updates) :=
  fun _ built => .mutate (.update id updates) built

theorem keeps_built_terrain (name material color : String) (x y : Int) :
    Keeps Built (terrain name material color x y) :=
  bind (keeps_built_place _ _ _) fun _ => bind (keeps_built_update _ _) fun _ => pure _

theorem keeps_built_link (source : Int) (sourceRole : String) (target : Int)
    (targetRole : String) : Keeps Built (link source sourceRole target targetRole) := by
  refine bind (fun _ built => .mutate (.connect _ _) built) fun outcome => ?_
  cases outcome with
  | done what => exact pure _
  | refused why => exact throw _

theorem keeps_built_simple : Keeps Built simple := by
  unfold simple
  refine bind (keeps_built_place _ _ _) fun _ => ?_
  refine bind (keeps_built_place _ _ _) fun _ => ?_
  refine bind (keeps_built_update _ _) fun _ => ?_
  refine bind (keeps_built_place _ _ _) fun _ => ?_
  refine bind (keeps_built_terrain _ _ _ _ _) fun _ => ?_
  refine bind (keeps_built_terrain _ _ _ _ _) fun _ => ?_
  refine bind (keeps_built_place _ _ _) fun _ => ?_
  refine bind (keeps_built_link _ _ _ _) fun _ => ?_
  refine bind (keeps_built_link _ _ _ _) fun _ => ?_
  refine bind (keeps_built_link _ _ _ _) fun _ => ?_
  refine bind (keeps_built_link _ _ _ _) fun _ => ?_
  exact keeps_built_link _ _ _ _

theorem keeps_built_layered : Keeps Built layered := by
  unfold layered
  refine bind (keeps_built_place _ _ _) fun _ => ?_
  refine bind (keeps_built_place _ _ _) fun _ => ?_
  refine bind (keeps_built_update _ _) fun _ => ?_
  refine bind (keeps_built_place _ _ _) fun _ => ?_
  refine bind (keeps_built_terrain _ _ _ _ _) fun _ => ?_
  refine bind (keeps_built_terrain _ _ _ _ _) fun _ => ?_
  refine bind (keeps_built_place _ _ _) fun _ => ?_
  refine bind (keeps_built_update _ _) fun _ => ?_
  refine bind (keeps_built_place _ _ _) fun _ => ?_
  refine bind (keeps_built_update _ _) fun _ => ?_
  refine bind (keeps_built_terrain _ _ _ _ _) fun _ => ?_
  refine bind (keeps_built_place _ _ _) fun _ => ?_
  refine bind (keeps_built_link _ _ _ _) fun _ => ?_
  refine bind (keeps_built_link _ _ _ _) fun _ => ?_
  refine bind (keeps_built_link _ _ _ _) fun _ => ?_
  refine bind (keeps_built_link _ _ _ _) fun _ => ?_
  refine bind (keeps_built_link _ _ _ _) fun _ => ?_
  refine bind (keeps_built_link _ _ _ _) fun _ => ?_
  refine bind (keeps_built_link _ _ _ _) fun _ => ?_
  refine bind (keeps_built_link _ _ _ _) fun _ => ?_
  exact keeps_built_link _ _ _ _

end Template

namespace Graph

/-- An edit that fills a graph answered if there is a graph. -/
theorem run_of_map_eq_ok {α : Type} {g g' : Graph} {edit : Edit α}
    (done : (g.run edit).2.map (fun _ => (g.run edit).1) = .ok g') :
    ∃ a, g.run edit = (g', .ok a) := by
  generalize g.run edit = result at done
  obtain ⟨after, answer⟩ := result
  cases answer with
  | error cause => cases done
  | ok a =>
    cases done
    exact ⟨a, rfl⟩

theorem run_lift_bind_eq_ok {α β : Type} {g g' : Graph} {result : Except Error α}
    {rest : α → Edit β} {b : β} (done : g.run (Edit.lift result >>= rest) = (g', .ok b)) :
    ∃ a, result = .ok a ∧ g.run (rest a) = (g', .ok b) := by
  obtain ⟨between, a, first, second⟩ := run_bind_eq_ok done
  rw [run_lift] at first
  cases first
  exact ⟨a, rfl, second⟩

/-- A graph while its nodes are being read: no connections yet, and tables of no meaning. -/
structure Loading (g : Graph) : Prop where
  connections_eq : g.connections = []
  formed : WellFormed g.nodes [] g.nextId

theorem Loading.sound {g : Graph} (loading : g.Loading) : g.settled.Sound :=
  settled_sound (loading.connections_eq ▸ loading.formed)

/-- After a computation that needs no graph, an edit either stops at once or goes on. -/
theorem leaves_lift_bind {α β : Type} {leaves : Graph × Except Error β → Prop} {g : Graph}
    {result : Except Error α} {rest : α → Edit β} (stop : ∀ cause, leaves (g, .error cause))
    (next : ∀ a, result = .ok a → leaves (g.run (rest a))) :
    leaves (g.run (Edit.lift result >>= rest)) := by
  have start := run_lift g result
  cases result with
  | error cause =>
    rw [run_bind_error start]
    exact stop cause
  | ok a =>
    rw [run_bind_ok start]
    exact next a rfl

/-- The node of an entry, by id and kind. -/
def nodeOf (entry : Value) : Except Error (Int × Kind) := do
  let id ← (← entry.entry "id").toInt
  let kind ← kindOf (← entry.entry "kind")
  return (id, kind)

/-- A node as data lists it. -/
def listing (n : Node) : Int × Kind := (n.id, n.kind)

/-- What reading an entry leaves of a graph: the graph as it was up to the random numbers, or one
more node, which has a new id. -/
inductive Read (g : Graph) (entry : Value) : Graph × Except Error Unit → Prop
  | stopped (random : Twister) (cause : Error) : Read g entry ({ g with random }, .error cause)
  | appended {random : Twister} {n : Node} : nodeOf entry = .ok (listing n) →
      g.node? n.id = none → n.Whole → Read g entry ({ g with
        random, nodes := g.nodes ++ [n], nextId := max g.nextId (n.id + 1) }, .ok ())

theorem read_loadNode (g : Graph) (entry : Value) : g.Read entry (g.run (loadNode entry)) := by
  unfold loadNode
  refine leaves_lift_bind (.stopped g.random) fun idValue idGiven =>
    leaves_lift_bind (.stopped g.random) fun id idRead => ?_
  rw [run_bind_ok (run_get g)]
  dsimp only
  split
  · exact .stopped g.random _
  · next fresh =>
    refine leaves_lift_bind (.stopped g.random) fun kindValue kindGiven =>
      leaves_lift_bind (.stopped g.random) fun kind kindRead =>
      leaves_lift_bind (.stopped g.random) fun x _ =>
      leaves_lift_bind (.stopped g.random) fun y _ => ?_
    obtain ⟨random, seed, drawn⟩ := run_drawSeed g kind
    rw [run_bind_ok drawn]
    refine leaves_lift_bind (.stopped random) fun created made =>
      leaves_lift_bind (.stopped random) fun _ _ =>
      leaves_lift_bind (.stopped random) fun params _ =>
      leaves_lift_bind (.stopped random) fun node updated =>
      leaves_lift_bind (.stopped random) fun _ _ =>
      leaves_lift_bind (.stopped random) fun extras _ => ?_
    rw [run_modify]
    obtain ⟨createdId, createdParams, _⟩ := Node.create_eq_ok made
    obtain ⟨sameId, sameKind⟩ := Node.update_keeps updated
    have nodeId : node.id = id := sameId.trans createdId
    have nodeKind : node.kind = kind := by
      rw [sameKind, Node.kind, createdParams, Kind.kind_defaults]
    subst nodeId nodeKind
    refine .appended (n := { node with extras := node.extras.putAll extras }) ?_
      (by simpa using fresh) (((Node.whole_of_create made).update updated).putExtras extras)
    exact Except.bind_eq_ok.mpr ⟨idValue, idGiven, Except.bind_eq_ok.mpr ⟨_, idRead,
      Except.bind_eq_ok.mpr ⟨kindValue, kindGiven, Except.bind_eq_ok.mpr ⟨_, kindRead, rfl⟩⟩⟩⟩

/-- A further node with an id that is new. -/
theorem Loading.append {g : Graph} (loading : g.Loading) {n : Node} (fresh : g.node? n.id = none) :
    Loading { g with nodes := g.nodes ++ [n], nextId := max g.nextId (n.id + 1) } where
  connections_eq := loading.connections_eq
  formed := by
    show WellFormed (g.nodes ++ [n]) [] (max g.nextId (n.id + 1))
    refine loading.formed.append ?_ (by omega) (by omega)
    intro used
    obtain ⟨m, member, same⟩ := List.mem_map.mp used
    rw [(node?_iff loading.formed.ids_distinct).mpr ⟨member, same⟩] at fresh
    cases fresh

theorem keeps_loading_loadNode (entry : Value) : Keeps Loading (loadNode entry) := by
  intro g loading
  generalize result : g.run (loadNode entry) = left
  cases result ▸ read_loadNode g entry with
  | stopped random cause => exact { loading with }
  | appended _ fresh _ => exact { loading.append fresh with }

theorem keeps_loadConnection {holds : Graph → Prop}
    (connect : ∀ source target, Keeps holds (Edit.connect source target)) (entry : Value) :
    Keeps holds (loadConnection entry) := by
  refine Keeps.bind (Keeps.lift _) fun _ => Keeps.bind (Keeps.lift _) fun source =>
    Keeps.bind (Keeps.lift _) fun _ => Keeps.bind (Keeps.lift _) fun target =>
    Keeps.bind (connect source target) fun outcome => ?_
  cases outcome with
  | done what => exact Keeps.pure _
  | refused why => exact Keeps.throw _

theorem Loading.raise {g : Graph} (loading : g.Loading) (nextId : Int) :
    Loading { g with nextId := max g.nextId nextId } :=
  { loading with formed := { loading.formed with
      ids_below := fun n member =>
        Int.lt_of_lt_of_le (loading.formed.ids_below n member) (Int.le_max_left _ _) } }

/-- A graph whose nodes have been read, before its connections are made. -/
def unconnected (g : Graph) (nextId : Int) : Graph :=
  settled { g with nextId := max g.nextId nextId }

theorem Loading.sound_unconnected {g : Graph} (loading : g.Loading) (nextId : Int) :
    (g.unconnected nextId).Sound :=
  (loading.raise nextId).sound

/-- The entries that data lists under a name. -/
def entriesOf (config : Value) (name : String) : Except Error (List Value) := do
  (← config.entryOr name (.list [])).parts

/-- The next id that data gives. -/
def nextIdOf (config : Value) : Except Error Int := do
  (← config.entryOr "next_node_id" (.int 1)).toInt

/-- Reading nodes leaves the tables behind; the change that ends it makes the graph sound. Then the
connections are made. -/
theorem stages_of_ofValue {config : Value} {seed : Int} {g : Graph}
    (done : ofValue config seed = .ok g) :
    ∃ (nodes connections : List Value) (loaded : Graph) (nextId : Int),
      entriesOf config "nodes" = .ok nodes ∧ nextIdOf config = .ok nextId ∧
      entriesOf config "connections" = .ok connections ∧
      (empty seed).run (nodes.forM loadNode) = (loaded, .ok ()) ∧ loaded.Loading ∧
      (loaded.unconnected nextId).run (connections.forM loadConnection) = (g, .ok ()) := by
  obtain ⟨answer, done⟩ := run_of_map_eq_ok done
  unfold loadAll at done
  obtain ⟨_, given, done⟩ := run_lift_bind_eq_ok done
  obtain ⟨nodes, parts, done⟩ := run_lift_bind_eq_ok done
  obtain ⟨loaded, _, read, done⟩ := run_bind_eq_ok done
  have loading : loaded.Loading := by
    have start : (empty seed).Loading := ⟨rfl, .nil 1⟩
    have all := Keeps.forM nodes keeps_loading_loadNode _ start
    rwa [read] at all
  obtain ⟨_, next, done⟩ := run_lift_bind_eq_ok done
  obtain ⟨nextId, number, done⟩ := run_lift_bind_eq_ok done
  rw [run_bind_ok (run_modify _ _)] at done
  have raised := loading.raise nextId
  rw [run_bind_ok (run_commit (raised.connections_eq ▸ raised.formed))] at done
  obtain ⟨_, given', done⟩ := run_lift_bind_eq_ok done
  obtain ⟨connections, parts', done⟩ := run_lift_bind_eq_ok done
  exact ⟨nodes, connections, loaded, nextId, Except.bind_eq_ok.mpr ⟨_, given, parts⟩,
    Except.bind_eq_ok.mpr ⟨_, next, number⟩, Except.bind_eq_ok.mpr ⟨_, given', parts'⟩, read,
    loading, done⟩

theorem sound_of_ofValue {config : Value} {seed : Int} {g : Graph}
    (done : ofValue config seed = .ok g) : g.Sound := by
  obtain ⟨_, connections, loaded, nextId, _, _, _, _, loading, done⟩ := stages_of_ofValue done
  have all := Keeps.forM connections (keeps_loadConnection keeps_sound_connect) _
    (loading.sound_unconnected nextId)
  rwa [done] at all

/-- The graph of a template was built. -/
theorem built_of_build {name : String} {seed : Int} {g : Graph}
    (done : Template.build name seed = .ok g) : g.Built := by
  unfold Template.build at done
  split at done
  · cases done
  · next edit found =>
    obtain ⟨answer, done⟩ := run_of_map_eq_ok done
    have keeps : Keeps Built edit := by
      obtain ⟨name, listed⟩ := Table.mem_of_get? found
      simp only [Template.all, List.mem_cons, Prod.mk.injEq, List.not_mem_nil, or_false] at listed
      rcases listed with ⟨_, rfl⟩ | ⟨_, rfl⟩
      · exact Template.keeps_built_layered
      · exact Template.keeps_built_simple
    have all := keeps _ (.empty seed)
    rwa [done] at all

theorem Reachable.sound {g : Graph} (reachable : g.Reachable) : g.Sound := by
  induction reachable with
  | empty seed => exact empty_sound seed
  | template done => exact (built_of_build done).sound
  | loaded done => exact sound_of_ofValue done
  | mutate m _ ih => exact ih.change (changed_apply ih m)

/-- In a graph that was built, ids count from one. -/
theorem Built.ids_pos {g : Graph} (built : g.Built) : 0 < g.nextId ∧ ∀ n ∈ g.nodes, 0 < n.id := by
  induction built with
  | empty seed => exact ⟨Int.zero_lt_one, fun n none => absurd none List.not_mem_nil⟩
  | @mutate g m built ih =>
    obtain ⟨next, ids⟩ := ih
    have sound := built.reachable.sound
    generalize after : m.apply g = g'
    cases after ▸ changed_apply sound m with
    | unchanged | connected | disconnected => exact ⟨next, ids⟩
    | added made _ =>
      refine ⟨Int.lt_add_one_of_le (Int.le_of_lt next),
        List.forall_mem_append.mpr ⟨ids, List.forall_mem_singleton.mpr ?_⟩⟩
      rw [(Node.create_eq_ok made).1]
      exact next
    | removed _ => exact ⟨next, fun n kept => ids n (List.mem_filter.mp kept).1⟩
    | updated found made _ =>
      refine ⟨next, List.forall_mem_map.mpr fun m member => ?_⟩
      split
      · rw [(Node.update_keeps made).1]
        exact ids _ (sound.node?_iff.mp found).1
      · exact ids m member
    | cleared => exact ⟨Int.zero_lt_one, fun n none => absurd none List.not_mem_nil⟩

theorem Built.ids_nonneg {g : Graph} (built : g.Built) : ∀ n ∈ g.nodes, 0 ≤ n.id :=
  fun n member => Int.le_of_lt (built.ids_pos.2 n member)

/-- A point and its height taken positive, connected. -/
def connectedPair : Graph :=
  [Mutation.add "position" (.int 0) (.int 0), .add "abs" (.int 9) (.int 0),
    .connect "1_outY" "2_in"].foldl Mutation.apply (empty 7)

theorem connectedPair_built : connectedPair.Built :=
  (Built.empty 7).run _

/-! ## 4. Consistent graphs -/

/-- What callers rely on: connections that fit, no cycle, ids in use once, and tables that say
exactly what nodes and connections say. -/
structure Consistent (g : Graph) : Prop where
  connections_join : ∀ c ∈ g.connections, ∃ p q, Joins g.nodes c p q
  targets_distinct : (g.connections.map (·.target)).Nodup
  acyclic : ∀ a, ¬ TransGen g.Feeds a a
  ids_below : ∀ n ∈ g.nodes, n.id < g.nextId
  ids_distinct : (g.nodes.map (·.id)).Nodup
  port_ids_distinct : ((g.nodes.flatMap (·.ports)).map (·.id)).Nodup
  tables_eq : g.tables = .of g.nodes g.connections
  port?_iff : ∀ id p, g.wiring.port? id = some p ↔ ∃ n ∈ g.nodes, p ∈ n.ports ∧ p.id = id
  owner?_iff : ∀ id n, g.wiring.owner? id = some n ↔ n ∈ g.nodes ∧ ∃ p ∈ n.ports, p.id = id
  incoming?_iff : ∀ id c, g.wiring.incoming? id = some c ↔ c ∈ g.connections ∧ c.target = id
  downstream_iff : ∀ a b, b ∈ Reach.successors g.tables.downstream a ↔ g.Feeds a b

theorem Sound.port?_iff {g : Graph} (sound : g.Sound) {id : String} {p : Port} :
    g.wiring.port? id = some p ↔ ∃ n ∈ g.nodes, p ∈ n.ports ∧ p.id = id := by
  rw [Wiring.port?, Option.map_eq_some_iff]
  constructor
  · rintro ⟨⟨n, p⟩, found, rfl⟩
    obtain ⟨member, port, same⟩ := sound.find?_iff.mp found
    exact ⟨n, member, port, same⟩
  · rintro ⟨n, member, port, same⟩
    exact ⟨(n, p), sound.find?_iff.mpr ⟨member, port, same⟩, rfl⟩

theorem Sound.owner?_iff {g : Graph} (sound : g.Sound) {id : String} {n : Node} :
    g.wiring.owner? id = some n ↔ n ∈ g.nodes ∧ ∃ p ∈ n.ports, p.id = id := by
  rw [Wiring.owner?, Option.map_eq_some_iff]
  constructor
  · rintro ⟨⟨n, p⟩, found, rfl⟩
    obtain ⟨member, port, same⟩ := sound.find?_iff.mp found
    exact ⟨member, p, port, same⟩
  · rintro ⟨member, p, port, same⟩
    exact ⟨(n, p), sound.find?_iff.mpr ⟨member, port, same⟩, rfl⟩

/-- Every reachable graph is consistent, whatever the order and the arguments of the mutations. -/
theorem Reachable.consistent {g : Graph} (reachable : g.Reachable) : g.Consistent := by
  have sound := reachable.sound
  exact
    { connections_join := sound.joined
      targets_distinct := sound.targets_distinct
      acyclic := sound.acyclic
      ids_below := sound.ids_below
      ids_distinct := sound.ids_distinct
      port_ids_distinct := ports_nodup sound.ids_distinct
      tables_eq := sound.tables_eq
      port?_iff := fun _ _ => sound.port?_iff
      owner?_iff := fun _ _ => sound.owner?_iff
      incoming?_iff := fun _ _ => sound.incoming?_iff
      downstream_iff := fun _ _ => Reach.mem_successors.trans sound.mem_downstream }

theorem connectedPair_consistent :
    connectedPair.connections = [⟨"1_outY", "2_in"⟩] ∧ connectedPair.Consistent := by
  exact ⟨by decide +kernel, connectedPair_built.reachable.consistent⟩

end Graph

end Landform
