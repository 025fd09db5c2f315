import Landform.Graph.Template
import Landform.Proofs.Graph.Bare
import Landform.Proofs.Graph.Saved
import Landform.Proofs.Params.Merging

/-!
# Building graphs step by step

A program that builds a graph places nodes, updates some of them at once and then links their roles.
As nodes are numbered from one, such a program leaves a graph of known nodes and connections, but
for the random seeds of its noise.

1. `Node.update_fresh`: updates of nodes that were just placed.
2. `Holding`, `run_place`, `run_place_update`, `run_terrain`: placing nodes.
3. `Link`, `linkable`, `run_links`: linking them. Whether links can be made is computed from the ids
   and the kinds of the nodes alone.
4. `assemble`, `holding_assemble`: the mutations that make a graph of given nodes and links.
-/

namespace Landform

/-! ## 1. Updates of fresh nodes -/

/-- Updates of fields that the parameters have are all known. -/
theorem Params.known_eq_self {p : Params} {updates : Fields}
    (named : ∀ update ∈ updates, update.1 ∈ p.fieldNames) : p.known updates = updates := by
  have renamed : updates.map (fun update => (canonicalField update.1, update.2)) =
      updates.map id := by
    refine List.map_congr_left fun update listed => ?_
    rw [canonicalField_of_mem (named update listed), id]
  rw [known, renamed, List.map_id]
  exact List.filter_eq_self.mpr fun update listed =>
    List.contains_iff_mem.mpr (named update listed)

theorem Params.extras_eq_nil {p : Params} {updates : Fields}
    (named : ∀ update ∈ updates, update.1 ∈ p.fieldNames) : p.extras updates = [] := by
  refine List.filter_eq_nil_iff.mpr fun update listed => ?_
  rw [canonicalField_of_mem (named update listed),
    List.contains_iff_mem.mpr (named update listed)]
  decide

/-- Updating a fresh node by fields of its kind leaves nothing beside its parameters. -/
theorem Node.update_fresh {k : Kind} {seed : Int} {updates : Fields} {p : Params}
    (named : ∀ update ∈ updates, update.1 ∈ (k.defaults 0).fieldNames)
    (read : (k.defaults seed).replace updates = .ok p) (id : Int) (x y : Float) :
    (Node.mk id (k.defaults seed) x y []).update updates = .ok ⟨id, p, x, y, []⟩ := by
  have listed : ∀ update ∈ updates, update.1 ∈ (k.defaults seed).fieldNames := by
    rw [Params.fieldNames_eq, Kind.kind_defaults]
    exact named
  unfold update
  dsimp only
  rw [Params.merge_eq (Params.isChecked_defaults k seed), Params.known_eq_self listed,
    Params.extras_eq_nil listed, read]
  rfl

/-- The noise that an update leaves, when all that it names can be read. -/
theorem Params.replace_noise2d {s s' : Noise.Settings Float} {updates : Fields}
    (checked : s'.isChecked = true)
    (drafted : s.draft updates = .ok ⟨{ s' with octaves := 0 }, s'.octaves⟩) :
    (noise2d s).replace updates = .ok (noise2d s') := by
  rw [replace, Noise.Settings.replace, drafted]
  show (Noise.Draft.check ⟨{ s' with octaves := 0 }, s'.octaves⟩ >>= fun read =>
    Except.ok (noise2d read)) = _
  rw [Noise.Draft.check_eq_ok checked]
  rfl

namespace Graph

/-! ## 2. Nodes -/

/-- A sound graph of given nodes and connections whose nodes are numbered from one. -/
structure Holding (nodes : List Node) (connections : List Connection) (g : Graph) : Prop
    extends g.Sound where
  nodes_eq : g.nodes = nodes
  connections_eq : g.connections = connections
  nextId_eq : g.nextId = nodes.length + 1

theorem holding_empty (seed : Int) : Holding [] [] (empty seed) :=
  { empty_sound seed with nodes_eq := rfl, connections_eq := rfl, nextId_eq := rfl }

variable {nodes : List Node} {connections : List Connection} {g : Graph}

/-- Adding a node appends it, with the next number and the parameters of its kind. -/
theorem run_add_fresh (holding : g.Holding nodes connections) {id : Int}
    (next : (nodes.length : Int) + 1 = id) {name : String} {k : Kind} {x y : Value}
    {left top : Float} (known : Catalog.find name = .ok k) (across : x.toFloat = .ok left)
    (down : y.toFloat = .ok top) :
    ∃ g' seed, g.run (Edit.add name x y) = (g', .ok id) ∧
      Holding (nodes ++ [⟨id, k.defaults seed, left, top, []⟩]) connections g' := by
  obtain ⟨sound, rfl, rfl, nextId⟩ := holding
  obtain ⟨random, seed, drawn⟩ := run_drawSeed g k
  rw [next] at nextId
  let n : Node := ⟨id, k.defaults seed, left, top, []⟩
  have created : Node.create g.nextId k seed x y = .ok n := by
    rw [Node.create, across, down, nextId]
    rfl
  have fresh : n.id ∉ g.nodes.map (·.id) := by
    intro used
    obtain ⟨m, member, same⟩ := List.mem_map.mp used
    exact absurd (sound.ids_below m member) (by rw [nextId, same]; exact lt_irrefl _)
  have formed : WellFormed (g.nodes ++ [n]) g.connections (g.nextId + 1) :=
    sound.append fresh (show id < g.nextId + 1 by omega) (by omega)
  refine ⟨settled { g with random, nodes := g.nodes ++ [n], nextId := g.nextId + 1 }, seed, ?_, ?_⟩
  · rw [Edit.add, run_lift_bind_ok known, run_bind_ok drawn, run_bind_ok (run_get _),
      run_lift_bind_ok created, run_bind_ok (run_set _ _), run_bind_ok (run_commit formed),
      run_pure]
  · exact { settled_sound formed with
      nodes_eq := rfl
      connections_eq := rfl
      nextId_eq := by
        show g.nextId + 1 = _
        rw [nextId, ← next, List.length_append]
        rfl }

theorem run_place (holding : g.Holding nodes connections) {id : Int}
    (next : (nodes.length : Int) + 1 = id) {name : String} {k : Kind} {x y : Int} {left top : Float}
    (known : Catalog.find name = .ok k) (across : Value.toFloat (.int x) = .ok left)
    (down : Value.toFloat (.int y) = .ok top) :
    ∃ g' seed, g.run (Template.place name x y) = (g', .ok id) ∧
      Holding (nodes ++ [⟨id, k.defaults seed, left, top, []⟩]) connections g' :=
  run_add_fresh holding next known across down

/-- Updating the latest node replaces its parameters. -/
theorem run_update_latest {n updated : Node} (holding : g.Holding (nodes ++ [n]) connections)
    {updates : Fields} (made : n.update updates = .ok updated) :
    ∃ g', g.run (Edit.update n.id updates) = (g', .ok (.done .updated)) ∧
      Holding (nodes ++ [updated]) connections g' := by
  obtain ⟨sound, listed, rfl, next⟩ := holding
  have member : n ∈ g.nodes := by rw [listed]; simp
  have found := sound.node?_iff.mpr ⟨member, rfl⟩
  obtain ⟨id, kind⟩ := Node.update_keeps made
  have same := samePorts_replacing found sound.ids_distinct id kind
  have replaced : g.replacing updated = nodes ++ [updated] := by
    have distinct := sound.ids_distinct
    rw [listed, List.map_append, List.nodup_append] at distinct
    rw [replacing, listed, List.map_append, id]
    refine congr (congrArg _ ?_) (by simp)
    refine (List.map_congr_left fun m earlier => ?_).trans (List.map_id nodes)
    have other : m.id ≠ n.id :=
      distinct.2.2 _ (List.mem_map_of_mem earlier) _ (List.mem_singleton_self _)
    simp [other]
  refine ⟨{ g with nodes := g.replacing updated, version := g.version + 1 }, ?_, ?_⟩
  · rw [Edit.update, run_bind_ok (run_get g), found]
    dsimp only
    rw [made]
    rw [replacing, id]
    rfl
  · exact { sound.toWellFormed.congr same with
      tables_eq := sound.tables_eq.trans same.tables_eq
      nodes_eq := replaced
      connections_eq := rfl
      nextId_eq := next.trans (by simp) }

/-- A node that is updated right after it was placed. -/
theorem run_place_update (holding : g.Holding nodes connections) {id : Int}
    (next : (nodes.length : Int) + 1 = id) {name : String} {k : Kind} {x y : Int} {left top : Float}
    (known : Catalog.find name = .ok k) (across : Value.toFloat (.int x) = .ok left)
    (down : Value.toFloat (.int y) = .ok top) {updates : Fields} {updated : Int → Params}
    (made : ∀ seed, (Node.mk id (k.defaults seed) left top []).update updates =
      .ok ⟨id, updated seed, left, top, []⟩) :
    ∃ g₁ g₂ seed, g.run (Template.place name x y) = (g₁, .ok id) ∧
      g₁.run (Edit.update id updates) = (g₂, .ok (.done .updated)) ∧
      Holding (nodes ++ [⟨id, updated seed, left, top, []⟩]) connections g₂ := by
  obtain ⟨g₁, seed, placed, holding₁⟩ := run_place holding next known across down
  obtain ⟨g₂, changed, holding₂⟩ := run_update_latest holding₁ (made seed)
  exact ⟨g₁, g₂, seed, placed, changed, holding₂⟩

/-- Adding a terrain appends it. -/
theorem run_terrain (holding : g.Holding nodes connections) {id : Int}
    (next : (nodes.length : Int) + 1 = id) {name material : String} {m : Material} (color : String)
    (named : Text.isBlankText name = false) (spelled : m.name = material)
    {x y : Int} {left top : Float} (across : Value.toFloat (.int x) = .ok left)
    (down : Value.toFloat (.int y) = .ok top) :
    ∃ g', g.run (Template.terrain name material color x y) = (g', .ok id) ∧
      Holding (nodes ++ [⟨id, .terrainType ⟨name, m, color⟩, left, top, []⟩]) connections g' := by
  subst spelled
  let shown : Node := ⟨id, .terrainType ⟨name, m, color⟩, left, top, []⟩
  have whole : shown.Whole := ⟨congrArg not named, List.nodup_nil⟩
  obtain ⟨g₁, g₂, _, placed, updated, holding₂⟩ := run_place_update holding next
    (show Catalog.find "terrain-type" = .ok .terrainType from rfl) across down
    fun _ => whole.update_fields _ rfl rfl
  refine ⟨g₂, ?_, holding₂⟩
  rw [Template.terrain, run_bind_ok placed]
  exact run_bind_ok updated

/-! ## 3. Links -/

/-- A bare form is that of any nodes with the same ids and kinds. -/
theorem bareOf_congr {nodes sample : List Node} {connections : List Connection}
    (laid : nodes.map Node.bare = sample.map Node.bare) :
    bareOf nodes connections = bareOf sample connections := by
  have length : nodes.length = sample.length := by
    simpa using congrArg List.length laid
  simp only [bareOf, laid, length]

/-- A link of a role of one node to a role of another. -/
structure Link where
  source : Int
  sourceRole : String
  target : Int
  targetRole : String

/-- The connection that a link makes. -/
def Link.connection (l : Link) : Connection :=
  ⟨portId l.source l.sourceRole, portId l.target l.targetRole⟩

def Link.edit (l : Link) : Edit Unit :=
  Template.link l.source l.sourceRole l.target l.targetRole

/-- Links can be made one after the other over connections, each into an open input, as far as the
bare nodes tell. -/
def linkable (sample : List Node) : List Connection → List Link → Bool
  | _, [] => true
  | connections, l :: later =>
    (Edit.refusal? (bareOf sample connections) l.connection.source l.connection.target).isNone &&
      connections.all (·.target != l.connection.target) &&
      linkable sample (connections ++ [l.connection]) later

/-- What it takes to make the first of several links. -/
theorem linkable_cons {sample : List Node} (laid : nodes.map Node.bare = sample.map Node.bare)
    {l : Link} {later : List Link} (checked : linkable sample connections (l :: later) = true) :
    Edit.refusal? (bareOf nodes connections) l.connection.source l.connection.target = none ∧
      (∀ c ∈ connections, c.target ≠ l.connection.target) ∧
      linkable sample (connections ++ [l.connection]) later = true := by
  simp only [linkable, Bool.and_eq_true, Option.isNone_iff_eq_none, List.all_eq_true,
    bne_iff_ne] at checked
  obtain ⟨⟨accepted, free⟩, rest⟩ := checked
  exact ⟨bareOf_congr laid ▸ accepted, free, rest⟩

/-- Connecting the ends of a link appends its connection. -/
theorem run_connect_link (holding : g.Holding nodes connections) {l : Link}
    (accepted : Edit.refusal? (bareOf nodes connections) l.connection.source l.connection.target =
      none) (free : ∀ c ∈ connections, c.target ≠ l.connection.target) :
    ∃ g' what,
      g.run (Edit.connect l.connection.source l.connection.target) = (g', .ok (.done what)) ∧
        Holding nodes (connections ++ [l.connection]) g' := by
  obtain ⟨sound, rfl, rfl, next⟩ := holding
  have agreed : Edit.refusal? g l.connection.source l.connection.target = none := by
    rw [← sound.refusal?_bare]
    exact accepted
  have unfed : g.wiring.incoming? l.connection.target = none := by
    by_contra some
    obtain ⟨c, incoming⟩ := Option.ne_none_iff_exists'.mp some
    obtain ⟨joined, same⟩ := sound.incoming?_iff.mp incoming
    exact free c joined same
  rcases run_connect sound l.connection.source l.connection.target with
    ⟨why, refused, _⟩ | ⟨_, formed, what, done⟩
  · rw [agreed] at refused
    cases refused
  · have kept : g.making l.connection.target = g.connections := by rw [making, unfed]
    rw [kept] at formed done
    exact ⟨_, what, done, { settled_sound formed with
      nodes_eq := rfl
      connections_eq := rfl
      nextId_eq := next }⟩

/-- The mutation that makes a link. -/
def Link.mutation (l : Link) : Mutation :=
  .connect l.connection.source l.connection.target

/-- Making links appends their connections. The mutations do what the edits do. -/
theorem run_links {sample : List Node} (laid : nodes.map Node.bare = sample.map Node.bare)
    (links : List Link) (holding : g.Holding nodes connections)
    (checked : linkable sample connections links = true) :
    ∃ g', g.run (links.forM Link.edit) = (g', .ok ()) ∧
      (links.map Link.mutation).foldl Mutation.apply g = g' ∧
      Holding nodes (connections ++ links.map Link.connection) g' := by
  induction links generalizing g connections with
  | nil => exact ⟨g, rfl, rfl, by rwa [List.map_nil, List.append_nil]⟩
  | cons l later ih =>
    obtain ⟨accepted, free, rest⟩ := linkable_cons laid checked
    obtain ⟨g₁, what, connected, holding₁⟩ := run_connect_link holding accepted free
    obtain ⟨g₂, done, same, holding₂⟩ := ih holding₁ rest
    have linked : g.run l.edit = (g₁, .ok ()) := by
      rw [Link.edit, Template.link]
      exact run_bind_ok connected
    have first : l.mutation.apply g = g₁ := congrArg Prod.fst connected
    refine ⟨g₂, ?_, ?_, ?_⟩
    · rw [List.forM, run_bind_ok linked, done]
    · rw [List.map_cons, List.foldl_cons, first, same]
    · rwa [List.append_assoc] at holding₂

/-- Validation finds what it finds in the bare form. -/
theorem Holding.findings_eq {sample : List Node} (holding : g.Holding nodes connections)
    (laid : nodes.map Node.bare = sample.map Node.bare) :
    g.findings = (bareOf sample connections).findings := by
  rw [← holding.findings_bare, Graph.bare, holding.nodes_eq, holding.connections_eq,
    bareOf_congr laid]

/-! ## 4. Assembling -/

/-- The mutations that add a node and give it its parameters. -/
def installing (n : Node) : List Mutation :=
  [.add n.kind.name (.float n.x) (.float n.y), .update n.id n.params.fields]

/-- The graph that mutations make from nodes and links: the nodes first, with what an empty graph
numbers them by, then the links. -/
def assemble (nodes : List Node) (links : List Link) (seed : Int) : Graph :=
  (nodes.flatMap installing ++ links.map Link.mutation).foldl Mutation.apply (empty seed)

/-- Adding a node and giving it its parameters leaves just this node. -/
theorem Holding.install (holding : g.Holding nodes connections) {n : Node} (whole : n.Whole)
    (bare : n.extras = []) (next : (nodes.length : Int) + 1 = n.id) :
    ((installing n).foldl Mutation.apply g).Holding (nodes ++ [n]) connections := by
  obtain ⟨g₁, seed, added, holding₁⟩ := run_add_fresh holding next
    (show Catalog.find n.kind.name = .ok n.kind from kindOf_name n.kind)
    (show Value.toFloat (.float n.x) = .ok n.x from rfl)
    (show Value.toFloat (.float n.y) = .ok n.y from rfl)
  let fresh : Node := ⟨n.id, n.kind.defaults seed, n.x, n.y, []⟩
  have written : fresh.update n.params.fields = .ok { fresh with params := n.params } :=
    whole.update_fields fresh (Kind.kind_defaults seed n.kind) rfl
  obtain ⟨g₂, updated, holding₂⟩ := run_update_latest holding₁ written
  have first : (Mutation.add n.kind.name (.float n.x) (.float n.y)).apply g = g₁ :=
    congrArg Prod.fst added
  have second : (Mutation.update n.id n.params.fields).apply g₁ = g₂ := congrArg Prod.fst updated
  have same : { fresh with params := n.params } = n := by
    cases n
    cases bare
    rfl
  rw [installing, List.foldl_cons, List.foldl_cons, List.foldl_nil, first, second]
  exact same ▸ holding₂

/-- Installing nodes one after the other appends them. -/
theorem Holding.installs {later : List Node}
    (numbered : later.map (·.id) = (List.range' (nodes.length + 1) later.length).map Int.ofNat)
    (whole : ∀ n ∈ later, n.Whole ∧ n.extras = []) (holding : g.Holding nodes connections) :
    ((later.flatMap installing).foldl Mutation.apply g).Holding (nodes ++ later)
      connections := by
  induction later generalizing g nodes with
  | nil => rwa [List.append_nil]
  | cons n later ih =>
    rw [List.map_cons, List.length_cons, List.range'_succ, List.map_cons] at numbered
    obtain ⟨next, numbered⟩ := List.cons.inj numbered
    obtain ⟨⟨first, bare⟩, whole⟩ := List.forall_mem_cons.mp whole
    have numbered : later.map (·.id) =
        (List.range' ((nodes ++ [n]).length + 1) later.length).map Int.ofNat := by
      rwa [List.length_append]
    have installed := ih numbered whole (holding.install first bare next.symm)
    rwa [List.append_assoc] at installed

/-- Whole nodes that are numbered from one, with links that can be made, are what assembling
leaves. -/
theorem holding_assemble {links : List Link}
    (numbered : nodes.map (·.id) = (List.range' 1 nodes.length).map Int.ofNat)
    (whole : ∀ n ∈ nodes, n.Whole ∧ n.extras = []) (checked : linkable nodes [] links = true)
    (seed : Int) : (assemble nodes links seed).Holding nodes (links.map Link.connection) := by
  have installed := (holding_empty seed).installs numbered whole
  obtain ⟨g, _, made, holding⟩ := run_links rfl links installed checked
  rw [assemble, List.foldl_append, made]
  exact holding

theorem built_assemble (nodes : List Node) (links : List Link) (seed : Int) :
    (assemble nodes links seed).Built :=
  (Built.empty seed).run _

end Graph

end Landform
