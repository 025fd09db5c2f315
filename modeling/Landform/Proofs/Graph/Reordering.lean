import Landform.Proofs.Evaluation.Local
import Landform.Proofs.Graph.Failures
import Landform.Proofs.Graph.Loading
import Landform.Proofs.Graph.Saved

/-!
# The order of connections in data

Loading makes the listed connections one after the other, and refuses one that closes a cycle with
those before it. When no two of them lead into one input, none takes the place of another, so that
all of them are made exactly if they fit their ports and form no cycle together. That does not
depend on their order, and neither does anything that is read off the connections: what leads into
a port, what validation finds, and the terrain.

1. `WellFormed.perm`, `mapM_perm`: other orders.
2. `formed_of_loaded`, `loaded_of_formed`: when a list of connections is loaded, given the nodes.
3. `Interchanged`: graphs with the same nodes and connections.
4. `ofValue_reordered`: data with its connections in another order.
-/

namespace Landform

variable {nodes : List Node} {connections connections' : List Connection} {nextId : Int}

/-! ## 1. Other orders -/

theorem WellFormed.perm (formed : WellFormed nodes connections nextId)
    (perm : connections.Perm connections') : WellFormed nodes connections' nextId where
  ids_distinct := formed.ids_distinct
  ids_below := formed.ids_below
  joined := fun c member => formed.joined c (perm.mem_iff.mpr member)
  targets_distinct := (perm.map _).nodup_iff.mp formed.targets_distinct
  acyclic := by
    refine formed.acyclic.anti fun a b feeds => ?_
    exact feeds.mono (fun _ h => h) (fun _ h => h) fun _ member => perm.mem_iff.mpr member

/-- Items that can all be read can be read in any order. -/
theorem mapM_perm {ε α β : Type} {read : α → Except ε β} {items items' : List α}
    (perm : items.Perm items') : ∀ {results}, items.mapM read = .ok results →
      ∃ results', items'.mapM read = .ok results' ∧ results.Perm results' := by
  induction perm with
  | nil => exact fun done => ⟨_, done, .refl _⟩
  | cons a _ ih =>
    intro results done
    rw [List.mapM_cons] at done
    obtain ⟨b, first, done⟩ := Except.bind_eq_ok.mp done
    obtain ⟨rest, others, ⟨⟩⟩ := Except.bind_eq_ok.mp done
    obtain ⟨rest', others', same⟩ := ih others
    refine ⟨b :: rest', ?_, same.cons b⟩
    rw [List.mapM_cons, first, others']
    rfl
  | swap a a' tail =>
    intro results done
    rw [List.mapM_cons] at done
    obtain ⟨b', second, done⟩ := Except.bind_eq_ok.mp done
    obtain ⟨_, later, ⟨⟩⟩ := Except.bind_eq_ok.mp done
    rw [List.mapM_cons] at later
    obtain ⟨b, first, later⟩ := Except.bind_eq_ok.mp later
    obtain ⟨rest, others, ⟨⟩⟩ := Except.bind_eq_ok.mp later
    refine ⟨b :: b' :: rest, ?_, .swap b b' rest⟩
    rw [List.mapM_cons, first, List.mapM_cons, second, others]
    rfl
  | trans _ _ ih ih' =>
    intro results done
    obtain ⟨between, done', same⟩ := ih done
    obtain ⟨results', done'', same'⟩ := ih' done'
    exact ⟨results', done'', same.trans same'⟩

namespace Graph

/-! ## 2. Lists of connections -/

/-- Only the connection that an entry lists matters. -/
theorem loadConnection_of_listed {entry : Value} {c : Connection}
    (listed : connectionOf entry = .ok c) :
    loadConnection entry = loadConnection (connectionValue c) := by
  obtain ⟨sourceValue, sourceGiven, listed⟩ := Except.bind_eq_ok.mp listed
  obtain ⟨source, sourceRead, listed⟩ := Except.bind_eq_ok.mp listed
  obtain ⟨targetValue, targetGiven, listed⟩ := Except.bind_eq_ok.mp listed
  obtain ⟨target, targetRead, ⟨⟩⟩ := Except.bind_eq_ok.mp listed
  unfold loadConnection
  rw [sourceGiven, targetGiven]
  simp only [lift_ok_bind, sourceRead, targetRead]
  rfl

theorem loadConnections_of_listed {entries : List Value}
    (listed : entries.mapM connectionOf = .ok connections) :
    entries.forM loadConnection = (connections.map connectionValue).forM loadConnection := by
  induction entries generalizing connections with
  | nil =>
    cases listed
    rfl
  | cons entry rest ih =>
    rw [List.mapM_cons] at listed
    obtain ⟨c, first, listed⟩ := Except.bind_eq_ok.mp listed
    obtain ⟨others, later, ⟨⟩⟩ := Except.bind_eq_ok.mp listed
    rw [List.map_cons, List.forM, List.forM, loadConnection_of_listed first, ih later]

section Runs

variable {h : Graph} (sound : h.Sound) (bare : h.connections = []) {entries : List Value}

include sound bare

/-- Connections into different inputs that were all loaded are well formed together: had any of
them closed a cycle with those before it, it would have been refused. -/
theorem formed_of_loaded (distinct : ∀ listed, entries.mapM connectionOf = .ok listed →
      (listed.map (·.target)).Nodup) {g : Graph}
    (done : h.run (entries.forM loadConnection) = (g, .ok ())) :
    ∃ listed, entries.mapM connectionOf = .ok listed ∧ WellFormed h.nodes listed h.nextId ∧
      g.Sound ∧ g.nodes = h.nodes ∧ g.connections = listed := by
  obtain ⟨listed, given, connecting⟩ := loadConnections_read sound bare done
  have all : g.connections = listed :=
    connecting.connections_eq.trans (lasting_eq_self.mpr (distinct listed given))
  have formed := connecting.toSound.toWellFormed
  rw [connecting.nodes_eq, all] at formed
  exact ⟨listed, given, { formed with ids_below := sound.ids_below }, connecting.toSound,
    connecting.nodes_eq, all⟩

/-- Connections that are well formed together are all loaded: each of them is well formed with
those before it. -/
theorem loaded_of_formed (given : entries.mapM connectionOf = .ok connections)
    (formed : WellFormed h.nodes connections h.nextId) :
    ∃ g, h.run (entries.forM loadConnection) = (g, .ok ()) ∧
      g.Sound ∧ g.nodes = h.nodes ∧ g.connections = connections := by
  have fits : WellFormed h.nodes (h.connections ++ connections) h.nextId := by rwa [bare]
  obtain ⟨version, done⟩ := run_loadConnections connections h sound fits
  rw [← loadConnections_of_listed given] at done
  refine ⟨_, done, { fits with tables_eq := rfl }, rfl, ?_⟩
  show h.connections ++ connections = connections
  rw [bare, List.nil_append]

end Runs

/-! ## 3. The same connections -/

/-- Two sound graphs with the same nodes and the same connections, in whatever order. -/
structure Interchanged (g g' : Graph) : Prop where
  sound : g.Sound
  sound' : g'.Sound
  nodes_eq : g'.nodes = g.nodes
  connections_iff : ∀ c, c ∈ g'.connections ↔ c ∈ g.connections

namespace Interchanged

variable {g g' : Graph} (same : g.Interchanged g')

include same

theorem incoming?_eq (id : String) : g'.wiring.incoming? id = g.wiring.incoming? id := by
  refine Option.ext fun c => ?_
  rw [same.sound.incoming?_iff, same.sound'.incoming?_iff, same.connections_iff]

theorem owner?_eq (id : String) : g'.wiring.owner? id = g.wiring.owner? id := by
  refine Option.ext fun n => ?_
  rw [same.sound.owner?_iff, same.sound'.owner?_iff, same.nodes_eq]

theorem isConnected_eq : g'.wiring.isConnected = g.wiring.isConnected := by
  funext n role
  rw [Wiring.isConnected, Wiring.isConnected, same.incoming?_eq]

theorem outputs_eq : g'.outputs = g.outputs := by
  rw [outputs, outputs, same.nodes_eq]

theorem output?_eq : g'.output? = g.output? := by
  rw [output?, output?, same.outputs_eq]

theorem sources_eq : g'.sources = g.sources := by
  funext id
  unfold sources
  simp only [node?, same.nodes_eq, same.incoming?_eq, same.owner?_eq]

theorem feeding_eq (id : Int) : g'.feeding id = g.feeding id := by
  show Reach.closure true g'.sources g'.ids [id] = Reach.closure true g.sources g.ids [id]
  rw [same.sources_eq, ids, ids, same.nodes_eq]

theorem hasCycle_eq : g'.hasCycle = g.hasCycle := by
  have none := (hasCycle_eq_false_iff same.sound.ids_distinct same.sound.tables_eq
    same.sound.joined).mpr same.sound.acyclic
  have none' := (hasCycle_eq_false_iff same.sound'.ids_distinct same.sound'.tables_eq
    same.sound'.joined).mpr same.sound'.acyclic
  rw [none, none']

theorem openInputs_eq : openInputs g'.wiring = openInputs g.wiring := by
  funext n
  simp only [openInputs, same.incoming?_eq]

theorem problems_eq : g'.problems = g.problems := by
  have main : g'.isMainOutput = g.isMainOutput := by
    funext n
    rw [isMainOutput, isMainOutput, same.output?_eq]
  have outputs : g'.outputProblems = g.outputProblems := by
    rw [outputProblems, outputProblems, same.outputs_eq, same.isConnected_eq]
  have inputs : g'.inputProblems = g.inputProblems := by
    rw [inputProblems, inputProblems, same.nodes_eq, main, same.openInputs_eq]
  rw [problems, problems, outputs, inputs, same.hasCycle_eq]

theorem warnings_eq : g'.warnings = g.warnings := by
  simp only [warnings, same.output?_eq, same.feeding_eq, same.nodes_eq]

theorem validate_eq : g'.validate = g.validate := by
  rw [same.sound.validate_eq, same.sound'.validate_eq, findings, findings, same.problems_eq,
    same.warnings_eq]

theorem alike : g.Alike g' fun _ => True where
  nodes := fun _ member _ => same.nodes_eq ▸ member
  connections := fun _ _ _ _ c _ => same.connections_iff c
  closed := fun _ _ _ inside => inside

theorem terrainAt_eq (limit : DepthLimit) (point : Point) :
    g'.terrainAt limit point = g.terrainAt limit point := by
  cases found : g.output? with
  | some o =>
    exact same.alike.terrainAt_eq same.sound same.sound' limit point found
      (same.output?_eq.trans found) trivial
  | none =>
    -- neither graph has an output to read the terrain from
    have input : g.terrainInput? = none := by
      rw [terrainInput?, found]
      rfl
    have input' : g'.terrainInput? = none := by
      rw [terrainInput?, same.output?_eq, found]
      rfl
    rw [terrainAt, terrainAt, Probe.terrain, Probe.terrain, probe, probe, input, input']

end Interchanged

/-! ## 4. Data -/

/-- Data with the connections of other data in another order. -/
structure Reorders (config config' : Value) : Prop where
  nodes_eq : entriesOf config' "nodes" = entriesOf config "nodes"
  nextId_eq : nextIdOf config' = nextIdOf config
  connections_perm : ∃ entries entries', entriesOf config "connections" = .ok entries ∧
    entriesOf config' "connections" = .ok entries' ∧ entries.Perm entries'

/-- Data is loaded if its nodes are, and then its connections. -/
theorem ofValue_of_stages {config : Value} {seed : Int} {nodes connections : List Value}
    {loaded g : Graph} (given : entriesOf config "nodes" = .ok nodes)
    (next : nextIdOf config = .ok nextId)
    (listed : entriesOf config "connections" = .ok connections)
    (read : (empty seed).run (nodes.forM loadNode) = (loaded, .ok ())) (loading : loaded.Loading)
    (done : (loaded.unconnected nextId).run (connections.forM loadConnection) = (g, .ok ())) :
    ofValue config seed = .ok g := by
  obtain ⟨nodesValue, nodesGiven, nodesParts⟩ := Except.bind_eq_ok.mp given
  obtain ⟨nextValue, nextGiven, nextRead⟩ := Except.bind_eq_ok.mp next
  obtain ⟨listValue, listGiven, listParts⟩ := Except.bind_eq_ok.mp listed
  have raised := loading.raise nextId
  have all : (empty seed).run (loadAll config) = (g, .ok ()) := by
    unfold loadAll
    rw [run_lift_bind_ok nodesGiven, run_lift_bind_ok nodesParts, run_bind_ok read,
      run_lift_bind_ok nextGiven, run_lift_bind_ok nextRead, run_bind_ok (run_modify _ _),
      run_bind_ok (run_commit (raised.connections_eq ▸ raised.formed)),
      run_lift_bind_ok listGiven, run_lift_bind_ok listParts]
    exact done
  unfold ofValue
  rw [all]
  rfl

variable {config config' : Value}

theorem Reorders.symm (reorders : Reorders config config') : Reorders config' config := by
  obtain ⟨entries, entries', given, given', perm⟩ := reorders.connections_perm
  exact ⟨reorders.nodes_eq.symm, reorders.nextId_eq.symm, entries', entries, given', given,
    perm.symm⟩

/-- Whether connections lead into different inputs does not depend on their order. -/
theorem Reorders.distinct (reorders : Reorders config config')
    (apart : ∀ listed, listedConnections config = .ok listed → (listed.map (·.target)).Nodup) :
    ∀ listed, listedConnections config' = .ok listed → (listed.map (·.target)).Nodup := by
  intro listed given
  obtain ⟨entries, entries', asked, asked', perm⟩ := reorders.connections_perm
  unfold listedConnections at given apart
  rw [asked'] at given
  rw [asked] at apart
  obtain ⟨before, read, same⟩ := mapM_perm perm.symm given
  exact (same.map _).nodup_iff.mpr (apart before read)

/-- Another order is loaded as well, and gives a graph with the same nodes and connections. -/
theorem Reorders.loads (reorders : Reorders config config')
    (apart : ∀ listed, listedConnections config = .ok listed → (listed.map (·.target)).Nodup)
    {seed : Int} {g : Graph} (loaded : ofValue config seed = .ok g) :
    ∃ g', ofValue config' seed = .ok g' ∧ g.Interchanged g' := by
  obtain ⟨nodes, entries, between, nextId, given, next, asked, read, loading, done⟩ :=
    stages_of_ofValue loaded
  obtain ⟨_, entries', same, asked', perm⟩ := reorders.connections_perm
  rw [asked] at same
  cases same
  have start := loading.sound_unconnected nextId
  have distinct : ∀ listed, entries.mapM connectionOf = .ok listed →
      (listed.map (·.target)).Nodup :=
    fun listed every => apart listed (Except.bind_eq_ok.mpr ⟨entries, asked, every⟩)
  obtain ⟨listed, every, formed, sound, nodes_eq, all⟩ :=
    formed_of_loaded start loading.connections_eq distinct done
  obtain ⟨listed', every', same⟩ := mapM_perm perm every
  obtain ⟨g', done', sound', nodes_eq', all'⟩ :=
    loaded_of_formed start loading.connections_eq every' (formed.perm same)
  refine ⟨g', ofValue_of_stages (reorders.nodes_eq.trans given) (reorders.nextId_eq.trans next)
    asked' read loading done', sound, sound', nodes_eq'.trans nodes_eq.symm, fun c => ?_⟩
  rw [all, all', same.mem_iff]

/-- The order of connections in data does not matter, if no two of them lead into one input. Data
is loaded in every order or in none, and the graphs agree on what leads into each port, on what
validation finds, and on the terrain at every point. -/
theorem ofValue_reordered (reorders : Reorders config config')
    (apart : ∀ listed, listedConnections config = .ok listed → (listed.map (·.target)).Nodup)
    (seed : Int) :
    ((∃ g, ofValue config seed = .ok g) ↔ ∃ g', ofValue config' seed = .ok g') ∧
    ∀ g g', ofValue config seed = .ok g → ofValue config' seed = .ok g' →
      (∀ id, g'.wiring.incoming? id = g.wiring.incoming? id) ∧ g'.validate = g.validate ∧
      ∀ limit point, g'.terrainAt limit point = g.terrainAt limit point := by
  refine ⟨⟨?_, ?_⟩, fun g g' loaded loaded' => ?_⟩
  · rintro ⟨g, loaded⟩
    obtain ⟨g', loaded', _⟩ := reorders.loads apart loaded
    exact ⟨g', loaded'⟩
  · rintro ⟨g', loaded'⟩
    obtain ⟨g, loaded, _⟩ := reorders.symm.loads (reorders.distinct apart) loaded'
    exact ⟨g, loaded⟩
  · obtain ⟨h, other, same⟩ := reorders.loads apart loaded
    rw [loaded'] at other
    cases other
    exact ⟨same.incoming?_eq, same.validate_eq, same.terrainAt_eq⟩

/-- A height taken positive twice, one node after the other. -/
def chain (connections : List Connection) : Value :=
  .object [
    ("nodes", .list [.object [("id", .int 1), ("kind", .text "position")],
      .object [("id", .int 2), ("kind", .text "abs")],
      .object [("id", .int 3), ("kind", .text "abs")]]),
    ("connections", .list (connections.map connectionValue))]

/-- The connection that comes first along the chain is listed first, or last. -/
theorem chain_reordered :
    ∃ g g', ofValue (chain [⟨"1_outY", "2_in"⟩, ⟨"2_out", "3_in"⟩]) 0 = .ok g ∧
      ofValue (chain [⟨"2_out", "3_in"⟩, ⟨"1_outY", "2_in"⟩]) 0 = .ok g' ∧
      (∀ id, g'.wiring.incoming? id = g.wiring.incoming? id) ∧ g'.validate = g.validate ∧
      ∀ limit point, g'.terrainAt limit point = g.terrainAt limit point := by
  have reorders : Reorders (chain [⟨"1_outY", "2_in"⟩, ⟨"2_out", "3_in"⟩])
      (chain [⟨"2_out", "3_in"⟩, ⟨"1_outY", "2_in"⟩]) :=
    ⟨rfl, rfl, _, _, rfl, rfl, .swap _ _ _⟩
  have apart : ∀ listed, listedConnections (chain [⟨"1_outY", "2_in"⟩, ⟨"2_out", "3_in"⟩]) =
      .ok listed → (listed.map (·.target)).Nodup := by
    intro listed given
    cases given
    decide
  obtain ⟨either, agree⟩ := ofValue_reordered reorders apart 0
  have loads : ∃ g, ofValue (chain [⟨"1_outY", "2_in"⟩, ⟨"2_out", "3_in"⟩]) 0 = .ok g :=
    Except.exists_of_isOk (by decide +kernel)
  obtain ⟨g, loaded⟩ := loads
  obtain ⟨g', loaded'⟩ := either.mp ⟨g, loaded⟩
  exact ⟨g, g', loaded, loaded', agree g g' loaded loaded'⟩

end Graph

end Landform
