import Landform.Proofs.Graph.Legal
import Mathlib.Data.List.Pairwise

/-!
# What loading takes over

Loading takes over every node that data lists. It makes the listed connections one after the other,
and each one that is made takes the place of the one that led into the same input: of several
connections into one input, the last one stays, and the others go without an error.

1. `listedNodes`, `listedConnections`: what data lists.
2. `lasting`: the connections that no later one into the same input follows.
3. `run_forM_eq_ok`: a run over entries that reads each of them.
4. `loadConnection_reads`: what one connection leaves.
5. `loadNodes_read`, `loadConnections_read`, `ofValue_lists`: what a whole run takes over.
-/

namespace Landform.Graph

/-! ## 1. What data lists -/

/-- The connection of an entry. -/
def connectionOf (entry : Value) : Except Error Connection := do
  let source ← (← entry.entry "from").asName
  let target ← (← entry.entry "to").asName
  return ⟨source, target⟩

/-- The nodes that data lists, by id and kind. -/
def listedNodes (config : Value) : Except Error (List (Int × Kind)) := do
  (← entriesOf config "nodes").mapM nodeOf

/-- The connections that data lists. -/
def listedConnections (config : Value) : Except Error (List Connection) := do
  (← entriesOf config "connections").mapM connectionOf

/-! ## 2. Connections that stay -/

/-- The connections that no later one into the same input follows. -/
def lasting (connections : List Connection) : List Connection :=
  connections.pwFilter fun c d => c.target ≠ d.target

theorem forall_mem_lasting {c : Connection} {connections : List Connection} :
    (∀ d ∈ lasting connections, c.target ≠ d.target) ↔ ∀ d ∈ connections, c.target ≠ d.target := by
  refine List.forall_mem_pwFilter (fun {x y z} apart => ?_) c connections
  by_cases same : x.target = y.target
  · exact .inr (same ▸ apart)
  · exact .inl same

theorem lasting_cons_of_forall {c : Connection} {rest : List Connection}
    (last : ∀ d ∈ rest, c.target ≠ d.target) : lasting (c :: rest) = c :: lasting rest :=
  List.pwFilter_cons_of_pos (forall_mem_lasting.mpr last)

theorem lasting_cons_of_mem {c d : Connection} {rest : List Connection} (later : d ∈ rest)
    (same : c.target = d.target) : lasting (c :: rest) = lasting rest :=
  List.pwFilter_cons_of_neg fun apart => forall_mem_lasting.mp apart d later same

/-- A further connection goes to the end, in place of those into the same input. -/
theorem lasting_concat (connections : List Connection) (c : Connection) :
    lasting (connections ++ [c]) = (lasting connections).filter (·.target != c.target) ++ [c] := by
  induction connections with
  | nil => rfl
  | cons b rest ih =>
    rw [List.cons_append]
    by_cases last : ∀ d ∈ rest, b.target ≠ d.target
    · rw [lasting_cons_of_forall last]
      by_cases same : b.target = c.target
      · rw [lasting_cons_of_mem (List.mem_append_right _ List.mem_cons_self) same, ih,
          List.filter_cons_of_neg (by simpa using same)]
      · have apart : ∀ d ∈ rest ++ [c], b.target ≠ d.target :=
          List.forall_mem_append.mpr ⟨last, List.forall_mem_singleton.mpr same⟩
        rw [lasting_cons_of_forall apart, ih, List.filter_cons_of_pos (by simpa using same),
          List.cons_append]
    · -- a later one has already taken the place of the first
      obtain ⟨d, later, same⟩ := by simpa using last
      rw [lasting_cons_of_mem (List.mem_append_left _ later) same, ih,
        lasting_cons_of_mem later same]

theorem lasting_eq_self {connections : List Connection} :
    lasting connections = connections ↔ (connections.map (·.target)).Nodup :=
  List.pwFilter_eq_self.trans List.pairwise_map.symm

/-! ## 3. Runs over entries -/

/-- A run that goes through entries reads each of them, if every step does. What it has read so far
decides the graph. -/
theorem run_forM_eq_ok {α : Type} {load : Value → Edit Unit} (read : Value → Except Error α)
    (took : List α → Graph → Prop)
    (step : ∀ {entry g g' before}, took before g → g.run (load entry) = (g', .ok ()) →
      ∃ a, read entry = .ok a ∧ took (before ++ [a]) g')
    {entries : List Value} {g g' : Graph} (before : List α) (start : took before g)
    (done : g.run (entries.forM load) = (g', .ok ())) :
    ∃ items, entries.mapM read = .ok items ∧ took (before ++ items) g' := by
  induction entries generalizing g before with
  | nil =>
    cases done
    exact ⟨[], rfl, by rwa [List.append_nil]⟩
  | cons entry rest ih =>
    obtain ⟨between, _, first, others⟩ := run_bind_eq_ok done
    obtain ⟨a, given, next⟩ := step start first
    obtain ⟨items, listed, final⟩ := ih _ next others
    refine ⟨a :: items, ?_, by rwa [List.append_cons]⟩
    rw [List.mapM_cons]
    exact Except.bind_eq_ok.mpr ⟨a, given, Except.bind_eq_ok.mpr ⟨items, listed, rfl⟩⟩

/-! ## 4. One connection -/

/-- An entry that is loaded adds the connection that it lists, in place of the one into the same
input. -/
theorem loadConnection_reads {entry : Value} {g g' : Graph} (sound : g.Sound)
    (done : g.run (loadConnection entry) = (g', .ok ())) :
    ∃ c, connectionOf entry = .ok c ∧ g'.Sound ∧ g'.nodes = g.nodes ∧
      g'.connections = g.joining c.source c.target := by
  unfold loadConnection at done
  obtain ⟨sourceValue, sourceGiven, done⟩ := run_lift_bind_eq_ok done
  obtain ⟨source, sourceRead, done⟩ := run_lift_bind_eq_ok done
  obtain ⟨targetValue, targetGiven, done⟩ := run_lift_bind_eq_ok done
  obtain ⟨target, targetRead, done⟩ := run_lift_bind_eq_ok done
  rcases run_connect sound source target with ⟨why, _, refused⟩ | ⟨_, formed, what, connected⟩
  · rw [run_bind_ok refused] at done
    cases done
  · rw [run_bind_ok connected] at done
    cases done
    refine ⟨⟨source, target⟩, ?_, settled_sound formed, rfl, ?_⟩
    · exact Except.bind_eq_ok.mpr ⟨sourceValue, sourceGiven, Except.bind_eq_ok.mpr
        ⟨source, sourceRead, Except.bind_eq_ok.mpr ⟨targetValue, targetGiven,
          Except.bind_eq_ok.mpr ⟨target, targetRead, rfl⟩⟩⟩⟩
    · rw [joining, ← sound.making_eq]
      rfl

/-! ## 5. Whole runs -/

theorem loadNodes_read {entries : List Value} {g g' : Graph}
    (done : g.run (entries.forM loadNode) = (g', .ok ())) :
    ∃ items, entries.mapM nodeOf = .ok items ∧
      g'.nodes.map listing = g.nodes.map listing ++ items := by
  refine run_forM_eq_ok nodeOf (fun items h => h.nodes.map listing = items) ?_ _ rfl done
  rintro entry h h' _ rfl loaded
  cases loaded ▸ read_loadNode h entry with
  | appended listed _ _ => exact ⟨_, listed, List.map_append⟩

/-- A graph of these nodes while its connections are being made: those so far are these. -/
structure Connecting (nodes : List Node) (made : List Connection) (g : Graph) : Prop
    extends g.Sound where
  nodes_eq : g.nodes = nodes
  connections_eq : g.connections = lasting made

theorem Connecting.next {nodes : List Node} {entry : Value} {g g' : Graph} {made : List Connection}
    (connecting : Connecting nodes made g) (done : g.run (loadConnection entry) = (g', .ok ())) :
    ∃ c, connectionOf entry = .ok c ∧ Connecting nodes (made ++ [c]) g' := by
  obtain ⟨c, listed, sound, nodes', connections'⟩ := loadConnection_reads connecting.toSound done
  refine ⟨c, listed, { sound with nodes_eq := ?_, connections_eq := ?_ }⟩
  · exact nodes'.trans connecting.nodes_eq
  · rw [connections', joining, connecting.connections_eq, lasting_concat]

theorem loadConnections_read {entries : List Value} {g g' : Graph} (sound : g.Sound)
    (bare : g.connections = []) (done : g.run (entries.forM loadConnection) = (g', .ok ())) :
    ∃ connections, entries.mapM connectionOf = .ok connections ∧
      Connecting g.nodes connections g' :=
  run_forM_eq_ok connectionOf (Connecting g.nodes) Connecting.next []
    { sound with nodes_eq := rfl, connections_eq := bare } done

/-- Loading takes over every listed node, and of the listed connections those that no later one into
the same input follows: all of them exactly if they lead into different inputs. -/
theorem ofValue_lists {config : Value} {seed : Int} {g : Graph}
    (loaded : ofValue config seed = .ok g) :
    listedNodes config = .ok (g.nodes.map listing) ∧
    ∃ connections, listedConnections config = .ok connections ∧
      g.connections = lasting connections ∧
      (g.connections = connections ↔ (connections.map (·.target)).Nodup) := by
  obtain ⟨nodeEntries, entries, between, nextId, nodesGiven, _, given, nodesRead, loading, read⟩ :=
    stages_of_ofValue loaded
  obtain ⟨items, nodesListed, nodes⟩ := loadNodes_read nodesRead
  obtain ⟨connections, listed, connecting⟩ :=
    loadConnections_read (loading.sound_unconnected nextId) loading.connections_eq read
  refine ⟨?_, connections, Except.bind_eq_ok.mpr ⟨entries, given, listed⟩,
    connecting.connections_eq, ?_⟩
  · have all : g.nodes.map listing = items := by
      rw [connecting.nodes_eq]
      exact nodes
    rw [all]
    exact Except.bind_eq_ok.mpr ⟨nodeEntries, nodesGiven, nodesListed⟩
  · rw [connecting.connections_eq]
    exact lasting_eq_self

/-- Two connections into the input of one node. -/
def forked : Value :=
  .object [
    ("nodes", .list [.object [("id", .int 1), ("kind", .text "position")],
      .object [("id", .int 2), ("kind", .text "abs")]]),
    ("connections", .list [.object [("from", .text "1_outX"), ("to", .text "2_in")],
      .object [("from", .text "1_outY"), ("to", .text "2_in")]])]

theorem forked_loads : ∃ g, ofValue forked 0 = .ok g :=
  Except.exists_of_isOk (by decide +kernel)

theorem forked_lists :
    ∃ g, ofValue forked 0 = .ok g ∧ listedNodes forked = .ok (g.nodes.map listing) ∧
    ∃ connections, listedConnections forked = .ok connections ∧
      g.connections = lasting connections ∧
      (g.connections = connections ↔ (connections.map (·.target)).Nodup) := by
  obtain ⟨g, loaded⟩ := forked_loads
  exact ⟨g, loaded, ofValue_lists loaded⟩

/-- Loading takes only the second one over, without an error. -/
theorem forked_loses :
    listedConnections forked = .ok [⟨"1_outX", "2_in"⟩, ⟨"1_outY", "2_in"⟩] ∧
    ∃ g, ofValue forked 0 = .ok g ∧ g.connections = [⟨"1_outY", "2_in"⟩] := by
  obtain ⟨g, loaded⟩ := forked_loads
  have kept : (ofValue forked 0).toOption.map (·.connections) = some [⟨"1_outY", "2_in"⟩] := by
    decide +kernel
  rw [loaded] at kept
  exact ⟨rfl, g, loaded, Option.some.inj kept⟩

end Landform.Graph
