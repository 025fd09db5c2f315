import Landform.Proofs.Failures
import Landform.Proofs.Graph.States

/-!
# How loading fails

Data of the shape that graphs are saved in lists nodes by a number and the name of a kind, and
connections by two names, while the values of parameters and coordinates may be anything. Loading
such data gives a graph or refuses the data, unless a value that is read as a number is unfit for
one: then it fails with a stray cause.

1. `Value.isWellShaped`: the shape of graph data.
2. `NodeGives`, `ConfigGives`: the values that are read as numbers.
3. `ends_loadNode`, `ends_loadConnection`: how one entry fails.
4. `Loaded`, `loaded_ofValue`: what loading gives.
-/

namespace Landform

/-! ## 1. The shape of graph data -/

namespace Value

/-- Whether a value holds fields: an object, or anything empty in place of one. -/
def holdsFields : Value → Bool
  | object _ => true
  | value => !value.isTrue

/-- Whether an entry has the shape of a node: an id, the name of a kind, and fields. -/
def isNodeShaped (entry : Value) : Bool :=
  match entry.field? "id", entry.field? "kind" with
  | some (.int _), some (.text _) =>
    ((entry.field? "params").getD .null).holdsFields &&
      ((entry.field? "extra_params").getD .null).holdsFields
  | _, _ => false

/-- Whether an entry has the shape of a connection: the names of its ends. -/
def isLinkShaped (entry : Value) : Bool :=
  match entry.field? "from", entry.field? "to" with
  | some (.text _), some (.text _) => true
  | _, _ => false

/-- Whether data has the shape of a graph: an object that lists nodes and connections. -/
def isWellShaped : Value → Bool
  | object fields =>
    match (Table.get? fields "nodes").getD (.list []),
      (Table.get? fields "connections").getD (.list []) with
    | .list nodes, .list connections =>
      nodes.all isNodeShaped && connections.all isLinkShaped
    | _, _ => false
  | _ => false

theorem exists_asFields {value : Value} (holds : value.holdsFields = true) :
    ∃ fields, ∀ cause, value.asFields cause = .ok fields := by
  unfold asFields
  cases truth : value.isTrue with
  | false => exact ⟨[], fun _ => rfl⟩
  | true =>
    cases value with
    | object fields => exact ⟨fields, fun _ => rfl⟩
    | null | bool _ | int _ | float _ | text _ | list _ =>
      rw [holdsFields, truth] at holds
      · cases holds
      · exact fun _ same => by cases same

/-- What an entry of the shape of a node gives. -/
structure NodeShape (entry : Value) (id : Int) (name : String) (updates extras : Fields) :
    Prop where
  id_eq : entry.entry "id" = .ok (.int id)
  kind_eq : entry.entry "kind" = .ok (.text name)
  entryOr_eq : ∀ name default, ∃ v, entry.entryOr name default = .ok v
  params : ∃ given, entry.entryOr "params" .null = .ok given ∧
    ∀ cause, given.asFields cause = .ok updates
  extras : ∃ given, entry.entryOr "extra_params" .null = .ok given ∧
    ∀ cause, given.asFields cause = .ok extras

theorem exists_nodeShape {entry : Value} (shaped : entry.isNodeShaped = true) :
    ∃ id name updates extras, NodeShape entry id name updates extras := by
  unfold isNodeShaped at shaped
  cases entry with
  | object fields =>
    simp only [field?] at shaped
    split at shaped
    · next id name givenId givenKind =>
      obtain ⟨params, extras⟩ := Bool.and_eq_true_iff.mp shaped
      obtain ⟨updates, read⟩ := exists_asFields params
      obtain ⟨others, kept⟩ := exists_asFields extras
      exact ⟨id, name, updates, others,
        { id_eq := by rw [Value.entry, givenId]
          kind_eq := by rw [Value.entry, givenKind]
          entryOr_eq := fun _ _ => ⟨_, rfl⟩
          params := ⟨_, rfl, read⟩
          extras := ⟨_, rfl, kept⟩ }⟩
    · cases shaped
  | null | bool _ | int _ | float _ | text _ | list _ => cases shaped

theorem link_of_isLinkShaped {entry : Value} (shaped : entry.isLinkShaped = true) :
    (∃ source, entry.entry "from" = .ok (.text source)) ∧
      ∃ target, entry.entry "to" = .ok (.text target) := by
  unfold isLinkShaped at shaped
  cases entry with
  | object fields =>
    simp only [field?] at shaped
    split at shaped
    · next source target givenSource givenTarget =>
      exact ⟨⟨source, by rw [Value.entry, givenSource]⟩, ⟨target, by rw [Value.entry, givenTarget]⟩⟩
    · cases shaped
  | null | bool _ | int _ | float _ | text _ | list _ => cases shaped

/-- What can be relied on in data of the shape of a graph. -/
theorem lists_of_isWellShaped {config : Value} (shaped : config.isWellShaped = true) :
    (∃ nodes, config.entryOr "nodes" (.list []) = .ok (.list nodes) ∧
      ∀ entry ∈ nodes, entry.isNodeShaped = true) ∧
    (∃ connections, config.entryOr "connections" (.list []) = .ok (.list connections) ∧
      ∀ entry ∈ connections, entry.isLinkShaped = true) ∧
    ∃ nextId, config.entryOr "next_node_id" (.int 1) = .ok nextId := by
  cases config with
  | object fields =>
    simp only [isWellShaped] at shaped
    split at shaped
    · next nodes connections listed linked =>
      obtain ⟨all, links⟩ := Bool.and_eq_true_iff.mp shaped
      exact ⟨⟨nodes, by rw [entryOr, listed], List.all_eq_true.mp all⟩,
        ⟨connections, by rw [entryOr, linked], List.all_eq_true.mp links⟩, ⟨_, rfl⟩⟩
    · cases shaped
  | null | bool _ | int _ | float _ | text _ | list _ => cases shaped

end Value

namespace Graph

/-! ## 2. Values that are read as numbers -/

/-- What the entry of a node gives for numbers: its coordinates, and what it gives for the fields of
its kind that hold a number. -/
inductive NodeGives (entry : Value) : Bool → Value → Prop
  | coordinate {name : String} {v : Value} : name = "x" ∨ name = "y" →
      entry.entryOr name (.float 0) = .ok v → NodeGives entry false v
  | param {named given : Value} {cause : Error} {k : Kind} {updates : Fields} {whole : Bool}
      {v : Value} : entry.entry "kind" = .ok named → kindOf named = .ok k →
      entry.entryOr "params" .null = .ok given → given.asFields cause = .ok updates →
      k.Given ((k.defaults 0).known updates) whole v → NodeGives entry whole v

/-- What data gives for numbers: what its nodes give, and the next id. -/
inductive ConfigGives (config : Value) : Bool → Value → Prop
  | node {entries : List Value} {entry : Value} {whole : Bool} {v : Value} :
      config.entryOr "nodes" (.list []) = .ok (.list entries) → entry ∈ entries →
      NodeGives entry whole v → ConfigGives config whole v
  | nextId {v : Value} : config.entryOr "next_node_id" (.int 1) = .ok v →
      ConfigGives config true v

/-! ## 3. Single entries -/

section Entries

variable {α : Type} {allowed : Error → Prop}

theorem ends_lift {result : Except Error α} (fails : FailsOnly allowed result) :
    Ends (fun a => result = .ok a) allowed (Edit.lift result) := by
  cases result with
  | ok a => exact Ends.pure rfl
  | error cause => exact Ends.throw fails

theorem lift_ok_bind {β : Type} (a : α) (rest : α → Edit β) :
    Edit.lift (.ok a) >>= rest = rest a := rfl

theorem ends_drawSeed (k : Kind) : Ends (fun _ => True) allowed (Edit.drawSeed k) := by
  intro g
  obtain ⟨random, seed, drawn⟩ := run_drawSeed g k
  unfold Graph.run at drawn
  cases ran : (Edit.drawSeed k).run g with
  | ok seed g' => trivial
  | error cause g' =>
    rw [ran] at drawn
    cases drawn

variable {given : Bool → Value → Prop}

theorem ends_commit : Ends (fun _ => True) (Expected given) Edit.commit := by
  unfold Edit.commit
  refine (Ends.modify _).bind fun _ _ => ?_
  refine Ends.get.bind fun g _ => ?_
  cases g.dangling? with
  | none => exact Ends.set _
  | some port => exact Ends.throw (.promised rfl)

theorem ends_connect (source target : String) :
    Ends (fun _ => True) (Expected given) (Edit.connect source target) := by
  unfold Edit.connect
  refine Ends.get.bind fun g _ => ?_
  cases Edit.refusal? g source target with
  | some why => exact Ends.pure trivial
  | none =>
    refine (Ends.set _).bind fun _ _ => ?_
    exact ends_commit.bind fun _ _ => Ends.pure trivial

theorem failsOnly_get {β : Type} (r : Registry β) (name : String) :
    FailsOnly (Expected given) (r.get name) := by
  rw [Registry.get]
  cases r.instances.get? name with
  | some kept => trivial
  | none =>
    cases r.entries.get? name with
    | some entry => trivial
    | none => exact .promised rfl

theorem failsOnly_find (name : String) : FailsOnly (Expected given) (Catalog.find name) :=
  (failsOnly_get Catalog.kinds name).map _

theorem Node.failsOnly_create {id seed : Int} {k : Kind} {x y : Value} (first : given false x)
    (second : given false y) : FailsOnly (Expected given) (Node.create id k seed x y) := by
  refine (Value.failsOnly_toFloat first).bind fun _ _ => ?_
  exact (Value.failsOnly_toFloat second).bind fun _ _ => trivial

/-- Reading the entry of a node fails as expected. -/
theorem ends_loadNode {entry : Value} (shaped : entry.isNodeShaped = true) :
    Ends (fun _ => True) (Expected (NodeGives entry)) (loadNode entry) := by
  obtain ⟨id, name, updates, extras, shape⟩ := Value.exists_nodeShape shaped
  obtain ⟨x, xGiven⟩ := shape.entryOr_eq "x" (.float 0)
  obtain ⟨y, yGiven⟩ := shape.entryOr_eq "y" (.float 0)
  obtain ⟨given, paramsGiven, paramsRead⟩ := shape.params
  obtain ⟨others, extrasGiven, extrasRead⟩ := shape.extras
  unfold loadNode
  simp only [shape.id_eq, shape.kind_eq, xGiven, yGiven, paramsGiven, paramsRead, extrasGiven,
    extrasRead, Value.toInt, lift_ok_bind]
  refine Ends.get.bind fun g _ => ?_
  split
  · exact Ends.throw (.promised rfl)
  · refine (ends_lift (failsOnly_find name)).bind fun k found => ?_
    refine (ends_drawSeed k).bind fun seed _ => ?_
    have places : FailsOnly (Expected (NodeGives entry)) (Node.create id k seed x y) :=
      Node.failsOnly_create (.coordinate (.inl rfl) xGiven) (.coordinate (.inr rfl) yGiven)
    refine (ends_lift places).bind fun fresh created => ?_
    -- the parameters are read over the defaults of the kind that the entry names
    have kind : fresh.kind = k := by
      rw [Node.kind, (Node.create_eq_ok created).2.1, Kind.kind_defaults]
    have update : FailsOnly (Expected (NodeGives entry)) (fresh.update updates) := by
      refine (fresh.failsOnly_update updates).mono fun cause expected => ?_
      rw [Params.known_eq, ← Node.kind, kind] at expected
      exact expected.mono fun whole v =>
        .param shape.kind_eq found paramsGiven (paramsRead .missingPart)
    exact (ends_lift update).bind fun node _ => Ends.modify _

/-- Making the connection of an entry fails with a refusal. -/
theorem ends_loadConnection {entry : Value} (shaped : entry.isLinkShaped = true) :
    Ends (fun _ => True) (Expected given) (loadConnection entry) := by
  obtain ⟨⟨source, sourceGiven⟩, ⟨target, targetGiven⟩⟩ := Value.link_of_isLinkShaped shaped
  unfold loadConnection
  simp only [sourceGiven, targetGiven, lift_ok_bind, Value.asName]
  refine (ends_connect source target).bind fun outcome _ => ?_
  cases outcome with
  | done what => exact Ends.pure trivial
  | refused why => exact Ends.throw (.promised rfl)

end Entries

/-! ## 4. Whole graphs -/

theorem ends_loadAll {config : Value} (shaped : config.isWellShaped = true) :
    Ends (fun _ => True) (Expected (ConfigGives config)) (loadAll config) := by
  obtain ⟨⟨nodes, nodesGiven, nodeShaped⟩, ⟨connections, connectionsGiven, linkShaped⟩,
    ⟨nextId, nextGiven⟩⟩ := Value.lists_of_isWellShaped shaped
  unfold loadAll
  simp only [nodesGiven, connectionsGiven, nextGiven, lift_ok_bind, Value.parts]
  refine (Ends.forM nodes fun entry member => ?_).bind fun _ _ => ?_
  · exact (ends_loadNode (nodeShaped entry member)).mono fun cause expected =>
      expected.mono fun whole v => .node nodesGiven member
  · refine (ends_lift (Value.failsOnly_toInt (.nextId nextGiven))).bind fun next _ => ?_
    refine (Ends.modify _).bind fun _ _ => ?_
    refine ends_commit.bind fun _ _ => ?_
    exact Ends.forM connections fun entry member => ends_loadConnection (linkShaped entry member)

/-- What loading data may give: a graph, a refusal with a bad value or a name that is not there, or
a stray failure at a value that is unfit for a number. -/
inductive Loaded (config : Value) : Except Error Graph → Prop
  | graph (g : Graph) : Loaded config (.ok g)
  | refused {cause : Error} : cause.isPromised = true → Loaded config (.error cause)
  | stray {cause : Error} {whole : Bool} {v : Value} : cause.isStray = true →
      ConfigGives config whole v → Unfit whole v → Loaded config (.error cause)

theorem loaded_ofValue {config : Value} (shaped : config.isWellShaped = true) (seed : Int) :
    Loaded config (ofValue config seed) := by
  have ends := ends_loadAll shaped (empty seed)
  unfold ofValue Graph.run
  cases ran : (loadAll config).run (empty seed) with
  | ok answer g => exact .graph g
  | error cause g =>
    rw [ran] at ends
    cases ends with
    | promised kind => exact .refused kind
    | stray kind read unfit => exact .stray kind read unfit

end Graph

end Landform
