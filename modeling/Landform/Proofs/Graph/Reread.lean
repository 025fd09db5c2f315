import Landform.Proofs.Document.Brackets
import Landform.Proofs.Document.Layout
import Landform.Proofs.Files
import Landform.Proofs.Graph.Failures
import Landform.Proofs.Graph.Saved
import Landform.Proofs.Params.Fields
import Landform.Settings.Load

/-!
# Graphs in files

A graph whose texts are plain words can be saved in a file in block layout or as JSON, and loaded
from the file. Block layout keeps all of it. JSON has no numbers that are not finite and keeps their
names as texts: where a number is read, as for coordinates and parameters, the name is read as the
number again, but in the further fields of a node, which are not read at all, the name stays.

1. `Form.coerce_worded`, `Node.update_worded`: parameters are read from names as well.
2. `loadNode_worded`, `loadAll_worded`: loading what JSON keeps of a graph.
3. `Node.Plain`, `Sound.plain_toValue`: graphs whose texts are plain words.
4. `worded_eq_iff`: where JSON keeps everything.
5. `Reachable.ofFile_toValue`: files.
-/

namespace Landform

open Decimal Document

/-! ## 1. Numbers by name -/

/-- The name of a double is read as the double. -/
theorem Value.toFloat_wordOf (x : Float) : (wordOf x).toFloat = .ok x := by
  unfold wordOf isFinite
  cases parts : form x with
  | notANumber =>
    have same : (0 / 0 : Float) = notANumber := eq_of_toBits (by decide +kernel)
    rw [Json.number, parts, eq_of_notANumber parts, same]
    exact (by cbv : (Value.text "NaN").toFloat = .ok notANumber)
  | infinite negative =>
    rw [Json.number, parts, eq_of_infinite parts]
    cases negative with
    | false => exact (by cbv : (Value.text "Infinity").toFloat = .ok infinity)
    | true => exact (by cbv : (Value.text "-Infinity").toFloat = .ok (-infinity))
  | finite => rfl

/-- A stored value is read also from what JSON keeps of it. -/
theorem Form.coerce_worded {form : Form} {v : Value} (stable : form.coerce v = .ok v) :
    form.coerce (worded v) = .ok v := by
  cases form with
  | real =>
    obtain ⟨x, -, rfl⟩ := Except.map_eq_ok.mp stable
    exact congrArg (Except.map Value.float) (Value.toFloat_wordOf x)
  | text =>
    obtain ⟨s, rfl⟩ : ∃ s, v = .text s := ⟨_, (Except.ok.inj stable).symm⟩
    exact stable
  | whole | truth | flags | material =>
    obtain ⟨_, -, rfl⟩ := Except.map_eq_ok.mp stable
    exact stable

theorem Fields.last?_worded (fields : Fields) (name : String) :
    Fields.last? (wordedFields fields) name = (fields.last? name).map worded := by
  unfold Fields.last? Table.get?
  rw [wordedFields_eq, ← List.map_reverse, List.find?_map, Option.map_map, Option.map_map]
  rfl

namespace Params

section SameKind

variable {d p : Params} (same : d.kind = p.kind) (checked : p.isChecked = true)

include same checked

/-- Parameters that pass their checks are read from what JSON keeps of their plain form. -/
theorem replace_worded : d.replace (wordedFields p.fields) = .ok p := by
  refine replace_eq_ok.mpr ⟨same.symm, fun field listed => ?_⟩
  rw [same] at listed
  obtain ⟨coerced, met⟩ := reads_value checked listed
  rw [given, Fields.last?_worded, p.last?_fields field listed]
  exact ⟨Form.coerce_worded coerced, met⟩

theorem merge_worded : d.merge (wordedFields p.fields) = d.merge p.fields := by
  have known : d.known (wordedFields p.fields) = wordedFields (d.known p.fields) := by
    simp only [Params.known, wordedFields_eq, List.map_map, List.filter_map]
    rfl
  have extras : d.extras (wordedFields p.fields) = wordedFields (d.extras p.fields) := by
    simp only [Params.extras, wordedFields_eq, List.filter_map]
    rfl
  have none : (wordedFields p.fields).isEmpty = p.fields.isEmpty := by
    rw [wordedFields_eq, List.isEmpty_map]
  unfold merge
  simp only [known, extras, known_fields same, extras_fields same, none,
    replace_worded same checked, replace_fields same checked]
  rfl

end SameKind

end Params

namespace Node

theorem update_worded {fresh : Node} {p : Params} (same : fresh.kind = p.kind)
    (checked : p.isChecked = true) :
    fresh.update (wordedFields p.fields) = fresh.update p.fields := by
  unfold update
  rw [Params.merge_worded same checked]

theorem create_wordOf (id : Int) (k : Kind) (seed : Int) (x y : Float) :
    create id k seed (wordOf x) (wordOf y) = create id k seed (.float x) (.float y) := by
  unfold create
  rw [Value.toFloat_wordOf, Value.toFloat_wordOf]
  rfl

/-- A node whose further fields are those that come back from JSON. -/
def worded (n : Node) : Node :=
  { n with extras := wordedFields n.extras }

theorem Whole.worded {n : Node} (whole : n.Whole) : n.worded.Whole :=
  ⟨whole.checked, (names_wordedFields n.extras).symm ▸ whole.extras_distinct⟩

end Node

namespace Graph

/-! ## 2. Loading -/

section NodeValue

variable (n : Node)

theorem worded_entry_id : (Document.worded (nodeValue n)).entry "id" = .ok (.int n.id) := rfl

theorem worded_entry_kind :
    (Document.worded (nodeValue n)).entry "kind" = .ok (.text n.kind.name) := rfl

theorem worded_entryOr_x (default : Value) :
    (Document.worded (nodeValue n)).entryOr "x" default = .ok (wordOf n.x) := rfl

theorem worded_entryOr_y (default : Value) :
    (Document.worded (nodeValue n)).entryOr "y" default = .ok (wordOf n.y) := rfl

theorem worded_entryOr_params (default : Value) :
    (Document.worded (nodeValue n)).entryOr "params" default =
      .ok (.object (wordedFields n.params.fields)) := rfl

theorem worded_entryOr_extras : (Document.worded (nodeValue n)).entryOr "extra_params" .null =
    (nodeValue n.worded).entryOr "extra_params" .null := by
  unfold nodeValue Node.worded
  cases n.extras with
  | nil => rfl
  | cons field rest => rfl

end NodeValue

/-- Loading what JSON keeps of a node is loading the node with the further fields that JSON
keeps. -/
theorem loadNode_worded {n : Node} (whole : n.Whole) :
    loadNode (Document.worded (nodeValue n)) = loadNode (nodeValue n.worded) := by
  have update (seed : Int) : Node.update ⟨n.id, n.kind.defaults seed, n.x, n.y, []⟩
      (wordedFields n.params.fields) =
        Node.update ⟨n.id, n.kind.defaults seed, n.x, n.y, []⟩ n.params.fields :=
    Node.update_worded (Kind.kind_defaults seed n.kind) whole.checked
  unfold loadNode
  simp only [worded_entry_id, worded_entry_kind, worded_entryOr_x, worded_entryOr_y,
    worded_entryOr_params, worded_entryOr_extras, entry_id, entry_kind, entryOr_x, entryOr_y,
    entryOr_params, lift_ok_bind, Value.toInt, kindOf_name, Node.create_wordOf, create_eq,
    asFields_object, update]
  rfl

/-- A graph whose nodes have the further fields that come back from JSON. -/
def worded (g : Graph) : Graph :=
  { g with nodes := g.nodes.map Node.worded }

theorem wordedItems_eq_self {items : List Value}
    (same : ∀ item ∈ items, Document.worded item = item) : wordedItems items = items := by
  rw [wordedItems_eq]
  exact (List.map_congr_left same).trans (List.map_id _)

theorem worded_connectionValue (c : Connection) :
    Document.worded (connectionValue c) = connectionValue c :=
  rfl

theorem worded_toValue (g : Graph) : Document.worded g.toValue =
    .object [("schema_version", .text schemaVersion), ("next_node_id", .int g.nextId),
      ("nodes", .list ((g.nodes.map nodeValue).map Document.worded)),
      ("connections", .list (g.connections.map connectionValue))] := by
  have kept : wordedItems (g.connections.map connectionValue) = g.connections.map connectionValue :=
    wordedItems_eq_self (List.forall_mem_map.mpr fun c _ => worded_connectionValue c)
  rw [← wordedItems_eq, ← kept]
  rfl

theorem loadNodes_worded {nodes : List Node} (whole : ∀ n ∈ nodes, n.Whole) :
    ((nodes.map nodeValue).map Document.worded).forM loadNode =
      ((nodes.map Node.worded).map nodeValue).forM loadNode := by
  induction nodes with
  | nil => rfl
  | cons n rest ih =>
    obtain ⟨first, others⟩ := List.forall_mem_cons.mp whole
    rw [List.map_cons, List.map_cons, List.map_cons, List.map_cons, List.forM, List.forM,
      loadNode_worded first, ih others]

/-- Loading an object that lists nodes and connections. -/
theorem loadAll_listing (nextId : Int) (nodes connections : List Value) :
    loadAll (.object [("schema_version", .text schemaVersion), ("next_node_id", .int nextId),
      ("nodes", .list nodes), ("connections", .list connections)]) = (do
        nodes.forM loadNode
        modify fun g => { g with nextId := max g.nextId nextId }
        Edit.commit
        connections.forM loadConnection) :=
  rfl

/-- Loading what JSON keeps of a graph is loading the graph with the further fields that JSON
keeps. -/
theorem loadAll_worded {g : Graph} (whole : ∀ n ∈ g.nodes, n.Whole) :
    loadAll (Document.worded g.toValue) = loadAll g.worded.toValue := by
  rw [worded_toValue, loadAll_listing, loadNodes_worded whole]
  rfl

theorem Stored.worded {g : Graph} (stored : g.Stored) : g.worded.Stored := by
  have same : SamePorts g.nodes g.worded.nodes := by
    rw [SamePorts, Graph.worded, List.map_map]
    rfl
  exact { stored.toWellFormed.congr same with
    tables_eq := stored.tables_eq.trans same.tables_eq
    nodes_whole := List.forall_mem_map.mpr fun n member => (stored.nodes_whole n member).worded
    next_pos := stored.next_pos }

/-- Data that fills an empty graph gives this graph, up to its random numbers and its version. -/
theorem Stored.map_toValue_ofValue {g : Graph} (stored : g.Stored) (seed : Int) :
    (ofValue g.toValue seed).map toValue = .ok g.toValue ∧
      (ofValue (Document.worded g.toValue) seed).map toValue = .ok g.worded.toValue := by
  obtain ⟨_, _, loaded⟩ := stored.run_loadAll seed
  obtain ⟨_, _, reloaded⟩ := stored.worded.run_loadAll seed
  constructor
  · rw [ofValue, loaded]
    rfl
  · rw [ofValue, loadAll_worded stored.nodes_whole, reloaded]
    rfl

end Graph

/-! ## 3. Plain words -/

namespace Document

theorem isWordChar_of_isDigit {c : Char} (digit : c.isDigit = true) : isWordChar c = true := by
  obtain ⟨lower, upper⟩ := Char.isDigit_iff_toNat.mp digit
  have other : c ≠ '$' ∧ c ≠ '?' := by constructor <;> rintro rfl <;> cases digit
  have kept : needsEscape c = false := by
    have lower : 48 ≤ c.toNat := lower
    have upper : c.toNat ≤ 57 := upper
    simp [needsEscape]
    omega
  have small : c.toNat < 65536 := Nat.lt_of_le_of_lt upper (by decide)
  simp [isWordChar, kept, small, other]

theorem IsWord.append {s t : String} (first : IsWord s) (second : IsWord t) : IsWord (s ++ t) := by
  intro c member
  rw [String.toList_append] at member
  exact (List.mem_append.mp member).elim (first c) (second c)

theorem isWord_integerText (n : Int) : IsWord (integerText n) := by
  intro c member
  rcases mem_integerText member with rfl | digit
  · decide
  · exact isWordChar_of_isDigit digit

/-- An object whose fields have given names. -/
theorem Plain.named {fields : Fields} (names : List String) (named : Table.names fields = names)
    (distinct : names.Nodup) (words : ∀ name ∈ names, IsWord name)
    (plain : ∀ field ∈ fields, Plain field.2) : Plain (.object fields) := by
  subst named
  exact .object distinct (fun field listed => words _ (List.mem_map_of_mem listed)) plain

end Document

theorem isWord_portId (node : Int) {role : String} (word : IsWord role) :
    IsWord (portId node role) :=
  ((isWord_integerText node).append (by decide)).append word

/-- The ids of ports are plain words. -/
theorem Node.isWord_id {n : Node} {p : Port} (listed : p ∈ n.ports) : IsWord p.id := by
  have roles (k : Kind) : ∀ spec ∈ k.inputs ++ k.outputs, IsWord spec.role := by
    cases k <;> decide
  rw [ports, inputs, outputs, ← List.map_append] at listed
  obtain ⟨spec, declared, rfl⟩ := List.mem_map.mp listed
  exact isWord_portId n.id (roles n.kind spec declared)

theorem Joins.isWord {nodes : List Node} {c : Connection} {p q : Port} (joins : Joins nodes c p q) :
    IsWord c.source ∧ IsWord c.target := by
  obtain ⟨n, _, source⟩ := mem_outlets.mp joins.source_mem
  obtain ⟨m, _, target⟩ := mem_inlets.mp joins.target_mem
  rw [← joins.source_id, ← joins.target_id]
  exact ⟨Node.isWord_id (List.mem_append_right _ source),
    Node.isWord_id (List.mem_append_left _ target)⟩

/-- A node whose texts are plain words. -/
structure Node.Plain (n : Node) : Prop where
  params : ∀ field ∈ n.params.fields, Document.Plain field.2
  extras : Document.Plain (.object n.extras)

theorem Params.plain_fields {p : Params} (plain : ∀ field ∈ p.fields, Document.Plain field.2) :
    Document.Plain (.object p.fields) := by
  have all (k : Kind) : (k.defaults 0).fieldNames.Nodup ∧
      ∀ name ∈ (k.defaults 0).fieldNames, IsWord name := by
    cases k <;> decide
  obtain ⟨distinct, words⟩ := all p.kind
  exact .named _ (fieldNames_eq p) distinct words plain

namespace Graph

theorem plain_nodeValue {n : Node} (plain : n.Plain) : Document.Plain (nodeValue n) := by
  have kind : IsWord n.kind.name := by cases n.kind <;> decide
  have first : ∀ field ∈ [("id", Value.int n.id), ("kind", .text n.kind.name), ("x", .float n.x),
      ("y", .float n.y), ("params", .object n.params.fields)], Document.Plain field.2 := by
    simp only [List.forall_mem_cons, List.not_mem_nil, false_implies, implies_true, and_true]
    exact ⟨.int _, .text kind, .float _, .float _, Params.plain_fields plain.params⟩
  unfold nodeValue
  cases n.extras.isEmpty with
  | true => exact .named ["id", "kind", "x", "y", "params"] rfl (by decide) (by decide) first
  | false =>
    exact .named ["id", "kind", "x", "y", "params", "extra_params"] rfl (by decide) (by decide)
      (List.forall_mem_append.mpr ⟨first, List.forall_mem_singleton.mpr plain.extras⟩)

theorem plain_connectionValue {nodes : List Node} {c : Connection} {p q : Port}
    (joins : Joins nodes c p q) : Document.Plain (connectionValue c) :=
  .named ["from", "to"] rfl (by decide) (by decide) (List.forall_mem_cons.mpr
    ⟨.text joins.isWord.1, List.forall_mem_singleton.mpr (.text joins.isWord.2)⟩)

/-- A well-formed graph whose texts are plain words is plain data. -/
theorem Sound.plain_toValue {g : Graph} (sound : g.Sound) (plain : ∀ n ∈ g.nodes, n.Plain) :
    Document.Plain g.toValue := by
  have nodes : Document.Plain (.list (g.nodes.map nodeValue)) :=
    .list (List.forall_mem_map.mpr fun n member => plain_nodeValue (plain n member))
  have connections : Document.Plain (.list (g.connections.map connectionValue)) := by
    refine .list (List.forall_mem_map.mpr fun c member => ?_)
    obtain ⟨_, _, joins⟩ := sound.joined c member
    exact plain_connectionValue joins
  refine .named ["schema_version", "next_node_id", "nodes", "connections"] rfl (by decide)
    (by decide) ?_
  simp only [List.forall_mem_cons, List.not_mem_nil, false_implies, implies_true, and_true]
  exact ⟨.text (by decide), .int _, nodes, connections⟩

end Graph

/-! ## 4. What JSON keeps as it is -/

namespace Document

/-- A double that stands somewhere in data. -/
inductive Holds (x : Float) : Value → Prop
  | here : Holds x (.float x)
  | item {items : List Value} {item : Value} : item ∈ items → Holds x item →
      Holds x (.list items)
  | field {fields : Fields} {field : String × Value} : field ∈ fields → Holds x field.2 →
      Holds x (.object fields)

theorem wordOf_eq_iff {x : Float} : wordOf x = .float x ↔ isFinite x = true := by
  unfold wordOf
  split <;> simp_all

theorem worded_list_eq_iff {items : List Value} :
    worded (.list items) = .list items ↔ ∀ item ∈ items, worded item = item := by
  rw [worded, wordedItems_eq, Value.list.injEq]
  exact (iff_of_eq (congrArg _ (List.map_id items).symm)).trans List.map_inj_left

theorem worded_object_eq_iff {fields : Fields} :
    worded (.object fields) = .object fields ↔ ∀ field ∈ fields, worded field.2 = field.2 := by
  rw [worded, wordedFields_eq, Value.object.injEq]
  refine (iff_of_eq (congrArg _ (List.map_id fields).symm)).trans (List.map_inj_left.trans ?_)
  exact forall₂_congr fun field _ => Prod.ext_iff.trans (and_iff_right rfl)

/-- JSON keeps data as it is exactly if all its doubles are finite. -/
theorem Plain.worded_eq_iff {v : Value} (plain : Plain v) :
    worded v = v ↔ ∀ x, Holds x v → isFinite x = true := by
  induction plain with
  | null | bool _ | int _ | text _ => exact iff_of_true rfl nofun
  | float x =>
    refine wordOf_eq_iff.trans ⟨?_, fun all => all x .here⟩
    rintro finite _ ⟨⟩
    exact finite
  | @list items _ ih =>
    rw [worded_list_eq_iff]
    constructor
    · rintro same x (_ | ⟨listed, held⟩)
      exact (ih _ listed).mp (same _ listed) x held
    · exact fun all item listed => (ih item listed).mpr fun x held => all x (.item listed held)
  | @object fields _ _ _ ih =>
    rw [worded_object_eq_iff]
    constructor
    · rintro same x (_ | _ | ⟨listed, held⟩)
      exact (ih _ listed).mp (same _ listed) x held
    · exact fun all field listed => (ih field listed).mpr fun x held => all x (.field listed held)

end Document

namespace Graph

theorem nodeValue_worded_eq_iff {n : Node} :
    nodeValue n.worded = nodeValue n ↔ Document.worded (.object n.extras) = .object n.extras := by
  rw [Document.worded, Value.object.injEq]
  constructor
  · intro same
    have entries := congrArg (·.entryOr "extra_params" .null) same
    rw [entryOr_extras, entryOr_extras] at entries
    have fields := congrArg (·.asFields .missingPart) (Except.ok.inj entries)
    rw [asFields_extras, asFields_extras] at fields
    exact Except.ok.inj fields
  · intro same
    have unchanged : n.worded = n := by rw [Node.worded, same]
    rw [unchanged]

theorem toValue_worded_eq_iff {g : Graph} :
    g.worded.toValue = g.toValue ↔ ∀ n ∈ g.nodes, nodeValue n.worded = nodeValue n := by
  constructor
  · intro same
    have entries := congrArg (·.entryOr "nodes" .null) same
    have lists : g.worded.nodes.map nodeValue = g.nodes.map nodeValue :=
      Value.list.inj (Except.ok.inj entries)
    rw [worded, List.map_map] at lists
    exact List.map_inj_left.mp lists
  · intro same
    have lists : g.worded.nodes.map nodeValue = g.nodes.map nodeValue := by
      rw [worded, List.map_map]
      exact List.map_congr_left same
    rw [toValue, lists]
    rfl

/-! ## 5. Files -/

/-- The graph of a file. -/
def ofFile (files : Files) (path : String) (seed : Int) : Except Error Graph := do
  ofValue (← Settings.openFile files path) seed

/-- A text in a file is loaded as the graph of its data. -/
theorem exists_written {files : Files} {path text : String} {config : Value}
    (directory : files.hasDirectory (Path.directory path) = true)
    (read : Document.ofText text = .ok config) (seed : Int) : ∃ files',
      files.write path text = .ok files' ∧ ofFile files' path seed = ofValue config seed := by
  have written : files.write path text = .ok _ := if_pos directory
  have opened : Settings.openFile _ path = .ok config :=
    Except.bind_eq_ok.mpr ⟨text, Files.read_write written, read⟩
  exact ⟨_, written, by rw [ofFile, opened]; rfl⟩

section Saved

variable {g : Graph} (stored : g.Stored) (plain : ∀ n ∈ g.nodes, n.Plain) {files : Files}
  {path : String} (directory : files.hasDirectory (Path.directory path) = true) (seed : Int)

include stored plain directory

/-- A file in block layout is loaded as the graph that was saved in it. -/
theorem Stored.ofFile_block : ∃ files', files.write path (Document.block g.toValue) = .ok files' ∧
    (ofFile files' path seed).map toValue = .ok g.toValue := by
  obtain ⟨files', written, loaded⟩ :=
    exists_written directory (stored.plain_toValue plain).ofText_block seed
  exact ⟨files', written, loaded ▸ (stored.map_toValue_ofValue seed).1⟩

/-- A JSON file is loaded as the graph that was saved in it, with the further fields that JSON
keeps. -/
theorem Stored.ofFile_json : ∃ files', files.write path (Json.indented 0 g.toValue) = .ok files' ∧
    (ofFile files' path seed).map toValue = .ok g.worded.toValue := by
  obtain ⟨files', written, loaded⟩ :=
    exists_written directory (stored.plain_toValue plain).ofText_indented seed
  exact ⟨files', written, loaded ▸ (stored.map_toValue_ofValue seed).2⟩

end Saved

/-- A graph whose texts are plain words, saved in block layout, is loaded as the same data. Saved as
JSON, it is loaded with the same nodes, parameters, coordinates and connections, and with further
fields in which the doubles that are not finite have become the texts of their names. So it is
loaded as the same data exactly if the further fields of its nodes hold finite doubles only. -/
theorem Reachable.ofFile_toValue {g : Graph} (reachable : g.Reachable)
    (plain : ∀ n ∈ g.nodes, n.Plain) {files : Files} {path : String}
    (directory : files.hasDirectory (Path.directory path) = true) (seed : Int) :
    (∃ files', files.write path (Document.block g.toValue) = .ok files' ∧
      (ofFile files' path seed).map toValue = .ok g.toValue) ∧
    (∃ files', files.write path (Json.indented 0 g.toValue) = .ok files' ∧
      (ofFile files' path seed).map toValue = .ok g.worded.toValue) ∧
    (g.worded.toValue = g.toValue ↔
      ∀ n ∈ g.nodes, ∀ x, Document.Holds x (.object n.extras) → isFinite x = true) := by
  have stored := reachable.stored
  refine ⟨stored.ofFile_block plain directory seed, stored.ofFile_json plain directory seed, ?_⟩
  rw [toValue_worded_eq_iff]
  exact forall₂_congr fun n member =>
    nodeValue_worded_eq_iff.trans (plain n member).extras.worded_eq_iff

/-- A connected pair with remarks on its second node, among them bounds that are not finite. -/
def boundedPair : Graph :=
  (Mutation.update 2 [("note", .text "height"),
    ("bounds", .list [.float (-infinity), .float infinity])]).apply connectedPair

theorem boundedPair_built : boundedPair.Built :=
  .mutate _ connectedPair_built

theorem boundedPair_nodes : boundedPair.nodes = [⟨1, .position, 0, 0, []⟩, ⟨2, .abs, 9, 0,
    [("note", .text "height"), ("bounds", .list [.float (-infinity), .float infinity])]⟩] := by
  with_unfolding_all rfl

theorem boundedPair_plain : ∀ n ∈ boundedPair.nodes, n.Plain := by
  have bounds : Document.Plain (.list [.float (-infinity), .float infinity]) :=
    .list (by simp only [List.forall_mem_cons]; exact ⟨.float _, .float _, nofun⟩)
  rw [boundedPair_nodes]
  refine List.forall_mem_cons.mpr ⟨⟨nofun, .named [] rfl (by decide) nofun nofun⟩, ?_⟩
  refine List.forall_mem_singleton.mpr ⟨nofun, ?_⟩
  exact .named ["note", "bounds"] rfl (by decide) (by decide)
    (List.forall_mem_cons.mpr ⟨.text (by decide), List.forall_mem_singleton.mpr bounds⟩)

theorem boundedPair_ofFile_toValue :
    boundedPair.Reachable ∧ (∀ n ∈ boundedPair.nodes, n.Plain) ∧
    Files.hasDirectory ⟨[], ["maps"]⟩ (Path.directory "maps/pair") = true ∧
    (∃ files', Files.write ⟨[], ["maps"]⟩ "maps/pair" (Document.block boundedPair.toValue) =
        .ok files' ∧
      (ofFile files' "maps/pair" 0).map toValue = .ok boundedPair.toValue) ∧
    (∃ files', Files.write ⟨[], ["maps"]⟩ "maps/pair" (Json.indented 0 boundedPair.toValue) =
        .ok files' ∧
      (ofFile files' "maps/pair" 0).map toValue = .ok boundedPair.worded.toValue) ∧
    (boundedPair.worded.toValue = boundedPair.toValue ↔
      ∀ n ∈ boundedPair.nodes, ∀ x, Document.Holds x (.object n.extras) → isFinite x = true) :=
  have directory : Files.hasDirectory ⟨[], ["maps"]⟩ (Path.directory "maps/pair") = true := by
    decide +kernel
  ⟨boundedPair_built.reachable, boundedPair_plain, directory,
    boundedPair_built.reachable.ofFile_toValue boundedPair_plain directory 0⟩

/-- A graph with bounds that are not finite is not loaded from JSON as the same data, so that not
both forms of a file give back every graph that was built. -/
theorem boundedPair_reworded : ¬ ∀ g : Graph, g.Built → (∀ n ∈ g.nodes, n.Plain) →
    ∀ files path seed, Files.hasDirectory files (Path.directory path) = true →
      (∃ files', files.write path (Document.block g.toValue) = .ok files' ∧
        (ofFile files' path seed).map toValue = .ok g.toValue) ∧
      (∃ files', files.write path (Json.indented 0 g.toValue) = .ok files' ∧
        (ofFile files' path seed).map toValue = .ok g.toValue) := by
  intro all
  have directory : Files.hasDirectory ⟨[], []⟩ (Path.directory "pair") = true := by decide +kernel
  obtain ⟨-, files', written, same⟩ :=
    all boundedPair boundedPair_built boundedPair_plain ⟨[], []⟩ "pair" 0 directory
  obtain ⟨files'', rewritten, reworded⟩ :=
    boundedPair_built.reachable.stored.ofFile_json boundedPair_plain directory 0
  rw [written] at rewritten
  cases rewritten
  rw [same] at reworded
  have kept := toValue_worded_eq_iff.mp (Except.ok.inj reworded).symm
  rw [boundedPair_nodes] at kept
  have last := nodeValue_worded_eq_iff.mp (kept _ (List.mem_cons_of_mem _ List.mem_cons_self))
  have bounds := worded_object_eq_iff.mp last _ (List.mem_cons_of_mem _ List.mem_cons_self)
  have first := worded_list_eq_iff.mp bounds _ List.mem_cons_self
  exact absurd (wordOf_eq_iff.mp first) (by decide +kernel)

end Graph

end Landform
