import Landform.Proofs.Graph.Loading
import Landform.Proofs.Graph.Saved
import Landform.Proofs.Graph.Versions
import Landform.Proofs.Lua.Parsed
import Landform.Proofs.Script.Closed

/-!
# Names that are identifiers

A script makes up names for noise fields, from the ids of their nodes, and for contents, from the
names of terrains and, where these collide, from ids as well. Whatever a terrain is called, its name
gives a word; but the sign of a negative id is no part of a word, so that Lua takes such a name
apart. The body of a script uses registered fields and declared locals only, so that it is enough to
look at those.

Mutations count ids from one. Negative ones come from data, which is taken over as it is listed.

1. `IsIdentifier`, `isIdentifier_noiseName`: what Lua reads as one name.
2. `Script.coined`, `accounted_of_coined`: the names that a script makes up.
3. `Coined`, `coined_of_ofGraph`: which of them are identifiers.
4. `ids_listed`, `coined_of_ofValue`: graphs that come from data.
-/

namespace Landform

namespace Lua

open Decimal

/-! ## 1. Identifiers -/

/-- A text that Lua reads as one name: it starts with a letter or an underscore, goes on with
letters, digits and underscores, and is the only token that is cut from it. -/
structure IsIdentifier (w : String) : Prop where
  form : ∃ c rest, w.toList = c :: rest ∧ isNameChar c = true ∧ c.isDigit = false ∧
    rest.all isNameChar = true
  token : tokens? w = some [.word w]

theorem Name.isIdentifier {w : String} (name : Name w.toList) : IsIdentifier w := by
  refine ⟨?_, name.lexes_toList.tokens?_eq⟩
  have letters := name.letters
  have start := name.start
  generalize w.toList = text at letters start
  cases text with
  | nil => cases start
  | cons c rest =>
    rw [List.all_cons, Bool.and_eq_true] at letters
    exact ⟨c, rest, rfl, letters.1, by simpa using start, letters.2⟩

theorem IsIdentifier.letters {w : String} (identifier : IsIdentifier w) :
    ∀ c ∈ w.toList, isNameChar c = true := by
  obtain ⟨c, rest, text, letter, _, letters⟩ := identifier.form
  rw [text]
  exact List.forall_mem_cons.mpr ⟨letter, List.all_eq_true.mp letters⟩

/-- The name of a noise field is an identifier exactly when the id of its node has no sign. -/
theorem isIdentifier_noiseName {node : Int} : IsIdentifier (noiseName node) ↔ 0 ≤ node := by
  constructor
  · intro identifier
    by_contra negative
    have sign : '-' ∈ (noiseName node).toList := by
      rw [noiseName, String.toList_append]
      exact List.mem_append_right _ (minus_mem_integerText.mpr (Int.not_le.mp negative))
    exact absurd (identifier.letters _ sign) (by decide)
  · exact fun natural => (name_noiseName natural).isIdentifier

/-! ## 2. Names that a script makes up -/

mutual

/-- The noise fields and the locals that an expression reads, by name. -/
def Expr.coined : Expr → List String
  | .noise node => [noiseName node]
  | .name slot => [slot]
  | .group inner => inner.coined
  | .square base => base.coined
  | .binary _ left right => left.coined ++ right.coined
  | .call _ arguments => coinedAll arguments
  | .number _ | .integer _ | .coordinate _ => []

/-- The noise fields and the locals that expressions read, by name. -/
def coinedAll : List Expr → List String
  | [] => []
  | e :: rest => e.coined ++ coinedAll rest

end

/-- The noise fields and the locals that a decision reads, by name. -/
def Decision.coined : Decision → List String
  | assign content => content.coined
  | choose _ left _ right ifTrue ifFalse =>
    left.coined ++ right.coined ++ ifTrue.coined ++ ifFalse.coined

theorem forall_mem_coinedAll {good : String → Prop} {items : List Expr} :
    (∀ w ∈ coinedAll items, good w) ↔ ∀ e ∈ items, ∀ w ∈ e.coined, good w := by
  induction items with
  | nil => simp [coinedAll]
  | cons e rest ih => rw [coinedAll, List.forall_mem_append, List.forall_mem_cons, ih]

end Lua

namespace Script

open Landform.Graph Lua Decimal

/-- The noise fields that a body reads and the locals that it reads or assigns, by name. -/
def Body.coined : Body → List String
  | .keep => []
  | .decide decision => decision.coined
  | .height level stone => level.coined ++ ["c_water", stone]

end Script

/-- The names that a script makes up: the noise fields that it registers, the locals that it
declares, and what its body uses. -/
def Script.coined (s : Script) : List String :=
  s.registrations.map (fun r => Lua.noiseName r.node) ++ s.contents.map (·.1) ++ s.body.coined

namespace Script

open Landform.Graph Lua Decimal

theorem composes_coined {good : String → Prop} :
    Composes fun e => ∀ w ∈ e.coined, good w where
  number x := by simp [Expr.coined]
  integer n := by simp [Expr.coined]
  coordinate axis := by simp [Expr.coined]
  group ofInner := by
    rw [Expr.coined]
    exact ofInner
  square ofBase := by
    rw [Expr.coined]
    exact ofBase
  binary ofLeft ofRight := by
    rw [Expr.coined]
    exact List.forall_mem_append.mpr ⟨ofLeft, ofRight⟩
  call _ each := by
    rw [Expr.coined]
    exact forall_mem_coinedAll.mpr each

theorem coined_of_each {good : String → Prop} {d : Decision}
    (each : d.Each fun e => ∀ w ∈ e.coined, good w) : ∀ w ∈ d.coined, good w := by
  induction d with
  | assign content => exact each
  | choose node left test right ifTrue ifFalse ihTrue ihFalse =>
    obtain ⟨ofLeft, ofRight, ofTrue, ofFalse⟩ := each
    unfold Decision.coined
    simp only [List.forall_mem_append]
    exact ⟨⟨⟨ofLeft, ofRight⟩, ihTrue ofTrue⟩, ihFalse ofFalse⟩

/-- A name is that of a registered noise field or of a declared content. -/
def Accounted (s : Script) (w : String) : Prop :=
  (∃ r ∈ s.registrations, w = noiseName r.node) ∨ ∃ name, (w, name) ∈ s.contents

section Script

variable {g : Graph} (sound : g.Sound) {options : Options} {s : Script}
  (made : ofGraph g options = .ok s)

include sound made

/-- A node brings into expressions its own noise field and its own content. -/
theorem brings_accounted {n : Node} (member : n ∈ g.nodes) :
    Brings (fun e => ∀ w ∈ e.coined, Accounted s w) n
      (.name (contentsOf (assignment g).slots n)) where
  noise registered := by
    obtain ⟨r, found⟩ := Option.isSome_iff_exists.mp registered
    have listed : r ∈ s.registrations := by
      rw [(parts_of_ofGraph made).1]
      exact List.mem_filterMap.mpr ⟨n, member, found⟩
    rw [Expr.coined]
    exact List.forall_mem_singleton.mpr (.inl ⟨r, listed, by rw [node_of_registration? found]⟩)
  content t params := by
    rw [Expr.coined]
    exact List.forall_mem_singleton.mpr
      (.inr ⟨_, (binds_ofGraph sound.ids_distinct made).terrain n member t params⟩)
  helper h arguments _ each := by
    rw [Expr.coined]
    exact forall_mem_coinedAll.mpr each

/-- The body of a script uses what is registered or declared before it. -/
theorem accounted_of_coined : ∀ w ∈ s.body.coined, Accounted s w := by
  obtain ⟨body, declared, given, each⟩ := bodyOf_makes sound (assignment g)
    (fun n member => rule_makes composes_coined (brings_accounted sound made member))
    (composes_coined.integer 0) (fun _ => id) composes_coined.number
  have same : s.body = body :=
    (Prod.mk.inj (Except.ok.inj ((contents_eq made).2.symm.trans given))).1
  have binds := binds_ofGraph sound.ids_distinct made
  rw [← same] at each
  cases shape : s.body with
  | keep => exact fun w none => absurd none List.not_mem_nil
  | decide decision =>
    rw [shape] at each
    exact coined_of_each each
  | height level stone =>
    rw [shape] at each
    refine List.forall_mem_append.mpr ⟨each, List.forall_mem_cons.mpr ⟨.inr ⟨_, binds.water⟩,
      List.forall_mem_singleton.mpr (.inr ⟨_, binds.stone level stone shape⟩)⟩⟩

end Script

/-! ## 3. Names that are identifiers -/

/-- Which of the names that a script makes up are identifiers. -/
structure Coined (g : Graph) (s : Script) : Prop where
  /-- The registered noise fields are those of nodes, and the name of each is an identifier exactly
  when the id has no sign. -/
  noise : ∀ r ∈ s.registrations, r.node ∈ g.ids ∧ (IsIdentifier (noiseName r.node) ↔ 0 ≤ r.node)
  /-- The declared locals are identifiers, whatever terrains are called. -/
  contents : (∀ n ∈ g.nodes, ∀ t, n.params = .terrainType t → 0 ≤ n.id) →
    ∀ c ∈ s.contents, IsIdentifier c.1
  body : ∀ w ∈ s.body.coined, Accounted s w
  identifiers : (∀ n ∈ g.nodes, 0 ≤ n.id) → ∀ w ∈ s.coined, IsIdentifier w

theorem coined_of_ofGraph {g : Graph} (sound : g.Sound) {options : Options} {s : Script}
    (made : ofGraph g options = .ok s) : Coined g s := by
  have noise : ∀ r ∈ s.registrations, r.node ∈ g.ids := by
    intro r listed
    rw [(parts_of_ofGraph made).1] at listed
    obtain ⟨n, member, found⟩ := List.mem_filterMap.mp listed
    rw [node_of_registration? found]
    exact List.mem_map_of_mem member
  have contents : (∀ n ∈ g.nodes, ∀ t, n.params = .terrainType t → 0 ≤ n.id) →
      ∀ c ∈ s.contents, IsIdentifier c.1 :=
    fun natural c listed => (isContentLocal_of_terrains made natural c listed).name.isIdentifier
  have body := accounted_of_coined sound made
  refine ⟨fun r listed => ⟨noise r listed, isIdentifier_noiseName⟩, contents, body, ?_⟩
  intro natural
  have fields : ∀ r ∈ s.registrations, IsIdentifier (noiseName r.node) := by
    intro r listed
    obtain ⟨n, member, same⟩ := List.mem_map.mp (noise r listed)
    exact isIdentifier_noiseName.mpr (same ▸ natural n member)
  have locals := contents fun n member _ _ => natural n member
  unfold coined
  rw [List.forall_mem_append, List.forall_mem_append, List.forall_mem_map, List.forall_mem_map]
  refine ⟨⟨fields, locals⟩, fun w used => ?_⟩
  rcases body w used with ⟨r, listed, rfl⟩ | ⟨name, listed⟩
  · exact fields r listed
  · exact locals _ listed

end Script

namespace Graph

open Script Lua

/-! ## 4. Graphs from data -/

/-- Mutations give no node an id with a sign. -/
theorem Stored.mem_ids_of_neg {g g' : Graph} (stored : g.Stored) (changed : g.Changed g') {id : Int}
    (member : id ∈ g'.ids) (negative : id < 0) : id ∈ g.ids := by
  obtain ⟨n, listed, rfl⟩ := List.mem_map.mp member
  cases changed with
  | unchanged | connected | disconnected => exact List.mem_map_of_mem listed
  | added made _ =>
    rcases List.mem_append.mp listed with old | new
    · exact List.mem_map_of_mem old
    · rw [List.mem_singleton.mp new, (Node.create_eq_ok made).1] at negative
      exact absurd stored.next_pos (Int.lt_asymm negative)
  | removed _ => exact List.mem_map_of_mem (List.mem_filter.mp listed).1
  | updated found made _ =>
    obtain ⟨m, old, same⟩ := List.mem_map.mp listed
    split at same
    · subst same
      rw [(Node.update_keeps made).1]
      exact List.mem_map_of_mem (stored.node?_iff.mp found).1
    · exact same ▸ List.mem_map_of_mem old
  | cleared => exact absurd listed List.not_mem_nil

theorem Stored.mem_ids_of_mutations {g : Graph} (stored : g.Stored) (mutations : List Mutation)
    {id : Int} (member : id ∈ (mutations.foldl Mutation.apply g).ids) (negative : id < 0) :
    id ∈ g.ids := by
  induction mutations generalizing g with
  | nil => exact member
  | cons m rest ih =>
    have changed := changed_apply stored.toSound m
    exact stored.mem_ids_of_neg changed (ih (stored.change changed) member) negative

theorem ids_listed {config : Value} {seed : Int} {g : Graph}
    (loaded : ofValue config seed = .ok g) :
    ∃ listed, listedNodes config = .ok listed ∧ listed.map (·.1) = g.ids := by
  obtain ⟨entries, connections, between, nextId, given, _, _, read, loading, done⟩ :=
    stages_of_ofValue loaded
  obtain ⟨items, listed, nodes⟩ := loadNodes_read read
  obtain ⟨_, _, connecting⟩ :=
    loadConnections_read (loading.sound_unconnected nextId) loading.connections_eq done
  refine ⟨items, Except.bind_eq_ok.mpr ⟨entries, given, listed⟩, ?_⟩
  have same : g.nodes.map listing = items := by
    rw [connecting.nodes_eq]
    exact nodes
  rw [← same, List.map_map]
  rfl

/-- A graph that comes from data, also after mutations, has a script. A noise field of it has an
identifier for a name exactly when its id has no sign; contents have one as long as no terrain has
an id with a sign; and an id with a sign is one that the data lists. -/
theorem coined_of_ofValue {config : Value} {seed : Int} {start : Graph}
    (loaded : ofValue config seed = .ok start) (mutations : List Mutation) {waterLevel : Value}
    {level : String} (number : numberOf waterLevel = .ok level) (header : String) :
    ∃ s, ofGraph (mutations.foldl Mutation.apply start) ⟨waterLevel, .text header⟩ = .ok s ∧
      Coined (mutations.foldl Mutation.apply start) s ∧
      ∀ n ∈ (mutations.foldl Mutation.apply start).nodes, n.id < 0 →
        ∃ listed, listedNodes config = .ok listed ∧ n.id ∈ listed.map (·.1) := by
  have sound := ((Reachable.loaded loaded).run mutations).sound
  obtain ⟨s, made⟩ := exists_script sound number header
  refine ⟨s, made, coined_of_ofGraph sound made, fun n member negative => ?_⟩
  obtain ⟨listed, read, ids⟩ := ids_listed loaded
  refine ⟨listed, read, ?_⟩
  rw [ids]
  exact (stored_of_ofValue loaded).mem_ids_of_mutations mutations (List.mem_map_of_mem member)
    negative

/-- A comparison between two terrains with names that fall together as identifiers; the second one
has the given id. -/
def twins (id : Int) : Value :=
  .object [
    ("nodes", .list [
      .object [("id", .int 1), ("kind", .text "position")],
      .object [("id", .int 2), ("kind", .text "compare")],
      .object [("id", .int 3), ("kind", .text "terrain-type"),
        ("params", .object [("name", .text "rock a")])],
      .object [("id", .int id), ("kind", .text "terrain-type"),
        ("params", .object [("name", .text "Rock A")])],
      .object [("id", .int 5), ("kind", .text "terrain-output")]]),
    ("connections", .list [
      .object [("from", .text "1_outX"), ("to", .text "2_in1")],
      .object [("from", .text "1_outY"), ("to", .text "2_in2")],
      .object [("from", .text "3_out"), ("to", .text "2_useTrue")],
      .object [("from", .text (portId id "out")), ("to", .text "2_useFalse")],
      .object [("from", .text "2_out"), ("to", .text "5_in")]])]

theorem twins_loads (id : Int) (answered : (ofValue (twins id) 0).isOk = true) :
    ∃ g, ofValue (twins id) 0 = .ok g :=
  Except.exists_of_isOk answered

theorem twins_coined_of_ofValue : ∃ start, ofValue (twins 4) 0 = .ok start ∧
    ∃ s, ofGraph ([Mutation.add "abs" (.int 0) (.int 0)].foldl Mutation.apply start)
        Options.default = .ok s ∧
      Coined ([Mutation.add "abs" (.int 0) (.int 0)].foldl Mutation.apply start) s ∧
      ∀ n ∈ ([Mutation.add "abs" (.int 0) (.int 0)].foldl Mutation.apply start).nodes, n.id < 0 →
        ∃ listed, listedNodes (twins 4) = .ok listed ∧ n.id ∈ listed.map (·.1) := by
  obtain ⟨start, loaded⟩ := twins_loads 4 (by decide +kernel)
  obtain ⟨level, number⟩ : ∃ level, numberOf Options.default.waterLevel = .ok level := ⟨_, rfl⟩
  exact ⟨start, loaded, coined_of_ofValue loaded _ number _⟩

/-- With a negative id the second terrain has a local that is three tokens. Validation accepts the
graph, and the script declares the local. -/
theorem twins_split : ∃ g s, ofValue (twins (-4)) 0 = .ok g ∧ g.validate = .ok ⟨[], []⟩ ∧
    ofGraph g Options.default = .ok s ∧ contentLine "c_rock_a_-4" "Rock A" ∈ s.lines.tail ∧
    ¬ IsIdentifier "c_rock_a_-4" ∧
    tokens? "c_rock_a_-4" = some [.word "c_rock_a_", .sign '-', .numeral "4"] := by
  obtain ⟨g, loaded⟩ := twins_loads (-4) (by decide +kernel)
  have sound := (Reachable.loaded loaded).sound
  have clean : (ofValue (twins (-4)) 0).toOption.map (·.findings) = some ⟨[], []⟩ := by
    decide +kernel
  have asked : (ofValue (twins (-4)) 0).toOption.map wishes = some [⟨"c_air", "air", "_1"⟩,
      ⟨"c_water", "default:water_source", "_1"⟩, ⟨"c_rock_a", "rock a", "_3"⟩,
      ⟨"c_rock_a", "Rock A", "_-4"⟩] := by
    decide +kernel
  rw [loaded] at clean asked
  have accepted : g.validate = .ok ⟨[], []⟩ :=
    sound.validate_eq.trans (congrArg Except.ok (Option.some.inj clean))
  obtain ⟨level, number⟩ : ∃ level, numberOf Options.default.waterLevel = .ok level := ⟨_, rfl⟩
  obtain ⟨s, made⟩ := exists_script sound number "-- Luamap generated terrain"
  have declared : ("c_rock_a_-4", "Rock A") ∈ s.contents := by
    have wished : wishes g = _ := Option.some.inj asked
    rw [(contents_eq made).1, wished]
    decide +kernel
  have split : tokens? "c_rock_a_-4" = some [.word "c_rock_a_", .sign '-', .numeral "4"] := by
    decide +kernel
  refine ⟨g, s, loaded, accepted, made, contentLine_mem declared, fun identifier => ?_, split⟩
  exact absurd (split.symm.trans identifier.token) (by decide)

end Graph

end Landform
