import Landform.Proofs.Graph.Building
import Landform.Proofs.Script.Complete
import Landform.Proofs.Script.Bodies
import Landform.Proofs.Script.Registrations
import Landform.Proofs.Script.Words

/-!
# Scripts are closed

The function of a script names noise fields, helpers and locals. Which ones is found by following
the connections back from the terrain output, while the preamble is made from the list of all nodes:
the two meet in that every node brings only its own noise field, content and helper into an
expression. So each name in the function is declared by the preamble, and declared once.

1. `Supported`, `supported_of_uses`: the words of the function.
2. `oneLine_tail`: lines are lines.
3. `Closed`, `Graph.Built.script_closed`: what the words of the function are declared by.
-/

namespace Landform

namespace Script

open Landform.Graph Lua Decimal Text

/-! ## 1. The words of the function -/

/-- A word of the function of a script. -/
def Uses (s : Script) (w : String) : Prop :=
  ∃ line ∈ s.logic, w ∈ words line.toList

instance (s : Script) (w : String) : Decidable (Uses s w) :=
  inferInstanceAs (Decidable (∃ line ∈ s.logic, w ∈ words line.toList))

/-- The words that the preamble of the script of a graph accounts for. -/
inductive Supported (g : Graph) (s : Script) : String → Prop
  | common {w : String} : isCommon w = true → w ≠ "c_water" → Supported g s w
  | noise {n : Node} {r : Registration} : n ∈ g.nodes → registration? n = some r →
      Supported g s (noiseName n.id)
  | content {slot name : String} : (slot, name) ∈ s.contents → Supported g s slot
  | helper {h : Helper} : h ∈ s.helpers → Supported g s h.name

/-- The common words that have an underscore. -/
theorem mem_of_isCommon {w : String} (common : isCommon w = true) (underscore : '_' ∈ w.toList) :
    w ∈ ["noise_vals", "original_content", "old_logic", "c_water"] := by
  simpa [isCommon, underscore] using common

theorem underscore_notMem_helper (h : Helper) : '_' ∉ h.name.toList := by
  cases h <;> decide

namespace Supported

variable {g : Graph} {s : Script} {w : String}

/-- The name of a noise field is that of a node. -/
theorem noise_of_begun (supported : Supported g s w)
    (locals : Locals.All IsContentLocal s.contents) (begun : "noise_".toList <+: w.toList)
    (other : w ≠ "noise_vals") :
    ∃ n ∈ g.nodes, ∃ r, w = noiseName n.id ∧ registration? n = some r := by
  have underscore : '_' ∈ w.toList := begun.mem (by decide)
  cases supported with
  | common common _ =>
    have listed := mem_of_isCommon common underscore
    fin_cases listed
    · exact absurd rfl other
    all_goals exact absurd begun (by decide)
  | noise member found => exact ⟨_, member, _, rfl, found⟩
  | content listed =>
    obtain ⟨rest, text, _⟩ := locals _ listed
    rw [text] at begun
    exact absurd (List.cons_prefix_cons.mp begun).1 (by decide)
  | helper _ => exact absurd underscore (underscore_notMem_helper _)

/-- The name of a helper is that of a helper of the script. -/
theorem helper_mem {h : Helper} (supported : Supported g s h.name)
    (locals : Locals.All IsContentLocal s.contents) : h ∈ s.helpers := by
  have plain := underscore_notMem_helper h
  generalize named : h.name = w at supported plain
  cases supported with
  | common common _ => cases h <;> (subst named; exact absurd common (by decide))
  | noise _ _ => exact absurd (by simp [noiseName]) plain
  | content listed =>
    obtain ⟨rest, text, _⟩ := locals _ listed
    exact absurd (by simp [text]) plain
  | @helper other listed =>
    have same : h = other := by
      cases h <;> cases other <;> first | rfl | exact absurd named (by decide)
    exact same ▸ listed

/-- The name of a local is one that is declared. -/
theorem content_of_begun (supported : Supported g s w) (begun : "c_".toList <+: w.toList) :
    ∃ name, (w, name) ∈ s.contents := by
  have underscore : '_' ∈ w.toList := begun.mem (by decide)
  cases supported with
  | common common other =>
    have listed := mem_of_isCommon common underscore
    fin_cases listed
    · exact absurd begun (by decide)
    · exact absurd begun (by decide)
    · exact absurd begun (by decide)
    · exact absurd rfl other
  | noise _ _ =>
    rw [noiseName, String.toList_append] at begun
    exact absurd (List.cons_prefix_cons.mp begun).1 (by decide)
  | content listed => exact ⟨_, listed⟩
  | helper _ => exact absurd underscore (underscore_notMem_helper _)

end Supported

/-- What a script has from its graph and from the options. -/
theorem parts_of_ofGraph {g : Graph} {options : Options} {s : Script}
    (made : ofGraph g options = .ok s) :
    s.registrations = g.nodes.filterMap registration? ∧ s.helpers = helpersOf g ∧
      numberOf options.waterLevel = .ok s.waterLevel ∧
      headerText options.header = .ok s.header := by
  obtain ⟨⟨body, declared⟩, _, made⟩ := Except.bind_eq_ok.mp made
  obtain ⟨level, number, made⟩ := Except.bind_eq_ok.mp made
  obtain ⟨header, text, made⟩ := Except.bind_eq_ok.mp made
  cases made
  exact ⟨rfl, rfl, number, text⟩

section Script

variable {g : Graph} (sound : g.Sound) (natural : ∀ n ∈ g.nodes, 0 ≤ n.id) {options : Options}
  {s : Script} (made : ofGraph g options = .ok s)

include sound made

theorem supported_of_common : ∀ w, isCommon w = true → Supported g s w := by
  intro w common
  by_cases water : w = "c_water"
  · exact water ▸ .content (binds_ofGraph sound.ids_distinct made).water
  · exact .common common water

include natural

omit sound in
theorem speaks_slot {slot name : String} (listed : (slot, name) ∈ s.contents) :
    Speaks (Supported g s) slot := by
  obtain ⟨rest, text, letters⟩ := isContentLocal_contents made natural _ listed
  have all : slot.toList.all isWordMember = true := by
    rw [text]
    simp only [List.all_cons, Bool.and_eq_true]
    exact ⟨by decide, by decide, List.all_eq_true.mpr fun c member =>
      isWordMember_of_isIdentifierChar (List.all_eq_true.mp letters c member)⟩
  exact .word all (by simp [text]) (.content listed)

/-- A node brings nothing into an expression but what the preamble accounts for. -/
theorem brings_supported {n : Node} (member : n ∈ g.nodes) :
    Brings (fun e => Speaks (Supported g s) e.render) n
      (.name (contentsOf (assignment g).slots n)) where
  noise registered := by
    obtain ⟨r, found⟩ := Option.isSome_iff_exists.mp registered
    have table : Speaks (Supported g s) "noise_vals." :=
      speaks_of_common (supported_of_common sound made) (by decide)
    have all : (noiseName n.id).toList.all isWordMember = true := by
      have digits : ∀ c ∈ natDigits n.id.natAbs, isWordMember c = true := fun c listed =>
        isWordMember_of_isDigit (isDigit_of_mem_natDigits listed)
      rw [noiseName, String.toList_append, toList_integerText,
        if_neg (Int.not_lt.mpr (natural n member)), List.nil_append, List.all_append,
        List.all_eq_true.mpr digits]
      decide
    rw [Expr.render]
    exact table.append_of_ended (.word all (by simp [noiseName]) (.noise member found)) (by decide)
  content t params := by
    rw [Expr.render]
    exact speaks_slot natural made
      ((binds_ofGraph sound.ids_distinct made).terrain n member t params)
  helper h arguments kind each := by
    have listed : h ∈ s.helpers := by
      rw [(parts_of_ofGraph made).2.1, helpersOf, List.mem_eraseDups]
      exact List.mem_filterMap.mpr ⟨n, member, kind⟩
    have name : Speaks (Supported g s) h.function.name := by
      cases h <;> exact .word (by decide) (by decide) (.helper listed)
    exact speaks_call (supported_of_common sound made) name each

/-- Whatever the function of a script uses is accounted for. -/
theorem supported_of_uses {w : String} (uses : Uses s w) : Supported g s w := by
  have common := supported_of_common sound made
  have composes := composes_speaks common
  obtain ⟨body, declared, given, each⟩ := bodyOf_makes sound (assignment g)
    (fun n member => rule_makes composes (brings_supported sound natural made member))
    (composes.integer 0) (fun _ => id) composes.number
  have same : s.body = body :=
    (Prod.mk.inj (Except.ok.inj ((contents_eq made).2.symm.trans given))).1
  have inside : ∀ line ∈ s.body.lines, Speaks (Supported g s) line := by
    refine speaks_body common (same ▸ each) fun level slot height => ?_
    exact speaks_slot natural made
      ((binds_ofGraph sound.ids_distinct made).stone level slot height)
  have opens : ∀ line ∈ ["function luamap.logic(noise_vals, x, y, z, seed, original_content)",
      indented 1 "-- Get any terrain defined in another mod",
      indented 1 "local content = old_logic(noise_vals, x, y, z, seed, original_content)", ""],
      (words line.toList).all isCommon = true := by decide +kernel
  have closes : ∀ line ∈ [indented 1 "return content", "end", ""],
      (words line.toList).all isCommon = true := by decide +kernel
  obtain ⟨line, listed, spoken⟩ := uses
  refine (?_ : ∀ line ∈ s.logic, Speaks (Supported g s) line) line listed w spoken
  exact List.forall_mem_append.mpr ⟨List.forall_mem_append.mpr
    ⟨fun line listed => speaks_of_common common (opens line listed), inside⟩,
    fun line listed => speaks_of_common common (closes line listed)⟩

omit natural

/-! ## 2. Lines -/

omit sound made in
theorem neutral_numberOf {value : Value} {text : String} (number : numberOf value = .ok text) :
    Neutral text.toList := by
  unfold numberOf at number
  split at number
  · next b =>
    cases number
    cases b <;> exact ⟨.of_all (by decide), by decide⟩
  · cases float : value.toFloat with
    | error cause =>
      rw [float] at number
      cases number
    | ok x =>
      rw [float] at number
      cases number
      exact neutral_number x

/-- Whatever the header is, every other line of a script is one line of its text. -/
theorem oneLine_tail : ∀ line ∈ s.lines.tail, '\n' ∉ line.toList := by
  obtain ⟨body, declared, given, locals, reads⟩ := bodyOf_ok sound
  obtain ⟨rfl, rfl⟩ := Prod.mk.inj (Except.ok.inj ((contents_eq made).2.symm.trans given))
  have neat : Script.Neat { s with header := "" } :=
    ⟨tallied_empty, fun c listed => (locals c listed).toNeutral,
      neutral_numberOf (parts_of_ofGraph made).2.2.1, reads⟩
  rw [tail_lines]
  exact fun line listed => neat.tallied_lines.oneLine line (lines_eq _ ▸ .tail _ listed)

end Script

/-! ## 3. Declarations -/

/-- Whatever the function of a script uses is declared before it, exactly once: each noise field by
a block that gives the settings of its node, each helper by its definition, and each content by a
line that fetches a name. The header, which may be any text, does not count. -/
structure Closed (g : Graph) (s : Script) : Prop where
  split : s.lines = s.header :: (s.preamble ++ s.logic)
  oneLine : ∀ line ∈ s.lines.tail, '\n' ∉ line.toList
  opens : s.logic.head? =
    some "function luamap.logic(noise_vals, x, y, z, seed, original_content)"
  noise : ∀ w, Uses s w → "noise_".toList <+: w.toList → w ≠ "noise_vals" →
    ∃ n ∈ g.nodes, w = "noise_" ++ integerText n.id ∧
      (∃ block, Registered n block ∧ block <:+: s.preamble) ∧
      s.lines.tail.countP (begins ("luamap.register_noise(\"" ++ w ++ "\"")) = 1
  helper : ∀ h : Helper, Uses s h.name →
    h.lines <:+: s.preamble ∧ s.lines.tail.countP (defines h) = 1
  content : ∀ w, Uses s w → "c_".toList <+: w.toList →
    (∃ name, ∃ line ∈ s.preamble, declares w line = true ∧ fetches name line = true) ∧
      s.lines.tail.countP (declares w) = 1

theorem node_of_registration? {n : Node} {r : Registration} (found : registration? n = some r) :
    r.node = n.id := by
  unfold registration? at found
  split at found <;> cases found <;> rfl

/-- Nodes with different ids have different noise fields. -/
theorem nodup_registrations {nodes : List Node} (distinct : (nodes.map (·.id)).Nodup) :
    ((nodes.filterMap registration?).map (·.node)).Nodup := by
  refine List.Nodup.sublist ?_ distinct
  induction nodes with
  | nil => exact List.Sublist.refl _
  | cons n rest ih =>
    have rest := ih (List.nodup_cons.mp distinct).2
    rw [List.filterMap_cons]
    cases found : registration? n with
    | none => exact rest.cons _
    | some r =>
      rw [List.map_cons, List.map_cons, node_of_registration? found]
      exact rest.cons_cons _

theorem closed_of_ofGraph {g : Graph} (sound : g.Sound) (natural : ∀ n ∈ g.nodes, 0 ≤ n.id)
    {options : Options} {s : Script} (made : ofGraph g options = .ok s) : Closed g s := by
  obtain ⟨registrations, helpers, _, _⟩ := parts_of_ofGraph made
  have locals := isContentLocal_contents made natural
  have supported : ∀ {w}, Uses s w → Supported g s w := supported_of_uses sound natural made
  refine ⟨lines_eq s, oneLine_tail sound made, rfl, fun w uses begun other => ?_,
    fun h uses => ?_, fun w uses begun => ?_⟩
  · obtain ⟨n, member, r, rfl, found⟩ := (supported uses).noise_of_begun locals begun other
    have listed : r ∈ s.registrations := by
      rw [registrations]
      exact List.mem_filterMap.mpr ⟨n, member, found⟩
    have distinct : (s.registrations.map (·.node)).Nodup := by
      rw [registrations]
      exact nodup_registrations sound.ids_distinct
    have block := (infix_block r).trans (infix_preamble_of_registration listed)
    exact ⟨n, member, rfl, ⟨r.block, registered_of_registration? found, block⟩,
      node_of_registration? found ▸ countP_registers distinct listed⟩
  · have listed := (supported uses).helper_mem locals
    have distinct : s.helpers.Nodup := helpers ▸ nodup_eraseDups _
    exact ⟨infix_preamble_of_helper listed,
      countP_defines distinct (fun c listed => (slot_contents made c listed).start) listed⟩
  · obtain ⟨name, listed⟩ := (supported uses).content_of_begun begun
    have form := slot_contents made _ listed
    exact ⟨⟨name, _, contentLine_mem_preamble listed, (declares_contentLine form form name).mpr rfl,
      (fetches_contentLine form name name).mpr rfl⟩,
      ((binds_ofGraph sound.ids_distinct made).declared_once w name listed).2⟩

end Script

namespace Graph

open Script Lua

/-- The script depends on the nodes and the tables of a graph only. -/
theorem ofGraph_congr {g h : Graph} (nodes : g.nodes = h.nodes) (tables : g.tables = h.tables)
    (options : Options) : ofGraph g options = ofGraph h options := by
  cases g
  cases h
  cases nodes
  cases tables
  rfl

/-- The graph of nodes and connections with its tables, and with nothing else. -/
def laidOut (nodes : List Node) (connections : List Connection) : Graph :=
  ⟨nodes, connections, 0, 0, ⟨#[], 0⟩, .of nodes connections⟩

/-- The script of a graph that holds nodes and connections is that of these alone. -/
theorem Holding.ofGraph_eq {g : Graph} {nodes : List Node} {connections : List Connection}
    (holding : g.Holding nodes connections) (options : Options) :
    ofGraph g options = ofGraph (laidOut nodes connections) options := by
  refine ofGraph_congr holding.nodes_eq ?_ options
  rw [holding.tables_eq, holding.nodes_eq, holding.connections_eq]
  rfl

/-- Noise in the plane, with a spread of its own in each direction. -/
def dunes : Noise.Settings Float :=
  { offset := 4, scale := 18, spreadX := 120, spreadY := 90, seed := 11, octaves := 2,
    persist := 0.5, lacunarity := 2.5, flags := .defaults }

/-- Noise in space, eased and folded. -/
def caverns : Noise.Settings3 Float :=
  { offset := -0.5, scale := 12, spreadX := 80, spreadY := 40, spreadZ := 60, seed := -77,
    octaves := 4, persist := 0.6, lacunarity := 2, flags := Noise.Flags.eased.union .absvalue }

/-- A noise field of the plane against a helper, which is fed by the same field, by a field of space
and by another helper. The comparison chooses between two terrains. -/
def workshopNodes : List Node :=
  [⟨1, .noise2d dunes, 0, 0, []⟩, ⟨2, .noise3d caverns, 0, 9, []⟩,
    ⟨3, .mandelbrot .default, 0, 18, []⟩, ⟨4, .gaussian ⟨0, 0, 0, 100⟩, 9, 0, []⟩,
    ⟨5, .compare ⟨.less, 1, 0⟩, 18, 0, []⟩, ⟨6, .terrainType ⟨"moss", .solid, "#3a5f0b"⟩, 9, 9, []⟩,
    ⟨7, .terrainType ⟨"Rock A", .solid, "#888888"⟩, 9, 18, []⟩, ⟨8, .terrainOutput, 27, 0, []⟩]

def workshopLinks : List Link :=
  [⟨1, "out", 4, "x"⟩, ⟨2, "out", 4, "y"⟩, ⟨3, "out", 4, "z"⟩, ⟨4, "out", 5, "in1"⟩,
    ⟨1, "out", 5, "in2"⟩, ⟨6, "out", 5, "useTrue"⟩, ⟨7, "out", 5, "useFalse"⟩, ⟨5, "out", 8, "in"⟩]

/-- The workshop, made by mutations. -/
def workshop : Graph :=
  assemble workshopNodes workshopLinks 7

theorem holding_workshop : workshop.Holding workshopNodes (workshopLinks.map Link.connection) := by
  have whole : ∀ n ∈ workshopNodes, n.params.isChecked = true ∧ n.extras = [] := by
    decide +kernel
  refine holding_assemble (by decide) (fun n member => ?_) (by decide +kernel) 7
  obtain ⟨checked, bare⟩ := whole n member
  exact ⟨⟨checked, bare ▸ List.nodup_nil⟩, bare⟩

/-- The words of the function of the workshop that have to be declared. -/
def workshopWords : List String :=
  ["noise_1", "noise_2", "mandelbrot", "gaussian", "c_moss", "c_rock_a"]

/-- The function of the workshop uses each of these words. -/
theorem uses_workshopWords {s : Script} (made : ofGraph workshop Options.default = .ok s) :
    ∀ w ∈ workshopWords, Uses s w := by
  have used : (ofGraph (laidOut workshopNodes (workshopLinks.map Link.connection))
      Options.default).toOption.all (fun s => workshopWords.all fun w => decide (Uses s w)) =
        true := by
    decide +kernel
  rw [← holding_workshop.ofGraph_eq, made] at used
  exact fun w listed => of_decide_eq_true (List.all_eq_true.mp used w listed)

theorem valid_workshop : workshop.findings.isValid = true := by
  have same : workshopNodes.map Node.bare = workshopNodes.map Node.bare := rfl
  rw [holding_workshop.findings_eq same]
  decide +kernel

end Graph

end Landform
