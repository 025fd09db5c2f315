import Landform.Proofs.Graph.States
import Landform.Proofs.Lua.Quoted
import Landform.Proofs.Script.Claims
import Landform.Proofs.Script.Lines

/-!
# Every local is declared once

Whatever the names of terrains look like once they are made identifiers, a script declares each
local on one line and for one name. A terrain node finds its own name under its local, and so do
air, water and stone, so that terrains with different names never share a local.

1. `Slot`, `slot_contents`: what locals look like.
2. `declares`, `fetches`, `mem_contents_iff`: the lines that declare locals, and what they fetch.
3. `contents_bound`: what a script declares, and where it is used.
-/

namespace Landform

namespace Script

open Lua Decimal

/-! ## 1. The form of locals -/

/-- What locals look like: they start with one letter, and hold no blank. -/
structure Slot (slot : String) : Prop where
  start : "c".toList <+: slot.toList
  blankless : ' ' ∉ slot.toList

theorem slot_contentLocal (name : String) : Slot (contentLocal name) := by
  refine ⟨⟨'_' :: (identifier name).toList, by simp [contentLocal]⟩, fun blank => ?_⟩
  have letters : ' ' ∈ (identifier name).toList := by simpa [contentLocal] using blank
  rw [identifier, String.toList_ofList] at letters
  obtain ⟨c, _, same⟩ := List.mem_map.mp letters
  split at same
  · next accepted =>
    rw [same] at accepted
    exact absurd accepted (by decide)
  · exact absurd same (by decide)

theorem Slot.suffix {slot : String} (base : Slot slot) (n : Int) :
    Slot (slot ++ ("_" ++ integerText n)) := by
  refine ⟨?_, fun blank => ?_⟩
  · rw [String.toList_append]
    exact base.start.trans (List.prefix_append _ _)
  · have parts : ' ' ∈ slot.toList ∨ ' ' ∈ (integerText n).toList := by simpa using blank
    rcases parts with early | late
    · exact base.blankless early
    · rcases mem_integerText late with same | digit
      · exact absurd same (by decide)
      · exact absurd digit (by decide)

theorem slot_wishes (g : Graph) :
    ∀ w ∈ wishes g, Slot w.slot ∧ ∀ slot, Slot slot → Slot (slot ++ w.suffix) := by
  have one : ∀ slot, Slot slot → Slot (slot ++ "_1") := fun slot base => base.suffix 1
  intro w member
  rcases mem_wishes member with rfl | rfl | ⟨n, t, _, _, rfl⟩ | rfl
  · exact ⟨⟨by decide, by decide⟩, one⟩
  · exact ⟨⟨by decide, by decide⟩, one⟩
  · exact ⟨slot_contentLocal t.name, fun slot base => base.suffix n.id⟩
  · exact ⟨⟨by decide, by decide⟩, one⟩

/-! ## 2. Lines that declare -/

/-- Whether a line declares a local as a content. -/
def declares (slot line : String) : Bool :=
  ("local " ++ slot ++ " = minetest.get_content_id(").toList.isPrefixOf line.toList

theorem declares_contentLine {slot other : String} (first : Slot slot) (second : Slot other)
    (name : String) : declares slot (contentLine other name) = true ↔ other = slot := by
  have split : contentLine other name =
      "local " ++ other ++ (" = minetest.get_content_id(" ++ (Lua.text name ++ ")")) := by
    simp only [contentLine, String.append_assoc]
  rw [split]
  exact begins_iff_eq ' ' first.blankless second.blankless ⟨_, rfl⟩

/-- Whether a line binds its local to the content of a name: what stands behind the local. -/
def fetches (name line : String) : Bool :=
  (line.toList.drop "local ".length).dropWhile (· != ' ') ==
    (" = minetest.get_content_id(" ++ Lua.text name ++ ")").toList

theorem fetches_contentLine {slot : String} (form : Slot slot) (name other : String) :
    fetches name (contentLine slot other) = true ↔ other = name := by
  have split : (contentLine slot other).toList = "local ".toList ++ (slot.toList ++
      (" = minetest.get_content_id(" ++ Lua.text other ++ ")").toList) := by
    simp only [contentLine, String.toList_append, List.append_assoc]
  have word : ∀ c ∈ slot.toList, (c != ' ') = true := fun c member =>
    bne_iff_ne.mpr fun blank => form.blankless (blank ▸ member)
  have behind : ((contentLine slot other).toList.drop "local ".length).dropWhile (· != ' ') =
      (" = minetest.get_content_id(" ++ Lua.text other ++ ")").toList := by
    rw [split, List.drop_append_of_le_length (by decide),
      show "local ".toList.drop "local ".length = [] from rfl, List.nil_append,
      List.dropWhile_append_of_pos word, String.toList_append, String.toList_append]
    rfl
  rw [fetches, behind, beq_iff_eq, String.toList_inj]
  constructor
  · intro same
    have lists := congrArg String.toList same
    simp only [String.toList_append] at lists
    exact text_injective (String.toList_inj.mp
      (List.append_cancel_left (List.append_cancel_right lists)))
  · rintro rfl
    rfl

/-- The statements before and behind the contents begin like none of them. -/
theorem exists_statements (s : Script) : ∃ before after,
    s.statements = before ++ s.contents.map (fun c => contentLine c.1 c.2) ++ after ∧
      ∀ line ∈ before ++ after, Apart "local c" line := by
  refine ⟨"luamap.set_singlenode()" :: s.registrations.map Registration.head,
    s.helpers.map helperHead ++
      ["local water_level = " ++ s.waterLevel, "local old_logic = luamap.logic"], ?_, ?_⟩
  · simp only [statements, List.append_assoc, List.cons_append]
  · simp only [List.forall_mem_append, List.forall_mem_cons, List.forall_mem_map,
      List.not_mem_nil, false_implies, implies_true, and_true]
    refine ⟨⟨⟨"luamap.", by decide⟩, fun r _ => ?_⟩, fun h _ => ?_, ?_, ?_⟩
    · exact ⟨"luamap.register_noise(\"", prefix_head r, by decide⟩
    · exact ⟨"local f", by cases h <;> decide, by decide⟩
    · exact apart_append _ _ (by decide)
    · exact ⟨"local o", by decide⟩

theorem prefix_declaration {slot : String} (form : Slot slot) :
    "local c".toList <+: ("local " ++ slot ++ " = minetest.get_content_id(").toList := by
  obtain ⟨rest, same⟩ := form.start
  simp [← same]

/-- Each content of a script is declared on one line behind the header. -/
theorem countP_declares {s : Script} (functional : Table.Functional s.contents)
    (forms : Locals.All Slot s.contents) {slot name : String} (listed : (slot, name) ∈ s.contents) :
    s.lines.tail.countP (declares slot) = 1 := by
  have form : Slot slot := forms _ listed
  obtain ⟨before, after, split, others⟩ := exists_statements s
  have same : ∀ entry ∈ s.contents, declares slot (contentLine entry.1 entry.2) = true ↔
      (entry.1 == slot) = true := by
    intro entry member
    rw [declares_contentLine form (forms entry member), beq_iff_eq]
  have once : (s.contents.map (·.1)).count slot = 1 :=
    List.count_eq_one_of_mem functional (List.mem_map_of_mem (f := (·.1)) listed)
  calc s.lines.tail.countP (declares slot)
      = (s.contents.map fun c => contentLine c.1 c.2).countP (declares slot) :=
        countP_begins "local c" (by decide) (prefix_declaration form) split others
    _ = s.contents.countP (fun entry => declares slot (contentLine entry.1 entry.2)) := by
        rw [List.countP_map]
        rfl
    _ = s.contents.countP (fun entry => entry.1 == slot) := List.countP_congr same
    _ = (s.contents.map (·.1)).count slot := by
        rw [List.count, List.countP_map]
        rfl
    _ = 1 := once

theorem contentLine_mem {s : Script} {slot name : String} (listed : (slot, name) ∈ s.contents) :
    contentLine slot name ∈ s.lines.tail := by
  rw [tail_lines]
  exact List.mem_append_left _ (contentLine_mem_preamble listed)

/-- The contents of a script are what its lines declare and fetch. -/
theorem mem_contents_iff {s : Script} (forms : Locals.All Slot s.contents) {slot name : String}
    (form : Slot slot) : (slot, name) ∈ s.contents ↔
      ∃ line ∈ s.lines.tail, declares slot line = true ∧ fetches name line = true := by
  constructor
  · intro listed
    exact ⟨_, contentLine_mem listed, (declares_contentLine form form name).mpr rfl,
      (fetches_contentLine form name name).mpr rfl⟩
  · rintro ⟨line, listed, declared, fetched⟩
    obtain ⟨before, after, split, others⟩ := exists_statements s
    have start := prefix_declaration form
    have statement : isStatement line = true :=
      isStatement_of_prefix "local c" (start.trans (begins_iff.mp declared)) (by decide)
    have inside : line ∈ s.statements := by
      rw [← filter_tail]
      exact List.mem_filter.mpr ⟨listed, statement⟩
    have own : line ∉ before ++ after := fun other => by
      have none := (others line other).begins_eq_false start
      exact absurd (none.symm.trans declared) Bool.false_ne_true
    rw [split, List.append_assoc, List.mem_append, List.mem_append] at inside
    rw [List.mem_append, not_or] at own
    obtain ⟨⟨other, content⟩, member, rfl⟩ := List.mem_map.mp
      ((inside.resolve_left own.1).resolve_right own.2)
    obtain rfl := (declares_contentLine form (forms _ member) content).mp declared
    obtain rfl := (fetches_contentLine form name content).mp fetched
    exact member

theorem slot_contents {g : Graph} {options : Options} {script : Script}
    (made : ofGraph g options = .ok script) : Locals.All Slot script.contents := by
  rw [(contents_eq made).1]
  exact Locals.All.claims (fun _ listed => absurd listed List.not_mem_nil) (slot_wishes g)

/-! ## 3. What a script declares -/

/-- What a script binds its locals to. -/
structure Binds (g : Graph) (script : Script) : Prop where
  contents : script.contents = Locals.claims [] (wishes g)
  declared_once : ∀ slot name, (slot, name) ∈ script.contents →
    (∃ line ∈ script.lines.tail, declares slot line = true ∧ fetches name line = true) ∧
      script.lines.tail.countP (declares slot) = 1
  air : ("c_air", "air") ∈ script.contents
  water : ("c_water", "default:water_source") ∈ script.contents
  stone : ∀ level stone, script.body = .height level stone →
    (stone, "default:stone") ∈ script.contents
  terrain : ∀ n ∈ g.nodes, ∀ t, n.params = .terrainType t →
    (contentsOf (assignment g).slots n, t.name) ∈ script.contents
  apart : ∀ m ∈ g.nodes, ∀ n ∈ g.nodes, ∀ s t, m.params = .terrainType s →
    n.params = .terrainType t → s.name ≠ t.name →
    contentsOf (assignment g).slots m ≠ contentsOf (assignment g).slots n

theorem binds_ofGraph {g : Graph} (distinct : g.ids.Nodup) {options : Options} {script : Script}
    (made : ofGraph g options = .ok script) : Binds g script := by
  obtain ⟨contents, body⟩ := contents_eq made
  obtain ⟨grown, stone⟩ := bodyOf_declared body
  have functional : Table.Functional script.contents := contents ▸ Locals.functional_claims _
  have known : ∀ slot name, (assignment g).declared.get? slot = some name →
      (slot, name) ∈ script.contents := by
    intro slot name found
    refine functional.get?_iff.mp ?_
    rw [grown]
    exact (Locals.extends_claims _ _).kept slot name found
  have builtIn : ∀ slot name, builtIn.get? slot = some name → (slot, name) ∈ script.contents := by
    intro slot name found
    refine known slot name ?_
    rw [assignment, declared_foldl]
    exact (Locals.extends_claims _ _).kept slot name found
  have terrain : ∀ n ∈ g.nodes, ∀ t, n.params = .terrainType t →
      (contentsOf (assignment g).slots n, t.name) ∈ script.contents :=
    fun n member t params => known _ _ (contentsOf_eq (assignment_knows distinct member params))
  have forms := slot_contents made
  refine ⟨contents, fun slot name listed => ⟨?_, ?_⟩, builtIn _ _ rfl,
    builtIn _ _ rfl, fun level slot height => functional.get?_iff.mp (stone level slot height),
    terrain, ?_⟩
  · exact (mem_contents_iff forms (forms _ listed)).mp listed
  · exact countP_declares functional forms listed
  · intro m mm n mn s t first second different same
    have one := functional.get?_iff.mpr (terrain m mm s first)
    have other := functional.get?_iff.mpr (terrain n mn t second)
    rw [same, other] at one
    exact different (Option.some.inj one).symm

end Script

namespace Graph

open Script

/-- Whatever its terrains are called, every claim of a graph ends, its local keeps the name that it
was claimed for, and a script of the graph declares each local on one line, where air, water, stone
and the terrain nodes find their own names. -/
theorem contents_bound {g : Graph} (distinct : g.ids.Nodup) :
    (∀ before w after, wishes g = before ++ w :: after →
      Locals.Settles (Locals.claims [] before) w (Locals.granted before w) ∧
      (Locals.claims [] (wishes g)).get? (Locals.granted before w) = some w.name) ∧
    ∀ options script, ofGraph g options = .ok script → Binds g script := by
  refine ⟨fun before w after split => ?_, fun options script made => binds_ofGraph distinct made⟩
  have member : w ∈ wishes g := by
    rw [split]
    exact List.mem_append_right _ List.mem_cons_self
  have more := suffix_ne_of_mem_wishes member
  exact ⟨Locals.claim_settles _ _ more, Locals.claims_get? more split⟩

/-- Three terrains that fall together as identifiers, also with their ids behind them, and two that
look like built-in contents. The stone below the height comes on top of them. -/
def namesakes : Graph :=
  [Mutation.add "terrain-type" (.int 0) (.int 0), .add "terrain-type" (.int 0) (.int 9),
    .add "terrain-type" (.int 0) (.int 18), .add "terrain-type" (.int 0) (.int 27),
    .add "terrain-type" (.int 0) (.int 36), .add "terrain-output" (.int 9) (.int 0),
    .update 1 [("name", .text "rock a")], .update 2 [("name", .text "Rock A 3")],
    .update 3 [("name", .text "rock_a")], .update 4 [("name", .text "water")],
    .update 5 [("name", .text "stone")],
    .connect "5_out" "6_in"].foldl Mutation.apply (empty 7)

/-- Every name has a local of its own, the third terrain after three attempts. -/
theorem namesakes_contents_bound : ∃ script, ofGraph namesakes Options.default = .ok script ∧
    script.contents = [("c_air", "air"), ("c_water", "default:water_source"),
      ("c_rock_a", "rock a"), ("c_rock_a_3", "Rock A 3"), ("c_rock_a_3_3", "rock_a"),
      ("c_water_4", "water"), ("c_stone", "stone"), ("c_stone_1", "default:stone")] ∧
    Binds namesakes script := by
  have distinct : namesakes.ids.Nodup := by decide +kernel
  have asked : wishes namesakes = [⟨"c_air", "air", "_1"⟩,
      ⟨"c_water", "default:water_source", "_1"⟩, ⟨"c_rock_a", "rock a", "_1"⟩,
      ⟨"c_rock_a_3", "Rock A 3", "_2"⟩, ⟨"c_rock_a", "rock_a", "_3"⟩, ⟨"c_water", "water", "_4"⟩,
      ⟨"c_stone", "stone", "_5"⟩, ⟨"c_stone", "default:stone", "_1"⟩] := by
    decide +kernel
  have emitted : (ofGraph namesakes Options.default).isOk = true := by decide +kernel
  cases made : ofGraph namesakes Options.default with
  | error cause =>
    rw [made] at emitted
    cases emitted
  | ok script =>
    have binds := (contents_bound distinct).2 _ script made
    refine ⟨script, rfl, ?_, binds⟩
    rw [binds.contents, asked]
    decide +kernel

end Graph

end Landform
