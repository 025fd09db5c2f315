import Landform.Proofs.Script.Contents

/-!
# Scripts are balanced

Every part of a script opens as much as it closes: registrations, declarations of contents, helpers,
the function around the body, and the body. What a name says does not matter, since it only stands
inside a literal. The balance check therefore finds nothing in a script whose locals are neutral.

1. `tallied_registration`, `tallied_contentLine`, `tallied_helper`: the parts before the function.
2. `Body.tallied_lines`: the body.
3. `tallied_lines`, `imbalances_render`: whole scripts.
-/

namespace Landform.Script

open Lua Decimal

/-! ## 1. Registrations, contents and helpers -/

theorem indentation_join (depth : Nat) : Indentation (String.join (List.replicate depth step)) := by
  have four : ∀ c ∈ step.toList, c = ' ' := by simp [step]
  intro c member
  rw [String.toList_join] at member
  obtain ⟨s, copy, inside⟩ := List.mem_flatMap.mp member
  rw [List.eq_of_mem_replicate copy] at inside
  exact four c inside

theorem tallied_indented (depth : Nat) {text : String} {t : Tally} (line : Tallied [text] t) :
    Tallied [indented depth text] t :=
  line.indent (indentation_join depth)

theorem tallied_empty : Tallied [""] 0 :=
  .plain .nil rfl

/-- A field of a table whose value is neutral. -/
theorem tallied_field (label : String) {value : String} (neutral : Neutral value.toList)
    (plain : label.toList.all isPlain = true)
    (ended : Ended label.toList) (inert : tally label.toList = 0) :
    Tallied [label ++ value ++ ","] 0 := by
  have comma : tally ",".toList = 0 := by decide
  refine .between label "," ⟨.of_all plain, ended⟩ neutral
    ⟨.of_all (by decide), by decide⟩ ?_
  rw [inert, comma, add_zero]

/-- A text without characters that need escaping is its own literal. -/
theorem text_of_unescaped {s : String} (unescaped : ∀ c ∈ s.toList, c ≠ '\\' ∧ c ≠ '"' ∧ c ≠ '\n') :
    Lua.text s = "\"" ++ s ++ "\"" := by
  have each : s.toList.flatMap escapeChar = s.toList := by
    have single : ∀ c ∈ s.toList, escapeChar c = [c] := by
      intro c member
      obtain ⟨backslash, quote, newline⟩ := unescaped c member
      simp [escapeChar, backslash, quote, newline]
    rw [List.flatMap_congr single, List.flatMap_singleton']
  rw [← String.toList_inj, toList_text, each]
  simp

theorem unescaped_noiseName (node : Int) :
    ∀ c ∈ (noiseName node).toList, c ≠ '\\' ∧ c ≠ '"' ∧ c ≠ '\n' := by
  rw [noiseName, String.toList_append]
  refine List.forall_mem_append.mpr ⟨by simp, fun c member => ?_⟩
  rcases mem_integerText member with rfl | digit
  · decide
  · refine ⟨?_, ?_, ?_⟩ <;>
    · rintro rfl
      exact absurd digit (by decide)

/-- The line that begins a registration opens a parenthesis and a brace. -/
theorem tallied_register (node : Int) :
    Tallied ["luamap.register_noise(\"" ++ noiseName node ++ "\", \x7b"] (1, 1, 0, 0, 0) := by
  have line : Tallied _ (1, 1, 0, 0, 0) := .literal "luamap.register_noise(" ", \x7b"
    (.of_all (by decide)) (.of_all (by decide)) (noiseName node) (by decide)
  have same : "luamap.register_noise(\"" ++ noiseName node ++ "\", \x7b" =
      "luamap.register_noise(" ++ Lua.text (noiseName node) ++ ", \x7b" := by
    rw [text_of_unescaped (unescaped_noiseName node), ← String.toList_inj]
    simp
  rw [same]
  exact line

theorem neutral_spread (s : Noise.Settings Float) (spreadZ : Option Float) :
    Neutral (match spreadZ with
      | some z => "x=" ++ number s.spreadX ++ ", y=" ++ number s.spreadY ++ ", z=" ++ number z
      | none => "x=" ++ number s.spreadX ++ ", y=" ++ number s.spreadY).toList := by
  have x : Neutral "x=".toList := .of_chars (by decide) (by decide)
  have y : Neutral [',', ' ', 'y', '='] := ⟨.of_all (by decide), by decide⟩
  have z : Neutral [',', ' ', 'z', '='] := ⟨.of_all (by decide), by decide⟩
  have first := x.append_of_ended (neutral_number s.spreadX) (by decide)
  have plane := first.join (neutral_number s.spreadY) y (by decide) (by decide)
  cases spreadZ with
  | none => simpa using plane
  | some depth =>
    have space := plane.join (neutral_number depth) z (by decide) (by decide)
    simpa using space

theorem unescaped_flags (flags : Noise.Flags) :
    ∀ c ∈ (" ".intercalate flags.names).toList, c ≠ '\\' ∧ c ≠ '"' ∧ c ≠ '\n' := by
  unfold Noise.Flags.names
  cases flags.hasDefaults <;> cases flags.hasEased <;> cases flags.hasAbsvalue <;> simp

/-- The names of flags stand inside a literal. -/
theorem tallied_flags (flags : Noise.Flags) :
    Tallied ["flags = \"" ++ " ".intercalate flags.names ++ "\""] 0 := by
  have line : Tallied _ 0 := .literal "flags = " "" (.of_all (by decide)) .nil
    (" ".intercalate flags.names) (by decide)
  have same : "flags = \"" ++ " ".intercalate flags.names ++ "\"" =
      "flags = " ++ Lua.text (" ".intercalate flags.names) ++ "" := by
    rw [text_of_unescaped (unescaped_flags flags), ← String.toList_inj]
    simp
  rw [same]
  exact line

theorem tallied_registration (r : Registration) : Tallied r.lines 0 := by
  obtain ⟨node, s, spreadZ⟩ := r
  have type : ∀ space : Bool,
      Tallied ["type = \"" ++ (if space then "3d" else "2d") ++ "\","] 0 := by
    rintro (_ | _) <;> exact ⟨by decide +kernel, by decide +kernel⟩
  have values : Tallied ["np_vals = \x7b"] (0, 1, 0, 0, 0) := .of_chars (by decide) (by decide)
  have spread : Tallied _ 0 := .between "spread = \x7b" "\x7d,"
    ⟨.of_all (by decide), by decide⟩ (neutral_spread s spreadZ)
    ⟨.of_all (by decide), by decide⟩ (by decide)
  have inner : Tallied ["\x7d,"] (0, -1, 0, 0, 0) := .of_chars (by decide) (by decide)
  have outer : Tallied ["\x7d)"] (-1, -1, 0, 0, 0) := .of_chars (by decide) (by decide)
  have offset := tallied_field "offset = " (neutral_number s.offset) (by decide) (by decide) rfl
  have scale := tallied_field "scale = " (neutral_number s.scale) (by decide) (by decide) rfl
  have seed := tallied_field "seed = " (neutral_integerText s.seed) (by decide) (by decide) rfl
  have octaves := tallied_field "octaves = " (neutral_integerText s.octaves) (by decide) (by decide)
    rfl
  have persist := tallied_field "persist = " (neutral_number s.persist) (by decide) (by decide) rfl
  have lacunarity := tallied_field "lacunarity = " (neutral_number s.lacunarity) (by decide)
    (by decide) rfl
  have opens := (tallied_register node).cons ((tallied_indented 1 (type spreadZ.isSome)).cons
    (tallied_indented 1 values))
  have fields := (tallied_indented 2 offset).cons ((tallied_indented 2 scale).cons
    ((tallied_indented 2 spread).cons ((tallied_indented 2 seed).cons
      ((tallied_indented 2 octaves).cons ((tallied_indented 2 persist).cons
        ((tallied_indented 2 lacunarity).cons (tallied_indented 2 (tallied_flags s.flags))))))))
  have closes := (tallied_indented 1 inner).cons (outer.cons tallied_empty)
  exact (opens.append fields).append closes

/-- What a content is called does not matter. -/
theorem tallied_contentLine {slot : String} (neutral : Neutral slot.toList) (name : String) :
    Tallied [contentLine slot name] 0 := by
  have start : Neutral "local ".toList := .of_chars (by decide) (by decide)
  have call : Plain " = minetest.get_content_id(".toList := .of_all (by decide)
  have opens : tally " = minetest.get_content_id(".toList = (1, 0, 0, 0, 0) := by decide
  have closes : tally ")".toList = (-1, 0, 0, 0, 0) := by decide
  have declared := start.append_of_ended neutral (by decide)
  rw [← String.toList_append] at declared
  have before : tally ("local " ++ slot ++ " = minetest.get_content_id(").toList =
      (1, 0, 0, 0, 0) := by
    have gap : Delimited " = minetest.get_content_id(".toList := by decide
    rw [String.toList_append, tally_append gap, declared.tally_eq, opens, zero_add]
  refine .literal _ _ ?_ (.of_all (by decide)) name ?_
  · rw [String.toList_append]
    exact declared.toPlain.append call
  · rw [before, closes]
    rfl

theorem tallied_helper (h : Helper) : Tallied (h.lines ++ [""]) 0 := by
  cases h <;>
  · constructor
    · simp only [Helper.lines, List.cons_append, List.nil_append, List.forall_mem_cons,
        String.reduceToList]
      decide +kernel
    · simp only [scoreAll, Helper.lines, List.cons_append, List.nil_append, List.map_cons,
        List.map_nil, String.reduceToList]
      decide +kernel

/-! ## 2. Bodies -/

/-- The locals that a body reads. -/
def Body.names : Body → List String
  | .keep => []
  | .decide decision => decision.names
  | .height level stone => level.names ++ [stone]

/-- A body opens as many blocks as it closes. -/
theorem Body.tallied_lines (body : Body) (named : ∀ slot ∈ body.names, Neutral slot.toList) :
    Tallied body.lines 0 := by
  have comment : Tallied ["-- Terrain evaluation"] 0 := .comment (by decide)
  cases body with
  | keep => exact .nil
  | decide decision =>
    have spaces : Indentation step := by simp [Indentation, step]
    exact ((tallied_indented 1 comment).append (decision.tallied_lines named spaces)).append
      tallied_empty
  | height level stone =>
    obtain ⟨ofLevel, ofStone⟩ := List.forall_mem_append.mp named
    have height : Neutral "local height = ".toList := .of_chars (by decide) (by decide)
    have content : Neutral "content = ".toList := .of_chars (by decide) (by decide)
    have first := height.append_of_ended (level.neutral_render ofLevel) (by decide)
    have last := content.append_of_ended (ofStone stone List.mem_cons_self) (by decide)
    rw [← String.toList_append] at first last
    have level : Tallied _ 0 := .plain first.toPlain first.tally_eq
    have stone : Tallied _ 0 := .plain last.toPlain last.tally_eq
    have water : Tallied ["content = c_water"] 0 := .of_chars (by decide) (by decide)
    have wet : Tallied ["if y < 0 then"] (0, 0, 0, 1, 0) :=
      .of_chars (by decide) (by decide)
    have low : Tallied ["if y < height then"] (0, 0, 0, 1, 0) :=
      .of_chars (by decide) (by decide)
    have close : Tallied ["end"] (0, 0, 0, -1, 0) := .of_chars (by decide) (by decide)
    have start := (tallied_indented 1 comment).cons ((tallied_indented 1 level).cons tallied_empty)
    have sea := (tallied_indented 1 wet).cons
      ((tallied_indented 2 water).cons (tallied_indented 1 close))
    have land := (tallied_indented 1 low).cons
      ((tallied_indented 2 stone).cons (tallied_indented 1 close))
    exact ((start.append sea).append land).append tallied_empty

/-! ## 3. Scripts -/

/-- A script whose header is balanced and whose locals are neutral. -/
structure Neat (s : Script) : Prop where
  header : Tallied [s.header] 0
  contents : ∀ c ∈ s.contents, Neutral c.1.toList
  waterLevel : Neutral s.waterLevel.toList
  body : ∀ slot ∈ s.body.names, Neutral slot.toList

theorem Neat.tallied_lines {s : Script} (neat : s.Neat) : Tallied s.lines 0 := by
  have start : Tallied ["luamap.set_singlenode()"] 0 := .of_chars (by decide) (by decide)
  have heading : Tallied ["-- Define content IDs"] 0 := .comment (by decide)
  have registrations : Tallied (s.registrations.flatMap Registration.lines) 0 :=
    .flatMap fun r _ => tallied_registration r
  have contents : Tallied (s.contents.map fun c => contentLine c.1 c.2) 0 := by
    rw [List.map_eq_flatMap]
    exact .flatMap fun c listed => tallied_contentLine (neat.contents c listed) c.2
  have helpers : Tallied (s.helpers.flatMap fun h => h.lines ++ [""]) 0 :=
    .flatMap fun h _ => tallied_helper h
  have label : Neutral "local water_level = ".toList := .of_chars (by decide) (by decide)
  have level := label.append_of_ended neat.waterLevel (by decide)
  rw [← String.toList_append] at level
  have water : Tallied _ 0 := .plain level.toPlain level.tally_eq
  have old : Tallied ["local old_logic = luamap.logic"] 0 :=
    .of_chars (by decide) (by decide)
  have opens : Tallied ["function luamap.logic(noise_vals, x, y, z, seed, original_content)"]
      (0, 0, 0, 1, 0) := .of_chars (by decide) (by decide)
  have comment : Tallied ["-- Get any terrain defined in another mod"] 0 :=
    .comment (by decide)
  have content : Tallied
      ["local content = old_logic(noise_vals, x, y, z, seed, original_content)"] 0 :=
    .of_chars (by decide) (by decide)
  have result : Tallied ["return content"] 0 := .of_chars (by decide) (by decide)
  have close : Tallied ["end"] (0, 0, 0, -1, 0) := .of_chars (by decide) (by decide)
  have declarations := ((((neat.header.cons (start.cons tallied_empty)).append
    registrations).append heading).append contents).append tallied_empty
  have function := (water.cons (tallied_empty.cons (old.cons tallied_empty))).append
    (opens.cons ((tallied_indented 1 comment).cons ((tallied_indented 1 content).cons
      tallied_empty)))
  have rest := (tallied_indented 1 result).cons (close.cons tallied_empty)
  exact (((declarations.append helpers).append function).append
    (s.body.tallied_lines neat.body)).append rest

/-- The balance check finds nothing in a script whose locals are neutral. -/
theorem Neat.imbalances_render {s : Script} (neat : s.Neat) : imbalances s.render = [] := by
  obtain ⟨oneLine, total⟩ := neat.tallied_lines
  refine imbalances_eq_nil ?_
  rw [render, score_intercalate oneLine, total]

end Landform.Script
