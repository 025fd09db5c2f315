import Landform.Proofs.Params
import Landform.Proofs.Script.Balanced

/-!
# The statements of a script

Behind its header a script is a preamble and a function. What the preamble registers, binds and
defines begins on lines of its own, and these are the lines that begin with `local` or `luamap.`;
all others are empty, indented, comments, or close something. So what a script declares can be
counted line by line, and what is declared before the function is what the preamble declares.

1. `lines_eq`: the preamble and the function.
2. `filter_tail`: the lines on which statements begin.
3. `countP_registers`, `countP_defines`: noise fields and helpers.
-/

namespace Landform

namespace Script

open Lua Decimal

/-! ## 1. The preamble and the function -/

/-- The lines before the function, without the header. -/
def preamble (s : Script) : List String :=
  ["luamap.set_singlenode()", ""] ++ s.registrations.flatMap Registration.lines ++
    ["-- Define content IDs"] ++ s.contents.map (fun c => contentLine c.1 c.2) ++ [""] ++
    s.helpers.flatMap (fun h => h.lines ++ [""]) ++
    ["local water_level = " ++ s.waterLevel, "", "local old_logic = luamap.logic", ""]

/-- The lines of the function. -/
def logic (s : Script) : List String :=
  ["function luamap.logic(noise_vals, x, y, z, seed, original_content)",
    indented 1 "-- Get any terrain defined in another mod",
    indented 1 "local content = old_logic(noise_vals, x, y, z, seed, original_content)", ""] ++
    s.body.lines ++ [indented 1 "return content", "end", ""]

theorem lines_eq (s : Script) : s.lines = s.header :: (s.preamble ++ s.logic) := by
  simp only [lines, preamble, logic, List.append_assoc, List.cons_append, List.nil_append]

theorem tail_lines (s : Script) : s.lines.tail = s.preamble ++ s.logic := by
  rw [lines_eq, List.tail_cons]

theorem infix_preamble_of_registration {s : Script} {r : Registration}
    (listed : r ∈ s.registrations) : r.lines <:+: s.preamble := by
  have inside : r.lines <:+: s.registrations.flatMap Registration.lines :=
    List.infix_of_mem_flatten (List.mem_map_of_mem listed)
  refine inside.trans ?_
  simp only [preamble, List.append_assoc]
  exact List.infix_append' _ _ _

theorem infix_preamble_of_helper {s : Script} {h : Helper} (listed : h ∈ s.helpers) :
    h.lines <:+: s.preamble := by
  have inside : h.lines ++ [""] <:+: s.helpers.flatMap (fun h => h.lines ++ [""]) :=
    List.infix_of_mem_flatten (List.mem_map_of_mem (f := fun h : Helper => h.lines ++ [""]) listed)
  exact (List.prefix_append h.lines [""]).isInfix.trans (inside.trans (List.infix_append _ _ _))

theorem contentLine_mem_preamble {s : Script} {slot name : String}
    (listed : (slot, name) ∈ s.contents) : contentLine slot name ∈ s.preamble := by
  have inside : contentLine slot name ∈ s.contents.map (fun c => contentLine c.1 c.2) :=
    List.mem_map.mpr ⟨(slot, name), listed, rfl⟩
  simp only [preamble, List.mem_append, inside, true_or, or_true]

/-! ## 2. Statements -/

/-- Whether a line begins with a text. -/
def begins (start line : String) : Bool :=
  start.toList.isPrefixOf line.toList

theorem begins_iff {start line : String} :
    begins start line = true ↔ start.toList <+: line.toList :=
  List.isPrefixOf_iff_prefix

/-- A line that parts from a text before either ends. -/
def Apart (start line : String) : Prop :=
  ∃ other : String, other.toList <+: line.toList ∧
    ¬ start.toList <+: other.toList ∧ ¬ other.toList <+: start.toList

theorem apart_append {start : String} (other rest : String)
    (parts : ¬ start.toList <+: other.toList ∧ ¬ other.toList <+: start.toList) :
    Apart start (other ++ rest) :=
  ⟨other, by simp, parts⟩

theorem Apart.begins_eq_false {a start line : String} (apart : Apart a line)
    (ofStart : a.toList <+: start.toList) : begins start line = false := by
  obtain ⟨other, ofLine, shorter, longer⟩ := apart
  rw [Bool.eq_false_iff, Ne, begins_iff]
  intro begun
  rcases List.prefix_or_prefix_of_prefix (ofStart.trans begun) ofLine with first | second
  · exact shorter first
  · exact longer second

/-- Whether a statement of the preamble begins on a line. -/
def isStatement (line : String) : Bool :=
  begins "local " line || begins "luamap." line

/-- A statement begins with a letter that no other line of a script begins with. -/
theorem isStatement_eq_false {line : String} (other : line.toList.head? ≠ some 'l') :
    isStatement line = false := by
  have first : ∀ start : String, start.toList.head? = some 'l' → begins start line = false := by
    intro start letter
    rw [Bool.eq_false_iff, Ne, begins_iff]
    rintro ⟨rest, same⟩
    refine other ?_
    rw [← same, List.head?_append, letter, Option.some_or]
  rw [isStatement, first _ rfl, first _ rfl]
  rfl

theorem isStatement_of_prefix {line : String} (start : String)
    (begun : start.toList <+: line.toList) (statement : isStatement start = true) :
    isStatement line = true := by
  simp only [isStatement, Bool.or_eq_true, begins_iff] at statement ⊢
  exact statement.imp (·.trans begun) (·.trans begun)

theorem isStatement_append (start rest : String) (statement : isStatement start = true) :
    isStatement (start ++ rest) = true :=
  isStatement_of_prefix start (by simp) statement

theorem isStatement_indented (depth : Nat) (line : String) :
    isStatement (indented (depth + 1) line) = false := by
  refine isStatement_eq_false ?_
  rw [indented, List.replicate_succ, String.toList_append, String.toList_join, List.flatMap_cons,
    List.append_assoc]
  exact nofun

/-- All lines of a decision are indented. -/
theorem prefix_lines (d : Decision) (indent : String) :
    ∀ line ∈ d.lines indent, indent.toList <+: line.toList := by
  have more : ∀ indent rest : String, indent.toList <+: (indent ++ rest).toList := by simp
  induction d generalizing indent with
  | assign e =>
    intro line listed
    rw [List.mem_singleton.mp listed, String.append_assoc]
    exact more _ _
  | choose node left test right ifTrue ifFalse first second =>
    intro line listed
    have deeper := more indent step
    simp only [Decision.lines, List.mem_append, List.mem_cons, List.not_mem_nil, or_false]
      at listed
    rcases listed with ((((rfl | rfl) | inside) | rfl) | inside) | rfl
    · simp only [String.append_assoc]
      exact more _ _
    · simp only [String.append_assoc]
      exact more _ _
    · exact deeper.trans (first _ line inside)
    · exact more _ _
    · exact deeper.trans (second _ line inside)
    · exact more _ _

theorem isStatement_body (body : Body) : ∀ line ∈ body.lines, isStatement line = false := by
  have empty : isStatement "" = false := by decide
  cases body with
  | keep => exact nofun
  | decide d =>
    intro line listed
    simp only [Body.lines, List.mem_append, List.mem_singleton] at listed
    rcases listed with (rfl | inside) | rfl
    · exact isStatement_indented 0 _
    · obtain ⟨rest, same⟩ := prefix_lines d step line inside
      refine isStatement_eq_false ?_
      rw [← same]
      exact nofun
    · exact empty
  | height level stone =>
    simp only [Body.lines, List.forall_mem_cons, List.not_mem_nil, false_implies, implies_true,
      and_true, isStatement_indented, empty]

/-- The line on which a registration begins. -/
def Registration.head (r : Registration) : String :=
  "luamap.register_noise(\"" ++ noiseName r.node ++ "\", \x7b"

/-- The line on which the definition of a helper begins. -/
def helperHead : Helper → String
  | .mandelbrot => "local function mandelbrot(x, z, steps)"
  | .gaussian => "local function gaussian(x, y, z, cx, cy, cz, spread)"

/-- The lines on which the statements of a script begin. -/
def statements (s : Script) : List String :=
  "luamap.set_singlenode()" :: (s.registrations.map Registration.head ++
    s.contents.map (fun c => contentLine c.1 c.2) ++ s.helpers.map helperHead ++
    ["local water_level = " ++ s.waterLevel, "local old_logic = luamap.logic"])

theorem prefix_append_append (a b c : String) : a.toList <+: (a ++ b ++ c).toList := by
  simp only [String.toList_append, List.append_assoc]
  exact List.prefix_append _ _

theorem prefix_head (r : Registration) :
    "luamap.register_noise(\"".toList <+: r.head.toList :=
  prefix_append_append _ (noiseName r.node) "\", \x7b"

theorem isStatement_head (r : Registration) : isStatement r.head = true :=
  isStatement_of_prefix _ (prefix_head r) (by decide +kernel)

theorem filter_registration (r : Registration) : r.lines.filter isStatement = [r.head] := by
  have split : r.lines = r.head :: r.lines.tail := rfl
  have close : isStatement "\x7d)" = false := by decide
  have empty : isStatement "" = false := by decide
  have others : ∀ line ∈ r.lines.tail, isStatement line = false := by
    simp only [Registration.lines, List.tail_cons, List.forall_mem_cons, List.not_mem_nil,
      false_implies, implies_true, and_true, isStatement_indented, close, empty]
  rw [split, List.filter_cons_of_pos (isStatement_head r),
    List.filter_eq_nil_iff.mpr fun line listed => by simp [others line listed]]

theorem isStatement_contentLine (slot name : String) :
    isStatement (contentLine slot name) = true := by
  simp only [contentLine, String.append_assoc]
  exact isStatement_append _ _ (by decide)

theorem filter_helper (h : Helper) : (h.lines ++ [""]).filter isStatement = [helperHead h] := by
  cases h <;> decide +kernel

theorem filter_eq_self_of_flatMap {α : Type} {f : α → List String} {head : α → String}
    (items : List α) (each : ∀ a, (f a).filter isStatement = [head a]) :
    (items.flatMap f).filter isStatement = items.map head := by
  rw [List.filter_flatMap, List.map_eq_flatMap]
  exact List.flatMap_congr fun a _ => each a

/-- Behind the header, the lines on which statements begin are those of the statements, in order. -/
theorem filter_tail (s : Script) : s.lines.tail.filter isStatement = s.statements := by
  have start : ["luamap.set_singlenode()", ""].filter isStatement =
      ["luamap.set_singlenode()"] := by decide
  have heading : ["-- Define content IDs"].filter isStatement = [] := by decide
  have empty : [""].filter isStatement = [] := by decide
  have contents : (s.contents.map fun c => contentLine c.1 c.2).filter isStatement =
      s.contents.map fun c => contentLine c.1 c.2 := by
    refine List.filter_eq_self.mpr (List.forall_mem_map.mpr fun c _ => ?_)
    exact isStatement_contentLine c.1 c.2
  have water : isStatement ("local water_level = " ++ s.waterLevel) = true :=
    isStatement_append _ _ (by decide)
  have rest : ["", "local old_logic = luamap.logic", ""].filter isStatement =
      ["local old_logic = luamap.logic"] := by decide
  have opens : ["function luamap.logic(noise_vals, x, y, z, seed, original_content)",
      indented 1 "-- Get any terrain defined in another mod",
      indented 1 "local content = old_logic(noise_vals, x, y, z, seed, original_content)",
      ""].filter isStatement = [] := by decide +kernel
  have body : s.body.lines.filter isStatement = [] :=
    List.filter_eq_nil_iff.mpr fun line listed => by simp [isStatement_body s.body line listed]
  have closes : [indented 1 "return content", "end", ""].filter isStatement = [] := by
    decide +kernel
  rw [tail_lines, preamble, logic, statements]
  simp only [List.filter_append, start, heading, empty, contents, opens, body, closes,
    filter_eq_self_of_flatMap _ filter_registration, filter_eq_self_of_flatMap _ filter_helper]
  rw [List.filter_cons, water, rest]
  simp

/-! ## 3. Noise fields and helpers -/

/-- Lines that begin like a statement are counted among the statements from which the others are
apart. -/
theorem countP_begins {s : Script} (a : String) {start : String} (statement : isStatement a = true)
    (ofStart : a.toList <+: start.toList) {before counted after : List String}
    (split : s.statements = before ++ counted ++ after)
    (others : ∀ line ∈ before ++ after, Apart a line) :
    s.lines.tail.countP (begins start) = counted.countP (begins start) := by
  have inside : s.lines.tail.countP (begins start) = s.statements.countP (begins start) := by
    rw [← filter_tail, List.countP_filter]
    refine List.countP_congr fun line _ => ?_
    simpa using fun begun =>
      isStatement_of_prefix a (ofStart.trans (begins_iff.mp begun)) statement
  have none : ∀ lines : List String, (∀ line ∈ lines, Apart a line) →
      lines.countP (begins start) = 0 := by
    intro lines apart
    refine List.countP_eq_zero.mpr fun line listed => ?_
    rw [(apart line listed).begins_eq_false ofStart]
    exact nofun
  obtain ⟨early, late⟩ := List.forall_mem_append.mp others
  rw [inside, split, List.countP_append, List.countP_append, none before early, none after late,
    Nat.zero_add, Nat.add_zero]

/-- Whether a line begins the registration of the noise field of a node. -/
def registers (node : Int) (line : String) : Bool :=
  begins ("luamap.register_noise(\"" ++ noiseName node ++ "\"") line

/-- Whether a line begins the definition of a helper. -/
def defines (h : Helper) (line : String) : Bool :=
  begins ("local function " ++ h.name ++ "(") line

theorem noiseName_injective {m n : Int} (same : noiseName m = noiseName n) : m = n := by
  have texts := congrArg String.toList same
  simp only [noiseName, String.toList_append] at texts
  exact integerText_injective (String.toList_inj.mp (List.append_cancel_left texts))

/-- Two lines that go on with a mark behind their names begin alike for one name only. -/
theorem begins_iff_eq (mark : Char) {start name other tail rest : String}
    (fresh : mark ∉ name.toList) (fresh' : mark ∉ other.toList)
    (marked : ∃ more, tail.toList = mark :: more) :
    begins (start ++ name ++ tail) (start ++ other ++ (tail ++ rest)) = true ↔ other = name := by
  obtain ⟨more, marked⟩ := marked
  rw [begins_iff]
  simp only [String.toList_append, List.append_assoc, List.prefix_append_right_inj, marked]
  constructor
  · rintro ⟨behind, same⟩
    rw [List.append_assoc] at same
    exact (String.toList_inj.mp (append_cons_inj fresh fresh' same).1).symm
  · rintro rfl
    exact ⟨rest.toList, by simp⟩

theorem registers_head (node : Int) (r : Registration) :
    registers node r.head = true ↔ r.node = node := by
  have quoteless : ∀ n, '"' ∉ (noiseName n).toList := fun n listed =>
    (unescaped_noiseName n _ listed).2.1 rfl
  have split : r.head = "luamap.register_noise(\"" ++ noiseName r.node ++ ("\"" ++ ", \x7b") := rfl
  rw [registers, split, begins_iff_eq '"' (quoteless _) (quoteless _) ⟨_, rfl⟩]
  exact ⟨noiseName_injective, congrArg _⟩

/-- A noise field is registered once. -/
theorem countP_registers {s : Script} (distinct : (s.registrations.map (·.node)).Nodup)
    {r : Registration} (listed : r ∈ s.registrations) :
    s.lines.tail.countP (registers r.node) = 1 := by
  have start : "luamap.r".toList <+:
      ("luamap.register_noise(\"" ++ noiseName r.node ++ "\"").toList :=
    (by decide : "luamap.r".toList <+: "luamap.register_noise(\"".toList).trans
      (prefix_append_append _ _ _)
  have split : s.statements = ["luamap.set_singlenode()"] ++
      s.registrations.map Registration.head ++ (s.contents.map (fun c => contentLine c.1 c.2) ++
      s.helpers.map helperHead ++
      ["local water_level = " ++ s.waterLevel, "local old_logic = luamap.logic"]) := by
    simp only [statements, List.append_assoc, List.cons_append, List.nil_append]
  have single : Apart "luamap.r" "luamap.set_singlenode()" := ⟨"luamap.s", by decide⟩
  have declared : ∀ line, "local ".toList <+: line.toList → Apart "luamap.r" line :=
    fun line begun => ⟨"local ", begun, by decide⟩
  calc s.lines.tail.countP (registers r.node)
      = (s.registrations.map Registration.head).countP (registers r.node) := by
        refine countP_begins "luamap.r" (by decide) start split ?_
        simp only [List.forall_mem_append, List.forall_mem_cons, List.forall_mem_map,
          List.not_mem_nil, false_implies, implies_true, and_true]
        refine ⟨single, ⟨fun c _ => ?_, fun h _ => ?_⟩, ?_, ?_⟩
        · exact declared _ (by simp [contentLine])
        · exact declared _ (by cases h <;> decide)
        · exact declared _ (by simp)
        · exact declared _ (by decide)
    _ = s.registrations.countP (fun other => registers r.node other.head) := by
        rw [List.countP_map]
        rfl
    _ = s.registrations.countP (fun other => other.node == r.node) :=
        List.countP_congr fun other _ => (registers_head r.node other).trans beq_iff_eq.symm
    _ = (s.registrations.map (·.node)).count r.node := by
        rw [List.count, List.countP_map]
        rfl
    _ = 1 := List.count_eq_one_of_mem distinct (List.mem_map_of_mem (f := (·.node)) listed)

/-- A helper is defined once, whatever else is local. -/
theorem countP_defines {s : Script} (distinct : s.helpers.Nodup)
    (locals : ∀ c ∈ s.contents, "c".toList <+: c.1.toList) {h : Helper} (listed : h ∈ s.helpers) :
    s.lines.tail.countP (defines h) = 1 := by
  have start : "local f".toList <+: ("local function " ++ h.name ++ "(").toList := by
    cases h <;> decide
  have named : ∀ other, defines h (helperHead other) = true ↔ (other == h) = true := by
    cases h <;> rintro ⟨⟩ <;> decide
  have split : s.statements =
      ("luamap.set_singlenode()" :: (s.registrations.map Registration.head ++
      s.contents.map (fun c => contentLine c.1 c.2))) ++ s.helpers.map helperHead ++
      ["local water_level = " ++ s.waterLevel, "local old_logic = luamap.logic"] := by
    simp only [statements, List.append_assoc, List.cons_append]
  calc s.lines.tail.countP (defines h)
      = (s.helpers.map helperHead).countP (defines h) := by
        refine countP_begins "local f" (by decide) start split ?_
        simp only [List.forall_mem_append, List.forall_mem_cons, List.forall_mem_map,
          List.not_mem_nil, false_implies, implies_true, and_true]
        refine ⟨⟨⟨"luamap.", by decide⟩, fun r _ => ?_, fun c listed => ?_⟩, ?_, ?_⟩
        · exact ⟨"luamap.register_noise(\"", prefix_head r, by decide⟩
        · refine ⟨"local c", ?_, by decide⟩
          obtain ⟨rest, same⟩ := locals c listed
          simp [contentLine, ← same]
        · exact apart_append _ _ (by decide)
        · exact ⟨"local o", by decide⟩
    _ = s.helpers.countP (fun other => defines h (helperHead other)) := by
        rw [List.countP_map]
        rfl
    _ = s.helpers.count h := List.countP_congr fun other _ => named other
    _ = 1 := List.count_eq_one_of_mem distinct listed

end Script

end Landform
