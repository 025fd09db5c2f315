import Landform.Proofs.Script.Bodies
import Landform.Proofs.Script.Renamed

/-!
# Nodes that do not feed the terrain output

A node that validation warns about leaves no trace in the body of the script, except that the locals
of other nodes may be called differently without it. It decides the form of the body when it is the
only comparison of the graph: without any comparison the body is a height.

1. `SameLogic`, `sameLogic_of_renamed`: bodies that agree up to the names of locals.
2. `renamed_of_alike`: the bodies of graphs that agree on what feeds their terrain output.
3. `Built.sameLogic`: the body without a node that validation warns about.
-/

namespace Landform

namespace Script

open Landform.Graph Lua

/-! ## 1. Bodies up to the names of locals -/

/-- The name that a local is declared for. -/
def nameOf (contents : Locals) (slot : String) : String :=
  (contents.get? slot).getD ""

/-- What the variables of a script stand for at a point: each noise field has a value, and a local
holds the content of the name that it is declared for. -/
def bindings (s : Script) (point : Point) (noise : Int → Float) : Env where
  point := point
  noise node := some (noise node)
  content := Table.get? s.contents

/-- Two scripts have the same logic: the instructions of their bodies differ at most in the locals
that stand for a name, and so they leave the same content behind at every point, for all values of
the noise fields, all ids of contents and every content to start with. -/
structure SameLogic (s s' : Script) : Prop where
  legible : Legible s
  legible' : Legible s'
  renamed : s.body.instructions.map (·.rename (nameOf s.contents)) =
    s'.body.instructions.map (·.rename (nameOf s'.contents))
  result_eq : ∀ point noise ids initial,
    result? (bindings s point noise) ids initial s.body.instructions =
      result? (bindings s' point noise) ids initial s'.body.instructions

theorem nameOf_eq {contents : Locals} (functional : Table.Functional contents)
    {slot name : String} (listed : (slot, name) ∈ contents) : nameOf contents slot = name := by
  rw [nameOf, functional.get?_iff.mpr listed, Option.getD_some]

/-- A script declares each of its locals for one name. -/
theorem functional_of_ofGraph {g : Graph} {options : Options} {s : Script}
    (made : ofGraph g options = .ok s) : Table.Functional s.contents :=
  (contents_eq made).1 ▸ Locals.functional_claims _

section Names

variable {g : Graph} (distinct : g.ids.Nodup) {options : Options} {s : Script}
  (made : ofGraph g options = .ok s)

include distinct made

theorem nameOf_terrain {n : Node} (member : n ∈ g.nodes) {t : Terrain}
    (params : n.params = .terrainType t) :
    nameOf s.contents (contentsOf (assignment g).slots n) = t.name :=
  nameOf_eq (functional_of_ofGraph made) ((binds_ofGraph distinct made).terrain n member t params)

theorem nameOf_water : nameOf s.contents "c_water" = "default:water_source" :=
  nameOf_eq (functional_of_ofGraph made) (binds_ofGraph distinct made).water

theorem nameOf_stone {level : Expr} {stone : String} (body : s.body = .height level stone) :
    nameOf s.contents stone = "default:stone" :=
  nameOf_eq (functional_of_ofGraph made) ((binds_ofGraph distinct made).stone _ _ body)

end Names

/-- Replacing every local by its name leaves the result of a body as it is. -/
theorem result?_rename {s : Script} (functional : Table.Functional s.contents)
    (legible : Legible s) (point : Point) (noise : Int → Float) (ids : String → Float)
    (initial : Meaning) :
    result? { bindings s point noise with content := some } ids initial
        (s.body.instructions.map (·.rename (nameOf s.contents))) =
      result? (bindings s point noise) ids initial s.body.instructions := by
  have same : ∀ i ∈ s.body.instructions, ∀ slot ∈ i.names,
      some (nameOf s.contents slot) = (bindings s point noise).content slot := by
    intro i listed slot read
    obtain ⟨name, declared⟩ := legible.known i listed slot read
    rw [nameOf_eq functional declared]
    exact (functional.get?_iff.mpr declared).symm
  rw [result?, result?, execute_rename _ _ _ same]

theorem sameLogic_of_renamed {s s' : Script} (functional : Table.Functional s.contents)
    (functional' : Table.Functional s'.contents) (legible : Legible s) (legible' : Legible s')
    (renamed : s.body.instructions.map (·.rename (nameOf s.contents)) =
      s'.body.instructions.map (·.rename (nameOf s'.contents))) : SameLogic s s' := by
  refine ⟨legible, legible', renamed, fun point noise ids initial => ?_⟩
  rw [← result?_rename functional legible, ← result?_rename functional' legible', renamed]
  rfl

theorem Body.rename_decide (f : String → String) (d : Decision) :
    (Body.decide d).instructions.map (·.rename f) = (Body.decide (d.rename f)).instructions := by
  simp only [instructions, program, d.statements_rename, List.map_cons, List.map_append,
    List.map_map, List.map_nil]
  rfl

theorem Body.renamed_height {f f' : String → String} {level level' : Expr} {stone stone' : String}
    (levels : level.rename f = level'.rename f') (water : f "c_water" = f' "c_water")
    (stones : f stone = f' stone') :
    (Body.height level stone).instructions.map (·.rename f) =
      (Body.height level' stone').instructions.map (·.rename f') := by
  simp only [instructions, List.map_cons, List.map_nil, Instruction.rename, Statement.map,
    Expr.rename, levels, water, stones]

/-! ## 2. Graphs that agree -/

theorem renamed_of_alike {g g' : Graph} {o : Node} (alike : g.Alike g' (g.Upstream o.id))
    (sound : g.Sound) (sound' : g'.Sound) (found : g.output? = some o)
    (found' : g'.output? = some o) (compares : hasComparison g' = hasComparison g)
    {options : Options} {s s' : Script} (made : ofGraph g options = .ok s)
    (made' : ofGraph g' options = .ok s') :
    s.body.instructions.map (·.rename (nameOf s.contents)) =
      s'.body.instructions.map (·.rename (nameOf s'.contents)) := by
  obtain ⟨member, _⟩ := mem_nodes_of_output? found
  have inside : g.Upstream o.id o.id := .refl
  have declared : PortSpec.input "in" "Terrain" .terrain false ∈ o.kind.inputs :=
    inputs_of_output? found ▸ List.mem_singleton_self _
  have same : ∀ n ∈ g.nodes, g.Upstream o.id n.id → ∀ t, n.params = .terrainType t →
      nameOf s.contents (contentsOf (assignment g).slots n) =
        nameOf s'.contents (contentsOf (assignment g').slots n) := by
    intro n member upstream t params
    rw [nameOf_terrain sound.ids_distinct made member params,
      nameOf_terrain sound'.ids_distinct made' (alike.nodes n member upstream) params]
  have listed : (PortSpec.input "in" "Terrain" .terrain false).bind o.id ∈ o.inputs :=
    List.mem_map_of_mem declared
  have sources := source_eq alike sound sound' member inside listed
  have emitted := emitted_of_ofGraph found made
  have emitted' := emitted_of_ofGraph found' made'
  generalize ofBody : s.body = body at emitted ⊢
  generalize ofBody' : s'.body = body' at emitted' ⊢
  cases emitted with
  | keep holds source =>
    cases emitted' with
    | keep _ _ => rfl
    | decide _ source' _ => cases source.symm.trans (sources.symm.trans source')
    | height fails _ => cases holds.symm.trans (compares.symm.trans fails)
  | decide holds source decided =>
    cases emitted' with
    | keep _ source' => cases source.symm.trans (sources.symm.trans source')
    | height fails _ => cases holds.symm.trans (compares.symm.trans fails)
    | decide _ source' decided' =>
      cases source.symm.trans (sources.symm.trans source')
      obtain ⟨member', feeds⟩ := sound.feeds_of_behind member listed source
      have decisions := decision_renamed alike sound sound' same member'
        (alike.closed _ _ feeds inside)
      rw [decided, decided'] at decisions
      rw [Body.rename_decide, Body.rename_decide]
      exact congrArg (fun d => (Body.decide d).instructions) (Except.ok.inj decisions)
  | height fails level =>
    cases emitted' with
    | keep holds _ | decide holds _ _ => cases fails.symm.trans (compares.symm.trans holds)
    | height _ level' =>
      have levels : (inputExpr g.wiring _ o "in").map (·.rename (nameOf s.contents)) =
          (inputExpr g'.wiring _ o "in").map (·.rename (nameOf s'.contents)) :=
        inputExpr_renamed alike sound sound' same member inside declared
      rw [level, level'] at levels
      refine Body.renamed_height (Except.ok.inj levels) ?_ ?_
      · rw [nameOf_water sound.ids_distinct made, nameOf_water sound'.ids_distinct made']
      · rw [nameOf_stone sound.ids_distinct made ofBody,
          nameOf_stone sound'.ids_distinct made' ofBody']

/-! ## 3. Removing a node -/

/-- Code that can be used is the text of a script. -/
theorem script_of_compile {g : Graph} {options : Options} {c : Compiled}
    (compiled : compile g options = .ok c) (valid : c.isValid = true) :
    ∃ script, ofGraph g options = .ok script ∧ c.code = some script.render := by
  obtain ⟨findings, _, compiled⟩ := Except.bind_eq_ok.mp compiled
  dsimp only at compiled
  split at compiled
  · cases compiled
    cases valid
  · cases made : ofGraph g options with
    | error cause =>
      rw [made] at compiled
      cases compiled
      cases valid
    | ok script =>
      rw [made] at compiled
      cases compiled
      exact ⟨script, rfl, rfl⟩

/-- The name whose content the script of a graph leaves behind at a point. -/
def leaves? (g : Graph) (options : Options) (point : Point) (noise : Int → Float)
    (ids : String → Float) (initial : Meaning) : Option String := do
  let s ← (ofGraph g options).toOption
  let v ← result? (bindings s point noise) ids initial s.body.instructions
  v.name?

theorem result?_of_leaves {g : Graph} {options : Options} {point : Point} {noise : Int → Float}
    {ids : String → Float} {initial : Meaning} {name : String} {script : Script}
    (made : ofGraph g options = .ok script)
    (left : leaves? g options point noise ids initial = some name) :
    result? (bindings script point noise) ids initial script.body.instructions =
      some (.content name) := by
  rw [leaves?, made] at left
  obtain ⟨s, same, left⟩ := Option.bind_eq_some_iff.mp left
  cases same
  obtain ⟨v, final, named⟩ := Option.bind_eq_some_iff.mp left
  rw [final, Meaning.name?_eq_some.mp named]

end Script

namespace Graph

open Script Lua

/-- The code of a valid graph can be used, and it is the text of a legible script. -/
theorem Built.exists_legible {g : Graph} (built : g.Built) (valid : g.findings.isValid = true)
    (level : Float) : ∃ c script, compile g ⟨.float level, Options.default.header⟩ = .ok c ∧
      c.isValid = true ∧ ofGraph g ⟨.float level, Options.default.header⟩ = .ok script ∧
      c.code = some script.render ∧ Legible script := by
  have sound := built.reachable.sound
  have header : Lua.Tallied ["-- Luamap generated terrain"] 0 := .comment (by decide)
  obtain ⟨c, compiles⟩ := compile_ok sound level header
  obtain ⟨script, made, code, _⟩ := compiles.code valid
  obtain ⟨o, _, _, found, _⟩ := (sound.wired (List.isEmpty_iff.mp valid)).source sound
  exact ⟨c, script, compiles.compiled, compiles.isValid_eq.trans valid, made, code,
    legible_of_ofGraph sound found made built.ids_nonneg⟩

/-- A node that validation warns about can be removed without a change to the logic of the script,
unless it is the only comparison of the graph. -/
theorem Built.sameLogic {g : Graph} (built : g.Built) {options : Options} {findings : Findings}
    (validated : g.validate = .ok findings) {w : Warning} (warned : w ∈ findings.warnings)
    {c c' : Compiled} (compiled : compile g options = .ok c) (valid : c.isValid = true)
    (compiled' : compile ((Mutation.remove w.node).apply g) options = .ok c')
    (valid' : c'.isValid = true)
    (compares : hasComparison g = true →
      hasComparison ((Mutation.remove w.node).apply g) = true) :
    ∃ script script', ofGraph g options = .ok script ∧ c.code = some script.render ∧
      ofGraph ((Mutation.remove w.node).apply g) options = .ok script' ∧
      c'.code = some script'.render ∧ SameLogic script script' := by
  have sound := built.reachable.sound
  have built' := built.mutate (.remove w.node)
  have sound' := built'.reachable.sound
  cases sound.validate_eq.symm.trans validated
  obtain ⟨_, kept, o, found, found', alike⟩ := sound.remove_warning warned
  obtain ⟨script, made, code⟩ := script_of_compile compiled valid
  obtain ⟨script', made', code'⟩ := script_of_compile compiled' valid'
  refine ⟨script, script', made, code, made', code', ?_⟩
  generalize (Mutation.remove w.node).apply g = g' at *
  have fewer : ∀ n ∈ g'.nodes, n ∈ g.nodes := fun n member =>
    List.mem_of_mem_filter (kept ▸ member)
  have same : hasComparison g' = hasComparison g := by
    refine Bool.eq_iff_iff.mpr ⟨fun holds => ?_, compares⟩
    obtain ⟨n, member, kind⟩ := List.any_eq_true.mp holds
    exact List.any_eq_true.mpr ⟨n, fewer n member, kind⟩
  exact sameLogic_of_renamed (functional_of_ofGraph made) (functional_of_ofGraph made')
    (legible_of_ofGraph sound found made built.ids_nonneg)
    (legible_of_ofGraph sound' found' made' built'.ids_nonneg)
    (renamed_of_alike alike sound sound' found found' same made made')

/-- Two terrains that fall together as identifiers, of which the second one is used by a
comparison. -/
def crowded : Graph :=
  [Mutation.add "terrain-type" (.int 0) (.int 0), .add "terrain-type" (.int 0) (.int 9),
    .add "position" (.int 0) (.int 18), .add "compare" (.int 9) (.int 9),
    .add "terrain-output" (.int 18) (.int 9), .update 1 [("name", .text "rock a")],
    .update 2 [("name", .text "rock_a")], .connect "3_outY" "4_in1", .connect "3_outX" "4_in2",
    .connect "2_out" "4_useTrue", .connect "4_out" "5_in"].foldl Mutation.apply (empty 7)

theorem crowded_built : crowded.Built :=
  (Built.empty 7).run _

/-- Without the first terrain, the second one has a shorter local. -/
theorem crowded_sameLogic : (Mutation.remove 1).succeeds crowded = true ∧
    ∃ findings script script', crowded.validate = .ok findings ∧
      ⟨1, .terrainType⟩ ∈ findings.warnings ∧
      ofGraph crowded ⟨.float 1.5, Options.default.header⟩ = .ok script ∧
      ("c_rock_a_2", "rock_a") ∈ script.contents ∧
      ofGraph ((Mutation.remove 1).apply crowded) ⟨.float 1.5, Options.default.header⟩ =
        .ok script' ∧
      ("c_rock_a", "rock_a") ∈ script'.contents ∧ SameLogic script script' := by
  have validated := crowded_built.reachable.sound.validate_eq
  have built' : ((Mutation.remove 1).apply crowded).Built := crowded_built.run [.remove 1]
  have warned : (⟨1, .terrainType⟩ : Warning) ∈ crowded.findings.warnings := by decide +kernel
  have compares : hasComparison ((Mutation.remove 1).apply crowded) = true := by decide +kernel
  have asked : wishes crowded = [⟨"c_air", "air", "_1"⟩,
      ⟨"c_water", "default:water_source", "_1"⟩, ⟨"c_rock_a", "rock a", "_1"⟩,
      ⟨"c_rock_a", "rock_a", "_2"⟩] := by
    decide +kernel
  have asked' : wishes ((Mutation.remove 1).apply crowded) = [⟨"c_air", "air", "_1"⟩,
      ⟨"c_water", "default:water_source", "_1"⟩, ⟨"c_rock_a", "rock_a", "_2"⟩] := by
    decide +kernel
  obtain ⟨c, _, compiled, valid, _⟩ := crowded_built.exists_legible (by decide +kernel) 1.5
  obtain ⟨c', _, compiled', valid', _⟩ := built'.exists_legible (by decide +kernel) 1.5
  obtain ⟨script, script', made, _, made', _, same⟩ := crowded_built.sameLogic validated warned
    compiled valid compiled' valid' fun _ => compares
  refine ⟨by decide +kernel, _, script, script', validated, warned, made, ?_, made', ?_, same⟩
  · rw [(contents_eq made).1, asked]
    decide +kernel
  · rw [(contents_eq made').1, asked']
    decide +kernel

/-- A terrain, its output, and a comparison that nothing uses. -/
def lone : Graph :=
  [Mutation.add "position" (.int 0) (.int 0), .add "compare" (.int 9) (.int 0),
    .add "terrain-type" (.int 0) (.int 9), .add "terrain-output" (.int 9) (.int 9),
    .connect "1_outX" "2_in1", .connect "1_outY" "2_in2",
    .connect "3_out" "4_in"].foldl Mutation.apply (empty 7)

theorem lone_built : lone.Built :=
  (Built.empty 7).run _

/-- Without its only comparison, the script does not put the terrain at a place above the id of the
terrain, though validation warns about the comparison. The ids are the lengths of the names. -/
theorem lone_logic : lone.Built ∧ (Mutation.remove 2).succeeds lone = true ∧
    ∃ findings c c' script script', lone.validate = .ok findings ∧
      ⟨2, .compare⟩ ∈ findings.warnings ∧
      compile lone ⟨.float 1.5, Options.default.header⟩ = .ok c ∧ c.isValid = true ∧
      compile ((Mutation.remove 2).apply lone) ⟨.float 1.5, Options.default.header⟩ = .ok c' ∧
      c'.isValid = true ∧ c.code = some script.render ∧ Legible script ∧
      c'.code = some script'.render ∧ Legible script' ∧
      result? (bindings script ⟨0, 7, 0⟩ fun _ => 0) (·.length.toFloat) (.content "air")
        script.body.instructions = some (.content "Stone") ∧
      result? (bindings script' ⟨0, 7, 0⟩ fun _ => 0) (·.length.toFloat) (.content "air")
        script'.body.instructions = some (.content "air") := by
  have built' : ((Mutation.remove 2).apply lone).Built := lone_built.run [.remove 2]
  obtain ⟨c, script, compiled, valid, made, code, legible⟩ :=
    lone_built.exists_legible (by decide +kernel) 1.5
  obtain ⟨c', script', compiled', valid', made', code', legible'⟩ :=
    built'.exists_legible (by decide +kernel) 1.5
  exact ⟨lone_built, by decide +kernel, _, c, c', script, script',
    lone_built.reachable.sound.validate_eq, by decide +kernel, compiled, valid, compiled', valid',
    code, legible, code', legible', result?_of_leaves made (by decide +kernel),
    result?_of_leaves made' (by decide +kernel)⟩

end Graph

end Landform
