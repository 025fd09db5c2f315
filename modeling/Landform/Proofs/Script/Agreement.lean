import Landform.Proofs.Lua.Statements
import Landform.Proofs.Script.Declared
import Landform.Proofs.Script.Grouping
import Landform.Proofs.Script.Values

/-!
# Scripts decide what evaluation gives

Evaluation pulls signals through guards, one branch at a time; emission writes out both branches of
every comparison as text and reads locals. On a valid graph the two make the same choice at every
depth. By induction on the rank of a terrain output, the decision of its node delivers what its
signal says: the content of a terrain's name, or the number of the branch that is open. The lines
inside the function of the script are read as statements, and running them gives the terrain at the
point.

1. `Delivers`: what code assigns for a signal.
2. `needed_decided`: the decisions of the nodes on which the terrain depends.
3. `writes_program`, `run_program`, `ofGraph_decides`: the lines of a script that decides.
4. `Built.script_agrees`: what running them gives.
-/

namespace Landform

namespace Script

open Landform.Graph Lua

variable {g : Graph} {limit : DepthLimit} {point : Point}

/-! ## 1. Signals and contents -/

/-- What code assigns where evaluation gives a signal: the content of the terrain's name, or the
number of the open branch at which the way from the node ends. -/
inductive Delivers (g : Graph) (limit : DepthLimit) (point : Point) (n : Node) :
    Signal → Meaning → Prop
  | terrain (t : Terrain) : Delivers g limit point n (.terrain t) (.content t.name)
  | number {x : Float} : OpenEnd g limit point n x → Delivers g limit point n (.number x) (.real x)

/-- A comparison delivers what the node behind the taken branch delivers. -/
theorem Delivers.there {n m : Node} {q : Port} {test : Test} {taken : Bool} {signal : Signal}
    {v : Meaning} (params : n.params = .compare test)
    (decides : g.taken? limit point n test = some taken)
    (behind : g.behind? n.id (test.branch taken).1 = some (m, q))
    (delivers : Delivers g limit point m signal v) : Delivers g limit point n signal v := by
  cases delivers with
  | terrain t => exact .terrain t
  | number ends => exact .number (.there params decides behind ends)

/-! ## 2. Decisions -/

variable (sound : g.Sound) (contents : Contents)

include sound

/-- The decision of a branch is that of the node behind it, or assigns the number of the branch. -/
theorem branchOf_eq {n : Node} {role : String} (fallback : Float) :
    branchOf g contents [] n role fallback =
      match g.behind? n.id role with
      | none => .ok (.assign (.number fallback))
      | some (m, _) => decision g.wiring contents [] m.id := by
  cases behind : g.behind? n.id role with
  | none => rw [branchOf, sound.behind?_eq_none.mp behind]; rfl
  | some entry =>
    obtain ⟨c, incoming, found⟩ := Option.bind_eq_some_iff.mp behind
    have owner : ((g.wiring.incoming? (portId n.id role)).bind fun c => g.wiring.owner? c.source) =
        some entry.1 := by
      rw [incoming, Option.bind_some, Wiring.owner?, found]
      rfl
    rw [branchOf, owner]

/-- A node has a decision that delivers the signal of one of its outputs. -/
def Decided (g : Graph) (contents : Contents) (env : Env) (limit : DepthLimit) (point : Point)
    (n : Node) (p : Port) : Prop :=
  ∃ d v, decision g.wiring contents [] n.id = .ok d ∧ d.outcome? env = some v ∧
    Delivers g limit point n (g.portSignal limit p.id point) v

variable (deep : limit.isExceeded g.nodes.length = false)

include deep

/-- A terrain node assigns its local. -/
theorem terrain_decided {n : Node} {p : Port} {t : Terrain} {env : Env} (member : n ∈ g.nodes)
    (port : p ∈ n.outputs) (params : n.params = .terrainType t)
    (known : env.content (contents n) = some t.name) : Decided g contents env limit point n p := by
  have other : n.kind ≠ .compare := by
    intro compares
    rw [Node.kind, params] at compares
    cases compares
  have emitted : decision g.wiring contents [] n.id = .ok (.assign (.name (contents n))) := by
    rw [decision_other sound contents member other, nodeExpr, rule, params]
    rfl
  have carried : g.portSignal limit p.id point = .terrain t := by
    rw [deep_output sound point deep member port, ruleSignal?, params]
    rfl
  refine ⟨_, .content t.name, emitted, ?_, carried ▸ .terrain t⟩
  rw [Decision.outcome?, Expr.meaning?, known]
  rfl

/-- The decision of the taken branch of a comparison delivers the signal of the comparison. -/
theorem branch_delivers {n : Node} {p : Port} {test : Test} {env : Env} (member : n ∈ g.nodes)
    (port : p ∈ n.outputs) (params : n.params = .compare test) {taken : Bool}
    (decides : g.taken? limit point n test = some taken)
    (next : ∀ {m q}, g.behind? n.id (test.branch taken).1 = some (m, q) → q.kind = .terrain →
      g.rank q.id < g.rank p.id → Decided g contents env limit point m q)
    {d : Decision}
    (emitted : branchOf g contents [] n (test.branch taken).1 (test.branch taken).2 = .ok d) :
    ∃ v, d.outcome? env = some v ∧ Delivers g limit point n (g.portSignal limit p.id point) v := by
  have signal := portSignal_compare sound point deep member port params decides
  rw [branchOf_eq sound] at emitted
  cases behind : g.behind? n.id (test.branch taken).1 with
  | none =>
    rw [behind] at emitted
    cases emitted
    have unconnected : g.wiring.isConnected n (test.branch taken).1 = false := by
      rw [Wiring.isConnected, sound.behind?_eq_none.mp behind]
      rfl
    rw [signal, if_neg (by simp [unconnected])]
    exact ⟨_, rfl, .number (.here params decides behind)⟩
  | some entry =>
    obtain ⟨m, q⟩ := entry
    obtain ⟨spec, declared, role, kind⟩ := branch_declared params taken
    obtain ⟨c, incoming, _⟩ := Option.bind_eq_some_iff.mp behind
    have connected : g.wiring.isConnected n (test.branch taken).1 = true := by
      rw [Wiring.isConnected, incoming]
      rfl
    have feeding : g.Feeding n spec m q := sound.feeding member declared (role ▸ behind)
    obtain ⟨d', v, known, outcome, delivers⟩ :=
      next behind (feeding.kind_eq.trans kind) (feeding.rank_lt p port)
    rw [behind] at emitted
    cases known.symm.trans emitted
    rw [signal, if_pos connected, ← role, deep_behind sound point deep feeding]
    exact ⟨v, outcome, delivers.there params decides behind⟩

variable (flawless : g.Flawless limit point) (declared : Table String)

include flawless

/-- A comparison is decided when what is behind the taken branch is. -/
theorem compare_decided {n : Node} {p : Port} {test : Test} (needed : g.Needed limit point n p)
    (params : n.params = .compare test)
    (next : ∀ {m q}, g.Needed limit point m q → q.kind = .terrain → g.rank q.id < g.rank p.id →
      Decided g contents (environment g declared limit point) limit point m q) :
    Decided g contents (environment g declared limit point) limit point n p := by
  obtain ⟨member, port⟩ := needed.output sound
  obtain ⟨first, second⟩ := Node.compared_mem_inputs (Node.kind_of_compare params)
  obtain ⟨x, ofLeft, left, emitLeft, numberLeft⟩ :=
    inputExpr_stands sound deep flawless.firm contents declared member needed first rfl
  obtain ⟨y, ofRight, right, emitRight, numberRight⟩ :=
    inputExpr_stands sound deep flawless.firm contents declared member needed second rfl
  have decides : g.taken? limit point n test = some (test.operator.holds x y) :=
    congrArg₂ test.operator.decide? ofLeft ofRight
  -- both branches have a decision, but only the taken one has to deliver anything
  have branch : ∀ role fallback,
      Decides (fun _ => True) (branchOf g contents [] n role fallback) :=
    branchOf_ok sound contents (fun _ _ _ _ => trivial) n
  obtain ⟨ifTrue, emitTrue, _⟩ := branch "useTrue" test.useTrue
  obtain ⟨ifFalse, emitFalse, _⟩ := branch "useFalse" test.useFalse
  have emitted : decision g.wiring contents [] n.id =
      .ok (.choose n.id left test.operator right ifTrue ifFalse) := by
    have emitLeft : inputExpr g.wiring contents n "in1" = .ok left := emitLeft
    have emitRight : inputExpr g.wiring contents n "in2" = .ok right := emitRight
    rw [decision_compare sound contents member params, emitLeft, emitRight, emitTrue, emitFalse]
    rfl
  have taken : ∃ v, (if test.operator.holds x y then ifTrue else ifFalse).outcome?
      (environment g declared limit point) = some v ∧
      Delivers g limit point n (g.portSignal limit p.id point) v := by
    refine branch_delivers sound contents deep member port params decides
      (fun behind => next (.branch needed params decides behind)) ?_
    cases test.operator.holds x y
    · exact emitFalse
    · exact emitTrue
  obtain ⟨v, outcome, delivers⟩ := taken
  exact ⟨_, v, emitted, (Decision.outcome?_choose numberLeft numberRight).trans outcome, delivers⟩

/-- Every terrain output on which the terrain at a point depends is decided. -/
theorem needed_decided
    (named : ∀ n ∈ g.nodes, ∀ t, n.params = .terrainType t →
      declared.get? (contents n) = some t.name)
    {n : Node} {p : Port} (needed : g.Needed limit point n p) (terrain : p.kind = .terrain) :
    Decided g contents (environment g declared limit point) limit point n p := by
  induction rank : g.rank p.id using Nat.strong_induction_on generalizing n p with
  | _ rank ih =>
    subst rank
    obtain ⟨member, port⟩ := needed.output sound
    rcases Node.terrain_or_compare port terrain with ⟨t, params⟩ | ⟨test, params⟩
    · exact terrain_decided sound contents deep member port params (named n member t params)
    · exact compare_decided sound contents deep flawless declared needed params
        fun needed terrain lower => ih _ lower needed terrain rfl

omit sound deep flawless

/-! ## 3. Lines -/

/-- The statements of a body that decides. -/
def program (d : Decision) : List (Statement Expr) :=
  .comment " Terrain evaluation" :: (d.statements ++ [.blank])

/-- The lines of a body that decides are written for its statements. -/
theorem writes_program {d : Decision} (grouped : d.Grouped) :
    List.Forall₂ Writes (Body.decide d).lines (program d) := by
  have comment : Writes (indented 1 "-- Terrain evaluation") (.comment " Terrain evaluation") :=
    ⟨⟨4, rfl⟩, by simp [Statement.Grouped]⟩
  have blank : Writes "" .blank := ⟨⟨0, rfl⟩, trivial⟩
  exact .cons comment (List.rel_append (d.writes_lines grouped 4) (.cons blank .nil))

/-- A body that decides assigns the outcome of its decision, whatever the content was before. -/
theorem run_program {env : Env} {d : Decision} {v : Meaning} (outcome : d.outcome? env = some v)
    (initial : Meaning) : Lua.run (Expr.meaning? env) ⟨initial, []⟩ (program d) = some ⟨v, []⟩ := by
  rw [program, run_cons rfl, Decision.run_statements env d rfl outcome, run_cons rfl, Lua.run]

/-- With a comparison, the script of a graph decides by the node behind the terrain output. -/
theorem ofGraph_decides {o n : Node} {p : Port} (output : g.output? = some o)
    (behind : g.behind? o.id "in" = some (n, p)) (compares : hasComparison g = true) {d : Decision}
    (decided : decision g.wiring (contentsOf (assignment g).slots) [] n.id = .ok d)
    {options : Options} {level header : String}
    (waterLevel : numberOf options.waterLevel = .ok level)
    (text : headerText options.header = .ok header) :
    ∃ script, ofGraph g options = .ok script ∧ script.contents = (assignment g).declared ∧
      script.body = .decide d := by
  obtain ⟨c, incoming, found⟩ := Option.bind_eq_some_iff.mp behind
  have source : ((g.wiring.incoming? (portId o.id "in")).bind fun c => g.wiring.owner? c.source) =
      some n := by
    rw [incoming, Option.bind_some, Wiring.owner?, found]
    rfl
  have body : bodyOf g (assignment g) = .ok (.decide d, (assignment g).declared) := by
    rw [bodyOf, output]
    dsimp only
    rw [if_pos compares, source]
    dsimp only
    rw [decided]
    rfl
  refine ⟨⟨header, g.nodes.filterMap registration?, (assignment g).declared, helpersOf g, level,
    .decide d⟩, ?_, rfl, rfl⟩
  rw [ofGraph, body, waterLevel, text]
  rfl

/-! ## 4. Agreement -/

/-- A script agrees with evaluation at a point. Its locals stand for the names that they are
declared for, on lines that fetch the content of the name. The lines inside the function
`luamap.logic` read as statements that, whatever the content was before, assign the content of the
terrain's name. Where there is no terrain, they assign the number of the branch that is open. -/
structure Agrees (g : Graph) (limit : DepthLimit) (point : Point) (script : Script) : Prop where
  locals : ∀ slot name, (slot, name) ∈ script.contents ↔
    (environment g script.contents limit point).content slot = some name
  declared : ∀ slot name, Slot slot →
    ((environment g script.contents limit point).content slot = some name ↔
      ∃ line ∈ script.lines.tail, declares slot line = true ∧ fetches name line = true)
  runs : ∃ before body statements final,
    script.lines = before ++
      ["function luamap.logic(noise_vals, x, y, z, seed, original_content)",
        "    -- Get any terrain defined in another mod",
        "    local content = old_logic(noise_vals, x, y, z, seed, original_content)", ""] ++
      body ++ ["    return content", "end", ""] ∧
    List.Forall₂ Lua.Reads body statements ∧
    (∀ initial, Lua.run (Reading.value? (environment g script.contents limit point))
      ⟨initial, []⟩ statements = some ⟨final, []⟩) ∧
    (∀ t, g.terrainAt limit point = some t → final = .content t.name) ∧
    (g.terrainAt limit point = none → ∃ o n p x, g.output? = some o ∧
      g.behind? o.id "in" = some (n, p) ∧ g.OpenEnd limit point n x ∧ final = .real x)

/-- The lines of a body stand inside the function of a script. -/
theorem lines_logic (s : Script) : ∃ before, s.lines = before ++
    ["function luamap.logic(noise_vals, x, y, z, seed, original_content)",
      "    -- Get any terrain defined in another mod",
      "    local content = old_logic(noise_vals, x, y, z, seed, original_content)", ""] ++
    s.body.lines ++ ["    return content", "end", ""] := by
  have depth : indented 1 "-- Get any terrain defined in another mod" =
      "    -- Get any terrain defined in another mod" ∧
      indented 1 "local content = old_logic(noise_vals, x, y, z, seed, original_content)" =
        "    local content = old_logic(noise_vals, x, y, z, seed, original_content)" ∧
      indented 1 "return content" = "    return content" := by
    decide
  refine ⟨s.header :: s.preamble, ?_⟩
  rw [lines_eq, logic, depth.1, depth.2.1, depth.2.2, ← List.cons_append]
  simp only [List.append_assoc]

end Script

namespace Graph

open Script

/-- The script of a valid graph with a comparison agrees with evaluation at every point where no
rule fails, within every limit that admits as many connections as there are nodes. -/
theorem Built.script_agrees {g : Graph} (built : g.Built) (valid : g.findings.isValid = true)
    (compares : hasComparison g = true) {limit : DepthLimit}
    (deep : limit.isExceeded g.nodes.length = false) {point : Point}
    (flawless : g.Flawless limit point) {options : Options} {level header : String}
    (waterLevel : Lua.numberOf options.waterLevel = .ok level)
    (text : headerText options.header = .ok header) :
    ∃ script, ofGraph g options = .ok script ∧ Agrees g limit point script := by
  have sound := built.reachable.sound
  have natural : ∀ n ∈ g.nodes, 0 ≤ n.id := fun n member => Int.le_of_lt (built.ids_pos.2 n member)
  obtain ⟨o, n, p, output, behind, terrain⟩ :=
    (sound.wired (List.isEmpty_iff.mp valid)).source sound
  have known : ∀ n ∈ g.nodes, ∀ t, n.params = .terrainType t →
      (assignment g).declared.get? (contentsOf (assignment g).slots n) = some t.name :=
    fun n member t params => contentsOf_eq (assignment_knows sound.ids_distinct member params)
  have needed : g.Needed limit point n p := .terrain output behind
  obtain ⟨d, v, decided, outcome, delivers⟩ := needed_decided sound _ deep flawless
    (assignment g).declared known needed terrain
  obtain ⟨script, made, contents, body⟩ :=
    ofGraph_decides output behind compares decided waterLevel text
  have grouped := decision_grouped sound natural (isContentLocal_contentsOf natural)
    (needed.output sound).1 d decided
  have signal := terrainAt_eq sound point deep output behind
  generalize g.portSignal limit p.id point = carried at delivers signal
  have locals : ∀ slot name, (slot, name) ∈ script.contents ↔
      (environment g script.contents limit point).content slot = some name := fun slot name => by
    rw [contents]
    exact (functional_assignment g).get?_iff.symm
  obtain ⟨before, placed⟩ := lines_logic script
  obtain ⟨statements, reads, runs⟩ := Lua.exists_readings (writes_program grouped)
  refine ⟨script, made, locals, fun slot name form => ?_, before, script.body.lines, statements, v,
    placed, ?_, fun initial => ?_, ?_, ?_⟩
  · rw [← locals]
    exact mem_contents_iff (slot_contents made) form
  · rw [body]
    exact reads
  · rw [contents]
    exact runs (run_program outcome initial)
  · intro t given
    rw [signal] at given
    cases delivers with
    | terrain t' =>
      cases given
      rfl
    | number _ => cases given
  · intro none
    rw [signal] at none
    cases delivers with
    | terrain _ => cases none
    | number ends => exact ⟨o, n, p, _, output, behind, ends, rfl⟩

/-- Stone where the height is less than the first coordinate, and an open branch elsewhere. -/
def slope : Graph :=
  [Mutation.add "position" (.int 0) (.int 0), .add "compare" (.int 9) (.int 0),
    .add "terrain-type" (.int 9) (.int 9), .add "terrain-output" (.int 18) (.int 0),
    .connect "1_outY" "2_in1", .connect "1_outX" "2_in2", .connect "3_out" "2_useTrue",
    .connect "2_out" "4_in"].foldl Mutation.apply (empty 7)

theorem slope_built : slope.Built :=
  (Built.empty 7).run _

/-- A point on each side of the slope, where evaluation gives stone and nothing. -/
theorem slope_agrees :
    slope.terrainAt (some 4) ⟨3, 2, 1⟩ = some ⟨"Stone", .solid, "#888888"⟩ ∧
    slope.terrainAt (some 4) ⟨1, 2, 3⟩ = none ∧
    (∃ script, ofGraph slope Options.default = .ok script ∧
      Agrees slope (some 4) ⟨3, 2, 1⟩ script) ∧
    ∃ script, ofGraph slope Options.default = .ok script ∧
      Agrees slope (some 4) ⟨1, 2, 3⟩ script := by
  have valid : slope.findings.isValid = true := by decide +kernel
  have compares : hasComparison slope = true := by decide +kernel
  have deep : DepthLimit.isExceeded (some 4) slope.nodes.length = false := by decide +kernel
  have tame : ∀ n ∈ slope.nodes, n.params.isTame = true :=
    List.all_eq_true.mp (by decide +kernel)
  have flawless : ∀ point, slope.Flawless (some 4) point := fun point =>
    flawless_of_tame point slope_built.reachable.sound deep tame
  exact ⟨by decide +kernel, by decide +kernel,
    slope_built.script_agrees valid compares deep (flawless _) rfl rfl,
    slope_built.script_agrees valid compares deep (flawless _) rfl rfl⟩

end Graph

end Landform
