import Landform.Proofs.Graph.States
import Landform.Proofs.Script.Balanced
import Landform.Proofs.Script.Claims
import Landform.Proofs.Script.Makes
import Landform.Proofs.Validation

/-!
# Every valid graph compiles

Emission succeeds on every sound graph, and the locals it reads are those of contents, which keep
the balance. A graph that can be reached is sound, so validation alone decides whether its script
can be used.

1. `kept_reads`, `portExpr_ok`, `decision_ok`: the locals that emitted expressions read.
2. `bodyOf_ok`, `ofGraph_ok`: scripts.
3. `compile_ok`, `Reachable.compiles`: compilation.
-/

namespace Landform

namespace Script

open Landform.Graph Lua Decimal

/-! ## 1. Emission -/

/-- An expression that reads named locals only. -/
def Reads (Named : String → Prop) (e : Expr) : Prop :=
  ∀ slot ∈ e.names, Named slot

variable {Named : String → Prop}

@[simp] theorem reads_number (x : Float) : Reads Named (.number x) := by
  simp [Reads, Expr.names]

@[simp] theorem reads_integer (n : Int) : Reads Named (.integer n) := by
  simp [Reads, Expr.names]

@[simp] theorem reads_coordinate (axis : Axis) : Reads Named (.coordinate axis) := by
  simp [Reads, Expr.names]

@[simp] theorem reads_noise (node : Int) : Reads Named (.noise node) := by
  simp [Reads, Expr.names]

@[simp] theorem reads_name {slot : String} : Reads Named (.name slot) ↔ Named slot := by
  simp [Reads, Expr.names]

@[simp] theorem reads_group {inner : Expr} : Reads Named (.group inner) ↔ Reads Named inner := by
  simp [Reads, Expr.names]

@[simp] theorem reads_square {base : Expr} : Reads Named (.square base) ↔ Reads Named base := by
  simp [Reads, Expr.names]

@[simp] theorem reads_binary {operator : Operator} {left right : Expr} :
    Reads Named (.binary operator left right) ↔ Reads Named left ∧ Reads Named right := by
  simp [Reads, Expr.names, or_imp, forall_and]

@[simp] theorem reads_call {function : Function} {arguments : List Expr} :
    Reads Named (.call function arguments) ↔ ∀ e ∈ arguments, Reads Named e := by
  have all : ∀ items : List Expr,
      (∀ slot ∈ namesAll items, Named slot) ↔ ∀ e ∈ items, Reads Named e := by
    intro items
    induction items with
    | nil => simp [namesAll]
    | cons e rest ih => rw [namesAll, List.forall_mem_append, List.forall_mem_cons, ih]; rfl
  unfold Reads
  rw [Expr.names]
  exact all arguments

theorem composes_reads : Composes (Reads Named) where
  number := reads_number
  integer := reads_integer
  coordinate := reads_coordinate
  group := reads_group.mpr
  square := reads_square.mpr
  binary first second := reads_binary.mpr ⟨first, second⟩
  call _ := reads_call.mpr

/-- A rule reads no local but that of the content of its node. -/
theorem kept_reads {n : Node} {slot : String}
    (own : ∀ t, n.params = .terrainType t → Named slot) : Kept (Reads Named) n (.name slot) :=
  rule_makes composes_reads
    { noise := fun _ => reads_noise n.id
      content := fun t params => reads_name.mpr (own t params)
      helper := fun _ _ _ => reads_call.mpr }

/-- A decision that reads named locals only. -/
def Decides (Named : String → Prop) (decided : Except Error Decision) : Prop :=
  ∃ d, decided = .ok d ∧ ∀ slot ∈ d.names, Named slot

theorem names_of_each {d : Decision} (each : d.Each (Reads Named)) :
    ∀ slot ∈ d.names, Named slot := by
  induction d with
  | assign content => exact each
  | choose node left test right ifTrue ifFalse ihTrue ihFalse =>
    obtain ⟨ofLeft, ofRight, ofTrue, ofFalse⟩ := each
    simp only [Decision.names, List.forall_mem_append]
    exact ⟨⟨⟨ofLeft, ofRight⟩, ihTrue ofTrue⟩, ihFalse ofFalse⟩

variable {g : Graph} (sound : g.Sound) (contents : Contents)
  (named : ∀ n ∈ g.nodes, ∀ t, n.params = .terrainType t → Named (contents n))

include sound named

/-- Every output port gives an expression. -/
theorem portExpr_ok {n : Node} {p : Port} (member : n ∈ g.nodes) (port : p ∈ n.outputs) :
    Makes (Reads Named) (portExpr g.wiring contents [] p.id) :=
  portExpr_makes sound (fun n member => kept_reads (named n member)) (reads_integer 0) member port

/-- Every input gives an expression. -/
theorem inputExpr_ok (n : Node) (role : String) :
    Makes (Reads Named) (inputExpr g.wiring contents n role) :=
  inputExpr_makes sound (fun n member => kept_reads (named n member)) (reads_integer 0) n role

/-- Every node gives a decision. -/
theorem decision_ok {n : Node} (member : n ∈ g.nodes) :
    Decides Named (decision g.wiring contents [] n.id) := by
  obtain ⟨d, decided, each⟩ := decision_makes sound
    (fun n member => kept_reads (named n member)) (reads_integer 0) (fun _ => id) reads_number
    member
  exact ⟨d, decided, names_of_each each⟩

/-- So does every branch. -/
theorem branchOf_ok (n : Node) (role : String) (fallback : Float) :
    Decides Named (branchOf g contents [] n role fallback) := by
  obtain ⟨d, decided, each⟩ := branchOf_makes sound
    (fun n member => kept_reads (named n member)) (reads_integer 0) (fun _ => id) reads_number
    n role fallback
  exact ⟨d, decided, names_of_each each⟩

omit sound named

/-! ## 2. Scripts -/

/-- Every sound graph has a body, and the locals are declared before it. -/
theorem bodyOf_ok (sound : g.Sound) : ∃ body declared,
    bodyOf g (assignment g) = .ok (body, declared) ∧
      declared.All (fun slot => Local slot.toList) ∧
      ∀ slot ∈ body.names, Neutral slot.toList := by
  have kept : ∀ n ∈ g.nodes, Kept (Reads fun slot => Neutral slot.toList) n
      (.name (contentsOf (assignment g).slots n)) :=
    fun n _ => kept_reads fun _ _ => (local_contentsOf g n).toNeutral
  obtain ⟨body, declared, given, each⟩ :=
    bodyOf_makes sound (assignment g) kept (reads_integer 0) (fun _ => id) reads_number
  obtain ⟨grown, stone⟩ := bodyOf_declared given
  have locals : declared.All (fun slot => Local slot.toList) := by
    rw [grown]
    refine (local_assignment g).declared.claims fun w listed => ?_
    unfold stoneWishes at listed
    split at listed
    · rw [List.mem_singleton.mp listed]
      have suffix : "_" ++ integerText 1 = "_1" := by decide +kernel
      exact ⟨.word (by decide) (by decide) (by decide),
        fun slot base => suffix ▸ local_suffix base 1⟩
    · cases listed
  refine ⟨body, declared, given, locals, ?_⟩
  cases body with
  | keep => simp [Body.names]
  | decide d => exact names_of_each each
  | height level slot =>
    refine List.forall_mem_append.mpr ⟨each, List.forall_mem_singleton.mpr ?_⟩
    obtain ⟨entry, found, _⟩ := Option.map_eq_some_iff.mp (stone level slot rfl)
    have same : entry.1 = slot := by simpa using List.find?_some found
    exact same ▸ (locals entry (List.mem_of_find?_eq_some found)).toNeutral

/-- A sound graph has a script, whatever the header and the water level are. -/
theorem exists_script (sound : g.Sound) {waterLevel : Value} {level : String}
    (number : numberOf waterLevel = .ok level) (header : String) :
    ∃ script, ofGraph g ⟨waterLevel, .text header⟩ = .ok script := by
  obtain ⟨body, declared, given, _, _⟩ := bodyOf_ok sound
  unfold ofGraph
  dsimp only
  rw [given, number]
  exact ⟨_, rfl⟩

/-- A sound graph has a script, and the balance check finds nothing in it. -/
theorem ofGraph_ok (sound : g.Sound) (level : Float) {header : String}
    (balanced : Tallied [header] 0) :
    ∃ script, ofGraph g ⟨.float level, .text header⟩ = .ok script ∧
      imbalances script.render = [] := by
  obtain ⟨body, declared, given, locals, reads⟩ := bodyOf_ok sound
  let script : Script :=
    ⟨header, g.nodes.filterMap registration?, declared, helpersOf g, number level, body⟩
  have tidy : script.Neat :=
    ⟨balanced, fun c listed => (locals c listed).toNeutral, neutral_number level, reads⟩
  refine ⟨script, ?_, tidy.imbalances_render⟩
  unfold ofGraph
  dsimp only
  rw [given]
  rfl

/-! ## 3. Compilation -/

/-- The outcome of compilation, given what validation finds. -/
structure Compiles (g : Graph) (options : Options) (findings : Findings) (c : Compiled) : Prop where
  compiled : compile g options = .ok c
  isValid_eq : c.isValid = findings.isValid
  code : findings.isValid = true → ∃ script, ofGraph g options = .ok script ∧
    c.code = some script.render ∧ imbalances script.render = [] ∧ c.errors = []
  noCode : findings.isValid = false → c.code = none ∧ c.errors = findings.errorMessages

theorem compile_ok (sound : g.Sound) (level : Float) {header : String}
    (balanced : Tallied [header] 0) :
    ∃ c, Compiles g ⟨.float level, .text header⟩ g.findings c := by
  obtain ⟨script, made, clean⟩ := ofGraph_ok sound level balanced
  have outcome : compile g ⟨.float level, .text header⟩ =
      if !g.findings.isValid then .ok ⟨none, g.findings.errorMessages, g.findings.warningMessages⟩
      else .ok ⟨some script.render, (imbalances script.render).map (·.message),
        g.findings.warningMessages⟩ := by
    unfold compile
    rw [sound.validate_eq, made]
    rfl
  rw [clean] at outcome
  cases valid : g.findings.isValid with
  | true =>
    rw [valid, if_neg (by decide)] at outcome
    exact ⟨_,
      { compiled := outcome
        isValid_eq := valid.symm
        code := fun _ => ⟨script, made, rfl, clean, rfl⟩
        noCode := fun invalid => absurd (valid.symm.trans invalid) (by decide) }⟩
  | false =>
    rw [valid, if_pos (by decide)] at outcome
    exact ⟨_,
      { compiled := outcome
        isValid_eq := valid.symm
        code := fun invalid => absurd (valid.symm.trans invalid) (by decide)
        noCode := fun _ => ⟨rfl, rfl⟩ }⟩

end Script

namespace Graph

open Script

/-- Validation alone decides whether the code of a graph can be used, whatever its terrains are
called. -/
theorem Reachable.compiles {g : Graph} (reachable : g.Reachable) (level : Float) :
    ∃ findings c, g.validate = .ok findings ∧
      Compiles g ⟨.float level, Options.default.header⟩ findings c := by
  have header : Lua.Tallied ["-- Luamap generated terrain"] 0 := .comment (by decide)
  obtain ⟨c, compiles⟩ := compile_ok reachable.sound level header
  exact ⟨g.findings, c, reachable.sound.validate_eq, compiles⟩

/-- A terrain whose name holds quotes, a backslash, a line feed, an open bracket, a comment mark and
a keyword, delivered as it is. -/
def quotedTerrain : Graph :=
  [Mutation.add "terrain-type" (.int 0) (.int 0), .add "terrain-output" (.int 9) (.int 0),
    .update 1 [("name", .text "\"moss\" -- it's \\ [ (\n\x7b end")],
    .connect "1_out" "2_in"].foldl Mutation.apply (empty 7)

theorem quotedTerrain_built : quotedTerrain.Built :=
  (Built.empty 7).run _

theorem quotedTerrain_compiles : quotedTerrain.findings.isValid = true ∧
    ∃ c, compile quotedTerrain ⟨.float 1.5, Options.default.header⟩ = .ok c ∧
      c.isValid = true ∧ c.errors = [] := by
  have valid : quotedTerrain.findings.isValid = true := by decide +kernel
  obtain ⟨findings, c, found, compiles⟩ := quotedTerrain_built.reachable.compiles 1.5
  rw [quotedTerrain_built.reachable.sound.validate_eq] at found
  cases found
  obtain ⟨script, _, _, _, errors⟩ := compiles.code valid
  exact ⟨valid, c, compiles.compiled, compiles.isValid_eq.trans valid, errors⟩

end Graph

end Landform
