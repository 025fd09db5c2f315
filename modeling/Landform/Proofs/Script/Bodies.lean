import Landform.Proofs.Lua.Renaming
import Landform.Proofs.Script.Agreement
import Landform.Proofs.Script.Declared

/-!
# What the body of a script does

The body of a script is a decision when the graph has a comparison anywhere, and a height when it
has none. Its lines show instructions, and every local that these read is declared for a name.

1. `Emitted`: what a body is emitted from.
2. `Body.instructions`, `Body.shows_lines`: the instructions that the lines of a body show.
3. `Legible`, `legible_of_ofGraph`: the expressions and the locals of a body.
-/

namespace Landform.Script

open Landform.Graph Lua Decimal

/-! ## 1. Emission -/

/-- What the body of a graph is emitted from, given the locals of its terrain nodes and the node of
the terrain output. -/
inductive Emitted (g : Graph) (contents : Contents) (o : Node) : Body → Prop
  | keep : hasComparison g = true →
      ((g.wiring.incoming? (portId o.id "in")).bind fun c => g.wiring.owner? c.source) = none →
      Emitted g contents o .keep
  | decide {n : Node} {d : Decision} : hasComparison g = true →
      ((g.wiring.incoming? (portId o.id "in")).bind fun c => g.wiring.owner? c.source) = some n →
      decision g.wiring contents [] n.id = .ok d → Emitted g contents o (.decide d)
  | height {level : Expr} {stone : String} : hasComparison g = false →
      inputExpr g.wiring contents o "in" = .ok level → Emitted g contents o (.height level stone)

theorem emitted_of_ofGraph {g : Graph} {o : Node} (found : g.output? = some o) {options : Options}
    {script : Script} (made : ofGraph g options = .ok script) :
    Emitted g (contentsOf (assignment g).slots) o script.body := by
  have body := (contents_eq made).2
  rw [bodyOf, found] at body
  dsimp only at body
  cases compares : hasComparison g with
  | true =>
    rw [compares, if_pos rfl] at body
    cases source : (g.wiring.incoming? (portId o.id "in")).bind
        fun c => g.wiring.owner? c.source with
    | none =>
      rw [source] at body
      rw [← (Prod.mk.inj (Except.ok.inj body)).1]
      exact .keep compares source
    | some n =>
      rw [source] at body
      obtain ⟨d, decided, body⟩ := Except.bind_eq_ok.mp body
      rw [← (Prod.mk.inj (Except.ok.inj body)).1]
      exact .decide compares source decided
  | false =>
    rw [compares, if_neg (by decide)] at body
    obtain ⟨level, emitted, body⟩ := Except.bind_eq_ok.mp body
    rw [← (Prod.mk.inj (Except.ok.inj body)).1]
    exact .height compares emitted

/-! ## 2. Instructions -/

/-- The instructions of a body. -/
def Body.instructions : Body → List Instruction
  | .keep => []
  | .decide d => (program d).map .statement
  | .height level stone =>
    [.statement (.comment " Terrain evaluation"),
      .level level,
      .statement .blank,
      .statement (.branch (.coordinate .y) .less (.integer 0)),
      .statement (.assign (.name "c_water")),
      .statement .close,
      .below,
      .statement (.assign (.name stone)),
      .statement .close,
      .statement .blank]

/-- The expressions of a body group as they are written. -/
def Body.Grouped : Body → Prop
  | .keep => True
  | .decide d => d.Grouped
  | .height level stone => level.Grouped ∧ IsContentLocal stone

theorem shows_indented (depth : Nat) {line : String} {i : Instruction} (text : line = i.text)
    (grouped : i.Grouped) : Shows (indented depth line) i := by
  have spaces := List.eq_replicate_of_mem (indentation_join depth)
  refine ⟨⟨(String.join (List.replicate depth step)).toList.length, ?_⟩, grouped⟩
  rw [indented, text, ← spaces, String.ofList_toList]

/-- The lines of a body show its instructions. -/
theorem Body.shows_lines {body : Body} (grouped : body.Grouped) :
    List.Forall₂ Shows body.lines body.instructions := by
  cases body with
  | keep => exact .nil
  | decide d =>
    refine List.forall₂_map_right_iff.mpr ((writes_program grouped).imp fun line s writes => ?_)
    exact ⟨writes.text_eq, writes.grouped⟩
  | height level stone =>
    obtain ⟨ofLevel, ofStone⟩ := grouped
    have blank : Shows "" (.statement .blank) := ⟨⟨0, rfl⟩, trivial⟩
    have close : Shows (indented 1 "end") (.statement .close) := shows_indented 1 rfl trivial
    have water : Shows (indented 2 "content = c_water") (.statement (.assign (.name "c_water"))) :=
      shows_indented 2 rfl ⟨_, rfl, by decide⟩
    have comment : Shows (indented 1 "-- Terrain evaluation")
        (.statement (.comment " Terrain evaluation")) :=
      shows_indented 1 rfl (by simp [Instruction.Grouped, Statement.Grouped])
    exact .cons comment (.cons (shows_indented 1 rfl ofLevel) (.cons blank
      (.cons (shows_indented 1 rfl ⟨trivial, trivial⟩) (.cons water (.cons close
        (.cons (shows_indented 1 rfl trivial) (.cons (shows_indented 2 rfl ofStone) (.cons close
          (.cons blank .nil)))))))))

theorem Body.names_decide {d : Decision} {i : Instruction}
    (listed : i ∈ (Body.decide d).instructions) : ∀ slot ∈ i.names, slot ∈ d.names := by
  intro slot read
  obtain ⟨s, member, rfl⟩ := List.mem_map.mp listed
  rcases List.mem_cons.mp member with rfl | member
  · exact absurd read List.not_mem_nil
  · rcases List.mem_append.mp member with inside | last
    · exact d.names_statements inside slot read
    · rw [List.mem_singleton.mp last] at read
      exact absurd read List.not_mem_nil

theorem Body.names_height {level : Expr} {stone : String} {i : Instruction}
    (listed : i ∈ (Body.height level stone).instructions) :
    ∀ slot ∈ i.names, slot ∈ level.names ∨ slot = "c_water" ∨ slot = stone := by
  intro slot read
  simp only [Body.instructions, List.mem_cons, List.not_mem_nil, or_false] at listed
  rcases listed with rfl | rfl | rfl | rfl | rfl | rfl | rfl | rfl | rfl | rfl <;>
    simp_all [Instruction.names, Statement.names, Statement.expressions, Expr.names]

/-! ## 3. Expressions and locals -/

/-- A local is declared for a name. -/
def Known (contents : Locals) (slot : String) : Prop :=
  ∃ name, (slot, name) ∈ contents

/-- The lines of a body show its instructions, and these read declared locals only. -/
structure Legible (s : Script) : Prop where
  shows : List.Forall₂ Shows s.body.lines s.body.instructions
  known : ∀ i ∈ s.body.instructions, ∀ slot ∈ i.names, Known s.contents slot

section Script

variable {g : Graph} (sound : g.Sound) {o : Node} (found : g.output? = some o) {options : Options}
  {script : Script} (made : ofGraph g options = .ok script)

include made

/-- The locals of a script are words when the id of no terrain has a sign. -/
theorem isContentLocal_of_terrains
    (natural : ∀ n ∈ g.nodes, ∀ t, n.params = .terrainType t → 0 ≤ n.id) :
    Locals.All IsContentLocal script.contents := by
  have one : ∀ slot, IsContentLocal slot → IsContentLocal (slot ++ "_1") :=
    fun slot base => isContentLocal_suffix base (n := 1) (by decide)
  rw [(contents_eq made).1]
  refine Locals.All.claims (fun _ listed => absurd listed List.not_mem_nil) fun w member => ?_
  rcases mem_wishes member with rfl | rfl | ⟨n, t, listed, params, rfl⟩ | rfl
  · exact ⟨⟨_, rfl, by decide⟩, one⟩
  · exact ⟨⟨_, rfl, by decide⟩, one⟩
  · exact ⟨isContentLocal_contentLocal t.name,
      fun slot base => isContentLocal_suffix base (natural n listed t params)⟩
  · exact ⟨⟨_, rfl, by decide⟩, one⟩

theorem isContentLocal_contents (natural : ∀ n ∈ g.nodes, 0 ≤ n.id) :
    Locals.All IsContentLocal script.contents :=
  isContentLocal_of_terrains made fun n listed _ _ => natural n listed

include sound found

theorem grouped_of_ofGraph (natural : ∀ n ∈ g.nodes, 0 ≤ n.id) : script.body.Grouped := by
  have words := isContentLocal_contentsOf natural
  have emitted := emitted_of_ofGraph found made
  generalize same : script.body = body at emitted
  cases emitted with
  | keep _ _ => trivial
  | decide _ source decided =>
    obtain ⟨c, _, owner⟩ := Option.bind_eq_some_iff.mp source
    exact decision_grouped sound natural words (sound.owner?_iff.mp owner).1 _ decided
  | height _ emitted =>
    have stone := (binds_ofGraph sound.ids_distinct made).stone _ _ same
    exact ⟨(inputExpr_tight sound natural words o "in" _ emitted).grouped,
      isContentLocal_contents made natural _ stone⟩

/-- Every local that the instructions of a script read is declared. -/
theorem known_of_ofGraph :
    ∀ i ∈ script.body.instructions, ∀ slot ∈ i.names, Known script.contents slot := by
  have binds := binds_ofGraph sound.ids_distinct made
  have named : ∀ n ∈ g.nodes, ∀ t, n.params = .terrainType t →
      Known script.contents (contentsOf (assignment g).slots n) :=
    fun n member t params => ⟨_, binds.terrain n member t params⟩
  have emitted := emitted_of_ofGraph found made
  generalize same : script.body = body at emitted
  intro i listed slot read
  cases emitted with
  | keep _ _ => exact absurd listed List.not_mem_nil
  | @decide n d _ source decided =>
    obtain ⟨c, _, owner⟩ := Option.bind_eq_some_iff.mp source
    obtain ⟨d', decided', reads⟩ := decision_ok sound _ named (sound.owner?_iff.mp owner).1
    cases decided.symm.trans decided'
    exact reads slot (Body.names_decide listed slot read)
  | height _ emitted =>
    obtain ⟨e, emitted', reads⟩ := inputExpr_ok sound _ named o "in"
    cases emitted.symm.trans emitted'
    rcases Body.names_height listed slot read with ofLevel | rfl | rfl
    · exact reads slot ofLevel
    · exact ⟨_, binds.water⟩
    · exact ⟨_, binds.stone _ _ same⟩

theorem legible_of_ofGraph (natural : ∀ n ∈ g.nodes, 0 ≤ n.id) : Legible script :=
  ⟨Body.shows_lines (grouped_of_ofGraph sound found made natural),
    known_of_ofGraph sound found made⟩

end Script

end Landform.Script
