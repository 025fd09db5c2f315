import Landform.Proofs.Lua.Literals
import Landform.Proofs.Script.Contents
import Landform.Proofs.Script.Grouping
import Landform.Proofs.Script.Values

/-!
# Emitted expressions say what evaluation gives

The text that is emitted for a number output is one expression of the Lua grammar, however large the
graph behind it is and whatever numbers its nodes hold. Its literals print parameters, and where no
rule fails behind the output, its value is the number that evaluation gives.

1. `Behind`: the outputs on which the number on an output depends.
2. `portExpr_contents`: the expression of a number output reads no local.
3. `Built.portExpr_spells`: the text of a number output.
-/

namespace Landform

namespace Graph

/-! ## 1. What a number depends on -/

/-- The outputs on which the number on an output depends, itself included. -/
inductive Behind (g : Graph) (n : Node) (p : Port) : Node → Port → Prop
  | self : Behind g n p n p
  | number {m k : Node} {q r : Port} {spec : PortSpec} : Behind g n p m q →
      spec ∈ m.kind.inputs → spec.kind = .float → g.behind? m.id spec.role = some (k, r) →
      Behind g n p k r

/-- What is behind an output is firm when no rule fails there. -/
theorem firm_behind {g : Graph} {limit : DepthLimit} {point : Point} {n : Node} {p : Port}
    (succeeds : ∀ m q, g.Behind n p m q → (g.ruleSignal? limit point m q).isSome = true) :
    g.Firm limit point (g.Behind n p) :=
  ⟨.number, fun behind => succeeds _ _ behind⟩

/-- Outputs behind an output of a sound graph are outputs of its nodes. -/
theorem Behind.output {g : Graph} (sound : g.Sound) {n m : Node} {p q : Port} (member : n ∈ g.nodes)
    (port : p ∈ n.outputs) (behind : g.Behind n p m q) : m ∈ g.nodes ∧ q ∈ m.outputs := by
  induction behind with
  | self => exact ⟨member, port⟩
  | number _ declared _ found ih =>
    have feeding := sound.feeding ih.1 declared found
    exact ⟨feeding.member, feeding.output⟩

end Graph

namespace Script

open Landform.Graph Lua

/-! ## 2. Locals -/

/-- Only the rule of a terrain node uses its local. -/
theorem rule_contents {n : Node} {p : Port} (port : p ∈ n.outputs) (float : p.kind = .float)
    (role : Option String) (content content' : Expr) (input : String → Except Error Expr) :
    rule n role content input = rule n role content' input := by
  obtain ⟨id, params, x, y, extras⟩ := n
  cases params with
  | terrainType t =>
    rw [List.mem_singleton.mp port] at float
    cases float
  | _ => rfl

/-- The expression of a number output does not depend on the locals of the terrain nodes. -/
theorem portExpr_contents {g : Graph} (sound : g.Sound) (contents contents' : Contents) {n : Node}
    {p : Port} (member : n ∈ g.nodes) (port : p ∈ n.outputs) (float : p.kind = .float) :
    portExpr g.wiring contents [] p.id = portExpr g.wiring contents' [] p.id := by
  induction rank : g.rank p.id using Nat.strong_induction_on generalizing n p with
  | _ rank ih =>
    subst rank
    rw [portExpr_output sound contents member port, portExpr_output sound contents' member port,
      nodeExpr, nodeExpr, rule_contents port float _ _ (.name (contents' n))]
    refine rule_congr _ _ _ fun spec declared => ?_
    cases behind : g.behind? n.id spec.role with
    | none => rw [inputExpr_open sound contents behind, inputExpr_open sound contents' behind]
    | some entry =>
      have feeding := sound.feeding member declared behind
      have number := float_of_output port float declared
      rw [inputExpr_behind sound contents declared feeding,
        inputExpr_behind sound contents' declared feeding]
      exact ih _ (feeding.rank_lt p port) feeding.member feeding.output
        (feeding.kind_eq.trans number) rfl

theorem freshContents_eq (n : Node) : ∃ name, freshContents n = contentLocal name := by
  rw [freshContents, contentsOf]
  dsimp only [List.find?_nil]
  split
  · exact ⟨_, rfl⟩
  · exact ⟨_, rfl⟩

/-! ## 3. The text of a number output -/

/-- The text of an expression is one expression of the grammar, no comment begins in it, and its
literals print what they stand for. -/
structure Spells (e : Expr) (t : Tree) : Prop where
  parsed : parse? e.render = some t
  noMark : ¬ ['-', '-'] <:+: e.render.toList
  literals : ∀ l ∈ e.literals, l.Prints

/-- The value of a tree is the number that a port carries. -/
def Yields (g : Graph) (limit : DepthLimit) (point : Point) (id : String) (t : Tree)
    (literals : List Literal) : Prop :=
  ∃ v x, t.value? (environment g [] limit point) literals = some (v, []) ∧ v.number? = some x ∧
    g.portSignal limit id point = .number x

end Script

namespace Graph

open Script Lua

/-- The text that is emitted for a number output of a graph is one expression, and wherever no rule
fails behind the output its value is what evaluation gives, within every limit that admits as many
connections as there are nodes. -/
theorem Built.portExpr_spells {g : Graph} (built : g.Built) {n : Node} {p : Port}
    (member : n ∈ g.nodes) (port : p ∈ n.outputs) (float : p.kind = .float)
    (contents : Contents) :
    ∃ e t, portExpr g.wiring contents [] p.id = .ok e ∧ Spells e t ∧
      ∀ limit point, limit.isExceeded g.nodes.length = false →
        (∀ m q, g.Behind n p m q → (g.ruleSignal? limit point m q).isSome = true) →
        Yields g limit point p.id t e.literals := by
  have sound := built.reachable.sound
  have natural : ∀ n ∈ g.nodes, 0 ≤ n.id := fun n member => Int.le_of_lt (built.ids_pos.2 n member)
  -- no local is read, so those that no node has claimed yet will do for any others
  have words : ∀ n, IsContentLocal (freshContents n) := fun n => by
    obtain ⟨name, same⟩ := freshContents_eq n
    rw [same]
    exact isContentLocal_contentLocal name
  have inert : ∀ n ∈ g.nodes, ∀ t, n.params = .terrainType t →
      Neutral (freshContents n).toList := fun n _ _ _ => by
    obtain ⟨name, same⟩ := freshContents_eq n
    rw [same]
    exact (local_contentLocal name).toNeutral
  obtain ⟨e, emitted, reads⟩ :=
    @portExpr_ok (fun slot => Neutral slot.toList) g sound freshContents inert n p member port
  have grouped := (portExpr_tight sound natural words member port e emitted).grouped
  refine ⟨e, e.tree, ?_, ⟨Expr.parse?_render grouped, ?_, e.literals_print⟩, ?_⟩
  · rw [portExpr_contents sound contents freshContents member port float]
    exact emitted
  · exact (e.neutral_render reads).toPlain.noMark
  · -- the expression is fixed before the point is, so its value is asked for point by point
    intro limit point deep succeeds
    obtain ⟨x, carried, e', emitted', number⟩ := portExpr_stands sound deep (firm_behind succeeds)
      freshContents [] member port float .self
    cases emitted.symm.trans emitted'
    obtain ⟨v, meaning, value⟩ := Expr.number?_eq_some.mp number
    have read := e.value?_tree grouped meaning []
    rw [List.append_nil] at read
    exact ⟨v, x, read, value, carried⟩

/-- The distance of the first coordinate from a negative one. -/
def shifted : Graph :=
  [Mutation.add "position" (.int 0) (.int 0), .add "distance" (.int 9) (.int 0),
    .update 2 [("pointX", .float (-2.5))], .connect "1_outX" "2_x"].foldl Mutation.apply (empty 7)

theorem shifted_built : shifted.Built :=
  (Built.empty 7).run _

/-- The text has a minus sign before a negative number, with a blank between the two signs. -/
theorem shifted_portExpr_spells :
    ∃ e t, portExpr shifted.wiring freshContents [] "2_out" = .ok e ∧
      e.render = "math.sqrt((x - -2.5)^2 + (0 - 0)^2 + (0 - 0)^2)" ∧ Spells e t ∧
      Yields shifted (some 2) ⟨0.5, 2, 1⟩ "2_out" t e.literals := by
  have sound := shifted_built.reachable.sound
  have deep : DepthLimit.isExceeded (some 2) shifted.nodes.length = false := by decide +kernel
  have tame : ∀ n ∈ shifted.nodes, n.params.isTame = true := List.all_eq_true.mp (by decide +kernel)
  have output : ∃ n ∈ shifted.nodes, ∃ p ∈ n.outputs, p.id = "2_out" ∧ p.kind = .float := by
    decide +kernel
  have text : (portExpr shifted.wiring freshContents [] "2_out").toOption.map Expr.render =
      some "math.sqrt((x - -2.5)^2 + (0 - 0)^2 + (0 - 0)^2)" := by decide +kernel
  obtain ⟨n, member, p, port, id, float⟩ := output
  obtain ⟨e, t, emitted, spells, yields⟩ :=
    shifted_built.portExpr_spells member port float freshContents
  rw [id] at emitted yields
  rw [emitted] at text
  refine ⟨e, t, emitted, Option.some.inj text, spells, yields _ _ deep fun m q behind => ?_⟩
  obtain ⟨member', port'⟩ := behind.output sound member port
  exact succeeds_of_tame _ sound deep (tame m member') member' port'

end Graph

end Landform
