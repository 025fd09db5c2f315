import Landform.Proofs.Lua.Meaning
import Landform.Proofs.Script.Makes

/-!
# Emitted expressions group as they are written

The rules put parentheses where an operand would bind less tightly than its place asks for, so that
whatever they emit is a part on its own: it can stand as the operand of any operator. Only the name
of a noise field needs a node whose id has no sign.

1. `kept_tight`: a rule emits a part on its own when its inputs do.
2. `portExpr_tight`, `decision_grouped`: ports and decisions.
-/

namespace Landform.Script

open Landform.Graph Lua

/-! ## 1. Rules -/

/-- An expression that groups as it is written, and is a part on its own. -/
structure Tight (e : Expr) : Prop where
  grouped : e.Grouped
  level_eq : e.level = 5

theorem tight_call {function : Function} {arguments : List Expr}
    (grouped : ∀ e ∈ arguments, e.Grouped) : Tight (.call function arguments) := by
  have all : GroupedAll arguments := by
    induction arguments with
    | nil => trivial
    | cons e rest ih =>
      obtain ⟨first, others⟩ := List.forall_mem_cons.mp grouped
      exact ⟨first, ih others⟩
  exact ⟨all, rfl⟩

theorem tight_group {inner : Expr} (grouped : inner.Grouped) : Tight (.group inner) :=
  ⟨grouped, rfl⟩

theorem tight_binary {operator : Operator} {left right : Expr} (first : Tight left)
    (second : Tight right) : Tight (.group (.binary operator left right)) := by
  refine tight_group ⟨first.grouped, second.grouped, ?_, ?_⟩
  · rw [first.level_eq]
    cases operator <;> decide
  · rw [second.level_eq]
    cases operator <;> decide

theorem grouped_squaredDifference {e : Expr} (tight : Tight e) (point : Float) :
    (squaredDifference e point).Grouped := by
  refine ⟨⟨tight.grouped, trivial, ?_, Operator.level_lt_number _ _⟩, Nat.le_refl _⟩
  rw [tight.level_eq]
  decide

theorem grouped_planeCoordinate (axis : Axis) (scale offset : Float) :
    (planeCoordinate axis scale offset).Grouped :=
  ⟨⟨trivial, trivial, Nat.le_of_ble_eq_true rfl, Operator.level_lt_number _ _⟩, trivial,
    Nat.le_of_ble_eq_true rfl, Operator.level_lt_number _ _⟩

theorem tight_viewExpr (m : Noise.Mandelbrot Float) : Tight (viewExpr m) := by
  have count : Tight (.call .mandelbrot [planeCoordinate .x m.scale m.offsetX,
      planeCoordinate .z m.scale m.offsetZ, .integer m.steps]) :=
    tight_call (by simp [grouped_planeCoordinate, Expr.Grouped])
  unfold viewExpr
  dsimp only
  split
  · exact tight_call (List.forall_mem_cons.mpr ⟨count.grouped, by simp [Expr.Grouped]⟩)
  · exact count

/-- A rule emits a part on its own when its inputs do. -/
theorem kept_tight {n : Node} {content : Expr} (natural : 0 ≤ n.id) (own : Tight content) :
    Kept Tight n content := by
  intro role input placed inputs
  have given : ∀ {role name}, Kind.number role name ∈ n.kind.inputs → Makes Tight (input role) :=
    inputs _
  obtain ⟨id, params, x, y, extras⟩ := n
  cases params with
  | add | subtract | multiply =>
    exact (given (.head _)).bind fun a ofA => (given (.tail _ (.head _))).bind fun b ofB =>
      makes_ok (tight_binary ofA ofB)
  | abs =>
    exact (given (.head _)).bind fun a ofA => makes_ok (tight_call (by simpa using ofA.grouped))
  | remap b =>
    exact (given (.head _)).bind fun a ofA =>
      makes_ok (tight_call (by simp [ofA.grouped, Expr.Grouped]))
  | lerp power =>
    refine (given (.head _)).bind fun a ofA => (given (.tail _ (.head _))).bind fun b ofB =>
      (given (.tail _ (.tail _ (.head _)))).bind fun c ofC => ?_
    dsimp only
    split <;>
      exact makes_ok
        (tight_call (by simp [ofA.grouped, ofB.grouped, ofC.grouped, Expr.Grouped]))
  | coserp | gaussian _ =>
    exact (given (.head _)).bind fun a ofA => (given (.tail _ (.head _))).bind fun b ofB =>
      (given (.tail _ (.tail _ (.head _)))).bind fun c ofC => makes_ok
        (tight_call (by simp [ofA.grouped, ofB.grouped, ofC.grouped, Expr.Grouped]))
  | distance p =>
    refine (given (.head _)).bind fun a ofA => (given (.tail _ (.head _))).bind fun b ofB =>
      (given (.tail _ (.tail _ (.head _)))).bind fun c ofC => makes_ok (tight_call ?_)
    refine List.forall_mem_singleton.mpr ⟨⟨grouped_squaredDifference ofA p.x,
      grouped_squaredDifference ofB p.y, ?_, ?_⟩, grouped_squaredDifference ofC p.z, ?_, ?_⟩
    all_goals exact Nat.le_of_ble_eq_true rfl
  | noise2d _ | noise3d _ => exact makes_ok ⟨natural, rfl⟩
  | mandelbrot view => exact makes_ok (tight_viewExpr view)
  | position =>
    obtain ⟨axis, known⟩ := placed rfl
    refine ⟨.coordinate axis, ?_, trivial, rfl⟩
    rw [rule, known]
    rfl
  | terrainType _ => exact makes_ok own
  | compare _ => exact makes_ok ⟨trivial, rfl⟩
  | terrainOutput => exact inputs _ (.head _)

/-! ## 2. Ports and decisions -/

variable {g : Graph} (sound : g.Sound) {contents : Contents} (natural : ∀ n ∈ g.nodes, 0 ≤ n.id)
  (words : ∀ n, IsContentLocal (contents n))

include sound natural words

theorem portExpr_tight {n : Node} {p : Port} (member : n ∈ g.nodes) (port : p ∈ n.outputs) :
    ∀ e, portExpr g.wiring contents [] p.id = .ok e → Tight e := fun _ =>
  (portExpr_makes sound (fun n member => kept_tight (natural n member) ⟨words n, rfl⟩)
    ⟨trivial, rfl⟩ member port).of_ok

theorem inputExpr_tight (n : Node) (role : String) :
    ∀ e, inputExpr g.wiring contents n role = .ok e → Tight e := fun _ =>
  (inputExpr_makes sound (fun n member => kept_tight (natural n member) ⟨words n, rfl⟩)
    ⟨trivial, rfl⟩ n role).of_ok

omit sound natural words in
theorem grouped_of_each {d : Decision} (each : d.Each Expr.Grouped) : d.Grouped := by
  induction d with
  | assign content => exact each
  | choose node left test right ifTrue ifFalse ihTrue ihFalse =>
    obtain ⟨ofLeft, ofRight, ofTrue, ofFalse⟩ := each
    exact ⟨ofLeft, ofRight, ihTrue ofTrue, ihFalse ofFalse⟩

/-- All expressions of an emitted decision group as they are written. The number of an open branch
may have a sign, but nothing stands next to it. -/
theorem decision_grouped {n : Node} (member : n ∈ g.nodes) :
    ∀ d, decision g.wiring contents [] n.id = .ok d → d.Grouped := by
  intro d decided
  obtain ⟨d', decided', each⟩ := decision_makes sound
    (fun n member => kept_tight (natural n member) ⟨words n, rfl⟩) ⟨trivial, rfl⟩
    (fun _ => Tight.grouped) (fun _ => trivial) member
  cases decided.symm.trans decided'
  exact grouped_of_each each

end Landform.Script
