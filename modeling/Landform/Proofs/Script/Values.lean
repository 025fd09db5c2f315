import Landform.Proofs.Evaluation.Deep
import Landform.Proofs.Lua.Meaning
import Landform.Proofs.Script.Complete

/-!
# Emitted expressions stand for the signals

The rules of emission follow the rules of evaluation node kind by node kind: where the expressions
of the inputs stand for the numbers on the inputs, the expression of an output stands for the number
that its rule gives. Along the connections this reaches every output whose rules do not fail, with
the zero of an open input as the start.

1. `rule_stands`: the rule of a node.
2. `portExpr_stands`, `inputExpr_stands`: ports within a deep limit.
-/

namespace Landform.Script

open Landform.Graph Lua

/-! ## 1. Rules -/

/-- Emission of an expression that stands for a number. -/
def Stands (env : Env) (x : Float) (emitted : Except Error Expr) : Prop :=
  ∃ e, emitted = .ok e ∧ e.number? env = some x

variable {env : Env}

theorem Stands.bind {x y : Float} {emitted : Except Error Expr} {next : Expr → Except Error Expr}
    (first : Stands env x emitted) (rest : ∀ e, e.number? env = some x → Stands env y (next e)) :
    Stands env y (emitted >>= next) := by
  obtain ⟨e, rfl, number⟩ := first
  exact rest e number

theorem stands_ok {x : Float} {e : Expr} (number : e.number? env = some x) : Stands env x (.ok e) :=
  ⟨e, rfl, number⟩

theorem number?_squaredDifference {e : Expr} {x : Float} (number : e.number? env = some x)
    (point : Float) :
    (squaredDifference e point).number? env = some ((x - point) * (x - point)) := by
  have difference : (Expr.group (.binary .subtract e (.number point))).number? env =
      some (x - point) := by
    rw [Expr.number?_group]
    exact Expr.number?_binary .subtract number rfl
  exact Expr.number?_square difference

theorem meaning?_planeCoordinate (axis : Axis) (scale offset : Float) :
    (planeCoordinate axis scale offset).meaning? env =
      some (.real (axis.of env.point / scale + offset)) := by
  simp [planeCoordinate, Expr.meaning?, Meaning.number?_real, Operator.apply]

/-- The expression of a view stands for its value, if that is a double. -/
theorem number?_viewExpr (m : Noise.Mandelbrot Float) :
    (viewExpr m).number? env = m.value? env.point.x env.point.z := by
  have count : (Expr.call .mandelbrot [planeCoordinate .x m.scale m.offsetX,
      planeCoordinate .z m.scale m.offsetZ, .integer m.steps]).meaning? env =
      some (.whole (m.count env.point.x env.point.z)) :=
    Expr.meaning?_call (meanings?_cons (meaning?_planeCoordinate _ _ _)
      (meanings?_cons (meaning?_planeCoordinate _ _ _) (meanings?_cons rfl rfl))) rfl
  unfold viewExpr Noise.Mandelbrot.value?
  dsimp only
  split
  · refine Expr.number?_call (meanings?_cons count (meanings?_cons rfl (meanings?_cons rfl
      (meanings?_cons rfl (meanings?_cons rfl rfl))))) ?_
    simp only [Function.result?, Meaning.number?_real, Noise.Mandelbrot.spread]
    by_cases none : m.steps = 0
    · simp [none]
    · have some : (0 : Int) ≠ m.steps := by omega
      simp [none, some]
  · rw [Expr.number?, count]
    rfl

/-- Interpolation with a power that equals one needs no power. -/
theorem lerp_one {power : Float} (one : (power == 1.0) = true) (a b t : Float) :
    Curve.lerp a b t 1.0 = Curve.lerp a b t power := by
  have unit : ((1.0 : Float) == 1.0) = true := rfl
  simp only [Curve.lerp, Curve.power, one, unit, if_true]

/-- A rule emits an expression for the number that evaluation gives, when its inputs do. -/
theorem rule_stands {n : Node} {p : Port} (port : p ∈ n.outputs) (float : p.kind = .float)
    {s : Surroundings} (place : env.point = s.point) {content : Expr}
    {input : String → Except Error Expr} {signal : Signal}
    (noise : n.kind = .noise2d ∨ n.kind = .noise3d → env.noise n.id = signal.number?)
    (inputs : ∀ spec ∈ n.kind.inputs,
      ∃ x, s.input spec.role = .number x ∧ Stands env x (input spec.role))
    (succeeded : n.params.rule p.role s = some signal) :
    ∃ x, signal = .number x ∧ Stands env x (rule n (some p.role) content input) := by
  have given : ∀ {role name}, Kind.number role name ∈ n.kind.inputs →
      ∃ x, s.number? role = some x ∧ Stands env x (input role) := by
    intro role name declared
    obtain ⟨x, carried, stands⟩ := inputs _ declared
    exact ⟨x, congrArg Signal.number? carried, stands⟩
  obtain ⟨id, params, x, y, extras⟩ := n
  cases params with
  | add | subtract | multiply =>
    obtain ⟨a, ofA, first⟩ := given (.head _)
    obtain ⟨b, ofB, second⟩ := given (.tail _ (.head _))
    simp only [Params.rule, ofA, ofB] at succeeded
    cases succeeded
    refine ⟨_, rfl, first.bind fun e number => second.bind fun e' number' => stands_ok ?_⟩
    rw [Expr.number?_group]
    exact Expr.number?_binary _ number number'
  | abs =>
    obtain ⟨a, ofA, first⟩ := given (.head _)
    simp only [Params.rule, ofA] at succeeded
    cases succeeded
    exact ⟨_, rfl, first.bind fun e number => stands_ok (Expr.number?_abs number)⟩
  | remap b =>
    obtain ⟨a, ofA, first⟩ := given (.head _)
    have value : signal = .number (Curve.remap a b.inMin b.inMax b.outMin b.outMax) := by
      simp only [Params.rule, ofA] at succeeded
      split at succeeded <;> cases succeeded
      · next same => rw [Curve.remap, if_pos same]
      · rfl
    exact ⟨_, value, first.bind fun e number => stands_ok (Expr.number?_remap number _ _ _ _)⟩
  | lerp power =>
    obtain ⟨a, ofA, first⟩ := given (.head _)
    obtain ⟨b, ofB, second⟩ := given (.tail _ (.head _))
    obtain ⟨c, ofC, third⟩ := given (.tail _ (.tail _ (.head _)))
    simp only [Params.rule, ofA, ofB, ofC] at succeeded
    cases succeeded
    refine ⟨_, rfl, first.bind fun e number => second.bind fun e' number' =>
      third.bind fun e'' number'' => ?_⟩
    dsimp only
    split
    · next one =>
      rw [← lerp_one one]
      exact stands_ok (Expr.number?_lerp number number' number'')
    · exact stands_ok (Expr.number?_lerp_power number number' number'' power)
  | coserp =>
    obtain ⟨a, ofA, first⟩ := given (.head _)
    obtain ⟨b, ofB, second⟩ := given (.tail _ (.head _))
    obtain ⟨c, ofC, third⟩ := given (.tail _ (.tail _ (.head _)))
    simp only [Params.rule, ofA, ofB, ofC] at succeeded
    cases succeeded
    exact ⟨_, rfl, first.bind fun e number => second.bind fun e' number' =>
      third.bind fun e'' number'' => stands_ok (Expr.number?_coserp number number' number'')⟩
  | gaussian bell =>
    obtain ⟨a, ofA, first⟩ := given (.head _)
    obtain ⟨b, ofB, second⟩ := given (.tail _ (.head _))
    obtain ⟨c, ofC, third⟩ := given (.tail _ (.tail _ (.head _)))
    simp only [Params.rule, ofA, ofB, ofC] at succeeded
    cases height : Curve.gaussian a b c bell.centerX bell.centerY bell.centerZ bell.spread with
    | error cause => simp [height] at succeeded
    | ok value =>
      have : signal = .number value := by simpa [height] using succeeded.symm
      exact ⟨value, this, first.bind fun e number => second.bind fun e' number' =>
        third.bind fun e'' number'' =>
          stands_ok (Expr.number?_gaussian number number' number'' height)⟩
  | distance q =>
    obtain ⟨a, ofA, first⟩ := given (.head _)
    obtain ⟨b, ofB, second⟩ := given (.tail _ (.head _))
    obtain ⟨c, ofC, third⟩ := given (.tail _ (.tail _ (.head _)))
    simp only [Params.rule, ofA, ofB, ofC] at succeeded
    cases succeeded
    refine ⟨_, rfl, first.bind fun e number => second.bind fun e' number' =>
      third.bind fun e'' number'' => stands_ok (Expr.number?_sqrt ?_)⟩
    exact Expr.number?_binary .add (Expr.number?_binary .add (number?_squaredDifference number q.x)
      (number?_squaredDifference number' q.y)) (number?_squaredDifference number'' q.z)
  | noise2d settings =>
    cases succeeded
    have known := noise (.inl rfl)
    exact ⟨_, rfl, stands_ok (by rw [Expr.number?, Expr.meaning?, known]; rfl)⟩
  | noise3d settings =>
    cases succeeded
    have known := noise (.inr rfl)
    exact ⟨_, rfl, stands_ok (by rw [Expr.number?, Expr.meaning?, known]; rfl)⟩
  | mandelbrot view =>
    cases value : view.value? s.point.x s.point.z with
    | none => simp [Params.rule, value] at succeeded
    | some height =>
      have : signal = .number height := by simpa [Params.rule, value] using succeeded.symm
      exact ⟨height, this, stands_ok (by rw [number?_viewExpr, place, value])⟩
  | position =>
    have named : p ∈ [PortSpec.output "outX" "X" .float, .output "outY" "Y" .float,
      .output "outZ" "Z" .float].map (·.bind id) := port
    rcases (by simpa using named : _ ∨ _ ∨ _) with rfl | rfl | rfl <;> cases succeeded <;>
      exact ⟨_, rfl, stands_ok (by rw [← place]; rfl)⟩
  | terrainType _ | compare _ =>
    rw [List.mem_singleton.mp port] at float
    cases float
  | terrainOutput => cases port

/-! ## 2. Ports -/

/-- What the variables of emitted code stand for at a point. The noise of a node has the value that
evaluation gives it, and a local holds the content of the name that it is declared for. -/
def environment (g : Graph) (declared : Table String) (limit : DepthLimit) (point : Point) :
    Env where
  point := point
  noise id := (g.portSignal limit (portId id "out") point).number?
  content := declared.get?

/-- A node that delivers a number asks for numbers only. -/
theorem float_of_output {n : Node} {p : Port} (port : p ∈ n.outputs) (float : p.kind = .float)
    {spec : PortSpec} (declared : spec ∈ n.kind.inputs) : spec.kind = .float := by
  have floats : ∀ k : Kind, (∃ out ∈ k.outputs, out.kind = .float) →
      ∀ spec ∈ k.inputs, spec.kind = .float := by
    intro k
    cases k <;> decide
  obtain ⟨out, listed, rfl⟩ := List.mem_map.mp port
  exact floats n.kind ⟨out, listed, float⟩ spec declared

variable {g : Graph} (sound : g.Sound) {limit : DepthLimit} {point : Point}

include sound

theorem inputExpr_open (contents : Contents) {n : Node} {role : String}
    (unfed : g.behind? n.id role = none) :
    inputExpr g.wiring contents n role = .ok (.integer 0) := by
  rw [inputExpr, sound.behind?_eq_none.mp unfed]

theorem inputExpr_behind (contents : Contents) {n m : Node} {spec : PortSpec} {q : Port}
    (declared : spec ∈ n.kind.inputs) (feeding : g.Feeding n spec m q) :
    inputExpr g.wiring contents n spec.role = portExpr g.wiring contents [] q.id := by
  have listed : spec.bind n.id ∈ n.inputs := List.mem_map_of_mem declared
  obtain ⟨c, joined, target, source⟩ := feeding.joined
  rw [← source]
  exact inputExpr_connected sound contents listed joined target

/-- A port carries a number, and the emitted expression stands for it. -/
def Carries (g : Graph) (env : Env) (limit : DepthLimit) (point : Point) (id : String)
    (emitted : Except Error Expr) : Prop :=
  ∃ x, g.portSignal limit id point = .number x ∧ Stands env x emitted

variable (deep : limit.isExceeded g.nodes.length = false)

include deep

/-- A number input, open or not, when what feeds it is right. -/
theorem inputExpr_carries {env : Env} (contents : Contents) {n : Node} {spec : PortSpec}
    (member : n ∈ g.nodes) (asked : spec ∈ n.kind.inputs) (number : spec.kind = .float)
    (source : ∀ {m q}, g.behind? n.id spec.role = some (m, q) → g.Feeding n spec m q →
      Carries g env limit point q.id (portExpr g.wiring contents [] q.id)) :
    Carries g env limit point (portId n.id spec.role)
      (inputExpr g.wiring contents n spec.role) := by
  cases behind : g.behind? n.id spec.role with
  | none =>
    rw [inputExpr_open sound contents behind]
    have default := deep_open sound point deep member asked behind
    rw [number] at default
    exact ⟨0, default, stands_ok rfl⟩
  | some entry =>
    obtain ⟨m, q⟩ := entry
    have feeding := sound.feeding member asked behind
    obtain ⟨x, carried, stands⟩ := source behind feeding
    rw [inputExpr_behind sound contents asked feeding]
    exact ⟨x, (deep_behind sound point deep feeding).trans carried, stands⟩

variable {among : Node → Port → Prop} (firm : g.Firm limit point among) (contents : Contents)
  (declared : Table String)

include firm

/-- The expression of an output stands for the number that evaluation gives. -/
theorem portExpr_stands {n : Node} {p : Port} (member : n ∈ g.nodes) (port : p ∈ n.outputs)
    (float : p.kind = .float) (given : among n p) :
    Carries g (environment g declared limit point) limit point p.id
      (portExpr g.wiring contents [] p.id) := by
  induction rank : g.rank p.id using Nat.strong_induction_on generalizing n p with
  | _ rank ih =>
    subst rank
    obtain ⟨signal, succeeded⟩ := Option.isSome_iff_exists.mp (firm.succeeds given)
    have carried : g.portSignal limit p.id point = signal := by
      rw [deep_output sound point deep member port, succeeded, Option.getD_some]
    rw [Carries, carried, portExpr_output sound contents member port]
    refine rule_stands port float rfl (fun noise => ?_) (fun spec asked => ?_) succeeded
    · -- the environment takes the noise of a node from the very port that is asked for
      have only : p.role = "out" := by
        obtain ⟨out, listed, rfl⟩ := List.mem_map.mp port
        rcases noise with kind | kind <;> rw [kind] at listed <;>
          exact congrArg PortSpec.role (List.mem_singleton.mp listed)
      have id : p.id = portId n.id "out" := by
        rw [Node.id_of_mem_ports (Node.mem_ports.mpr (.inr port)), only]
      rw [← carried, id]
      rfl
    · have number := float_of_output port float asked
      exact inputExpr_carries sound deep contents member asked number fun behind feeding =>
        ih _ (feeding.rank_lt p port) feeding.member feeding.output
          (feeding.kind_eq.trans number) (firm.closed given asked number behind) rfl

/-- The expression of a number input stands for the number on it. -/
theorem inputExpr_stands {n : Node} {p : Port} (member : n ∈ g.nodes) (given : among n p)
    {spec : PortSpec} (asked : spec ∈ n.kind.inputs) (number : spec.kind = .float) :
    Carries g (environment g declared limit point) limit point (portId n.id spec.role)
      (inputExpr g.wiring contents n spec.role) :=
  inputExpr_carries sound deep contents member asked number fun behind feeding =>
    portExpr_stands sound deep firm contents declared feeding.member feeding.output
      (feeding.kind_eq.trans number) (firm.closed given asked number behind)

end Landform.Script
