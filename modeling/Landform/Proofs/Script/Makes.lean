import Landform.Proofs.Graph.States
import Landform.Proofs.Script.Emission
import Landform.Script.Compile

/-!
# What emitted expressions have in common

On a sound graph emission succeeds: no cycle is met, every port has a node, and every rule gives an
expression once its inputs have given theirs. So a property of expressions that the rule of every
node keeps is one of all expressions that are emitted, and to know what scripts are made of it is
enough to look at the rules.

1. `rule_makes`: properties that are kept where expressions are put together.
2. `portExpr_makes`, `inputExpr_makes`: the expressions of ports.
3. `decision_makes`, `bodyOf_makes`: decisions and bodies.
-/

namespace Landform

namespace Lua

/-- The function that a helper defines. -/
def Helper.function : Helper → Function
  | mandelbrot => .mandelbrot
  | gaussian => .gaussian

/-- All expressions of a decision have a property. -/
def Decision.Each (holds : Expr → Prop) : Decision → Prop
  | assign content => holds content
  | choose _ left _ right ifTrue ifFalse =>
    holds left ∧ holds right ∧ ifTrue.Each holds ∧ ifFalse.Each holds

end Lua

namespace Script

open Landform.Graph Lua

variable {holds : Expr → Prop}

/-! ## 1. Rules -/

/-- Emission of an expression that has a property. -/
def Makes (holds : Expr → Prop) (emitted : Except Error Expr) : Prop :=
  ∃ e, emitted = .ok e ∧ holds e

theorem Makes.bind {emitted : Except Error Expr} {next : Expr → Except Error Expr}
    (first : Makes holds emitted) (rest : ∀ e, holds e → Makes holds (next e)) :
    Makes holds (emitted >>= next) := by
  obtain ⟨e, rfl, ofFirst⟩ := first
  exact rest e ofFirst

theorem makes_ok {e : Expr} (ofExpr : holds e) : Makes holds (.ok e) :=
  ⟨e, rfl, ofExpr⟩

theorem Makes.of_ok {emitted : Except Error Expr} {e : Expr} (makes : Makes holds emitted)
    (done : emitted = .ok e) : holds e := by
  obtain ⟨e', emitted', ofExpr⟩ := makes
  cases done.symm.trans emitted'
  exact ofExpr

/-- A property that the rule of a node keeps: it makes an expression with the property for every
output when its inputs do. -/
def Kept (holds : Expr → Prop) (n : Node) (content : Expr) : Prop :=
  ∀ (role : Option String) (input : String → Except Error Expr),
    (n.kind = .position → ∃ axis, role.bind coordinate? = some axis) →
    (∀ spec ∈ n.kind.inputs, Makes holds (input spec.role)) →
    Makes holds (rule n role content input)

/-- A property that is kept where expressions are put together, calls of helpers apart. -/
structure Composes (holds : Expr → Prop) : Prop where
  number : ∀ x, holds (.number x)
  integer : ∀ n, holds (.integer n)
  coordinate : ∀ axis, holds (.coordinate axis)
  group : ∀ {inner}, holds inner → holds (.group inner)
  square : ∀ {base}, holds base → holds (.square base)
  binary : ∀ {operator left right}, holds left → holds right →
    holds (.binary operator left right)
  call : ∀ {function arguments}, (∀ h : Helper, function ≠ h.function) →
    (∀ e ∈ arguments, holds e) → holds (.call function arguments)

/-- A property of what a node adds to the expressions of its inputs: its noise field, the local of
its content, and a call of its helper. -/
structure Brings (holds : Expr → Prop) (n : Node) (content : Expr) : Prop where
  noise : (registration? n).isSome = true → holds (.noise n.id)
  content : ∀ t, n.params = .terrainType t → holds content
  helper : ∀ h arguments, Helper.ofKind? n.kind = some h → (∀ e ∈ arguments, holds e) →
    holds (.call h.function arguments)

namespace Composes

variable (composes : Composes holds)

include composes

theorem squaredDifference {e : Expr} (ofExpr : holds e) (point : Float) :
    holds (squaredDifference e point) :=
  composes.square (composes.group (composes.binary ofExpr (composes.number point)))

theorem planeCoordinate (axis : Axis) (scale offset : Float) :
    holds (planeCoordinate axis scale offset) :=
  composes.binary (composes.group (composes.binary (composes.coordinate axis)
    (composes.number scale))) (composes.number offset)

end Composes

/-- A rule keeps a property that its node brings along, when the property is kept where expressions
are put together. -/
theorem rule_makes (composes : Composes holds) {n : Node} {content : Expr}
    (brings : Brings holds n content) : Kept holds n content := by
  intro role input placed inputs
  have given : ∀ {role name}, Kind.number role name ∈ n.kind.inputs → Makes holds (input role) :=
    inputs _
  obtain ⟨id, params, x, y, extras⟩ := n
  cases params with
  | add | subtract | multiply =>
    exact (given (.head _)).bind fun a ofA => (given (.tail _ (.head _))).bind fun b ofB =>
      makes_ok (composes.group (composes.binary ofA ofB))
  | abs =>
    exact (given (.head _)).bind fun a ofA =>
      makes_ok (composes.call (by rintro ⟨⟩ ⟨⟩) (by simpa using ofA))
  | remap b =>
    exact (given (.head _)).bind fun a ofA =>
      makes_ok (composes.call (by rintro ⟨⟩ ⟨⟩) (by simp [ofA, composes.number]))
  | lerp power =>
    refine (given (.head _)).bind fun a ofA => (given (.tail _ (.head _))).bind fun b ofB =>
      (given (.tail _ (.tail _ (.head _)))).bind fun c ofC => ?_
    dsimp only
    split <;>
      exact makes_ok
        (composes.call (by rintro ⟨⟩ ⟨⟩) (by simp [ofA, ofB, ofC, composes.number]))
  | coserp =>
    exact (given (.head _)).bind fun a ofA => (given (.tail _ (.head _))).bind fun b ofB =>
      (given (.tail _ (.tail _ (.head _)))).bind fun c ofC =>
        makes_ok (composes.call (by rintro ⟨⟩ ⟨⟩) (by simp [ofA, ofB, ofC]))
  | gaussian bell =>
    exact (given (.head _)).bind fun a ofA => (given (.tail _ (.head _))).bind fun b ofB =>
      (given (.tail _ (.tail _ (.head _)))).bind fun c ofC =>
        makes_ok (brings.helper .gaussian _ rfl (by simp [ofA, ofB, ofC, composes.number]))
  | distance p =>
    refine (given (.head _)).bind fun a ofA => (given (.tail _ (.head _))).bind fun b ofB =>
      (given (.tail _ (.tail _ (.head _)))).bind fun c ofC =>
        makes_ok (composes.call (by rintro ⟨⟩ ⟨⟩) (List.forall_mem_singleton.mpr ?_))
    exact composes.binary (composes.binary (composes.squaredDifference ofA p.x)
      (composes.squaredDifference ofB p.y)) (composes.squaredDifference ofC p.z)
  | noise2d _ | noise3d _ => exact makes_ok (brings.noise rfl)
  | mandelbrot view =>
    have count : holds (.call .mandelbrot [planeCoordinate .x view.scale view.offsetX,
        planeCoordinate .z view.scale view.offsetZ, .integer view.steps]) :=
      brings.helper .mandelbrot _ rfl (by simp [composes.planeCoordinate, composes.integer])
    refine makes_ok ?_
    unfold viewExpr
    dsimp only
    split
    · exact composes.call (by rintro ⟨⟩ ⟨⟩)
        (by simp [count, composes.integer, composes.number])
    · exact count
  | position =>
    obtain ⟨axis, known⟩ := placed rfl
    refine ⟨.coordinate axis, ?_, composes.coordinate axis⟩
    rw [rule, known]
    rfl
  | terrainType t => exact makes_ok (brings.content t rfl)
  | compare _ => exact makes_ok (composes.integer 0)
  | terrainOutput => exact inputs _ (.head _)

/-! ## 2. Expressions of ports -/

theorem axis_of_outputs {n : Node} (position : n.kind = .position) {p : Port}
    (port : p ∈ n.outputs) : ∃ axis, (some p.role).bind coordinate? = some axis := by
  rw [Node.outputs, position] at port
  rcases (by simpa [Kind.outputs] using port : _ ∨ _ ∨ _) with rfl | rfl | rfl
  · exact ⟨.x, rfl⟩
  · exact ⟨.y, rfl⟩
  · exact ⟨.z, rfl⟩

variable {g : Graph} (sound : g.Sound) {contents : Contents}
  (kept : ∀ n ∈ g.nodes, Kept holds n (.name (contents n))) (zero : holds (.integer 0))

include sound kept zero

/-- What is emitted for an output port has every property that the rules keep. -/
theorem portExpr_makes {n : Node} {p : Port} (member : n ∈ g.nodes) (port : p ∈ n.outputs) :
    Makes holds (portExpr g.wiring contents [] p.id) := by
  induction rank : g.rank p.id using Nat.strong_induction_on generalizing n p with
  | _ rank ih =>
    subst rank
    rw [portExpr_output sound contents member port]
    refine kept n member _ _ (fun position => axis_of_outputs position port) fun spec declared => ?_
    have listed : spec.bind n.id ∈ n.inputs := List.mem_map_of_mem declared
    unfold inputExpr
    cases incoming : g.wiring.incoming? (portId n.id spec.role) with
    | none => exact makes_ok zero
    | some c =>
      obtain ⟨joined, target⟩ := sound.incoming?_iff.mp incoming
      obtain ⟨m, mm, p', mp, source, _⟩ := sound.owner_source joined
      have lower := sound.rank_behind_lt member port listed joined target
      dsimp only
      rw [← source] at lower ⊢
      exact ih _ lower mm mp rfl

theorem inputExpr_makes (n : Node) (role : String) :
    Makes holds (inputExpr g.wiring contents n role) := by
  unfold inputExpr
  cases incoming : g.wiring.incoming? (portId n.id role) with
  | none => exact makes_ok zero
  | some c =>
    obtain ⟨joined, _⟩ := sound.incoming?_iff.mp incoming
    obtain ⟨m, mm, p, mp, source, _⟩ := sound.owner_source joined
    dsimp only
    rw [← source]
    exact portExpr_makes sound kept zero mm mp

/-! ## 3. Decisions and bodies -/

-- the number of an open branch need not have what the rules keep, but something weaker
variable {weaker : Expr → Prop} (relax : ∀ e, holds e → weaker e)
  (number : ∀ x, weaker (.number x))

include relax number

/-- Every node has a decision between expressions that the rules make. -/
theorem decision_makes {n : Node} (member : n ∈ g.nodes) :
    ∃ d, decision g.wiring contents [] n.id = .ok d ∧ d.Each weaker := by
  refine @Sound.node_induction _ sound
    (fun id => ∃ d, decision g.wiring contents [] id = .ok d ∧ d.Each weaker)
    (fun n member ih => ?_) n member
  by_cases compares : n.kind = .compare
  · obtain ⟨test, params⟩ := compare_of_kind compares
    have branch : ∀ taken fallback, ∃ d,
        branchOf g contents [] n (branchRole taken) fallback = .ok d ∧ d.Each weaker := by
      intro taken fallback
      obtain ⟨q, port, role, _⟩ := branch_port compares taken
      unfold branchOf
      rw [← role, ← Node.id_of_mem_ports (Node.mem_ports.mpr (.inl port))]
      cases source : (g.wiring.incoming? q.id).bind fun c => g.wiring.owner? c.source with
      | none => exact ⟨_, rfl, number fallback⟩
      | some m => exact ih m.id (sound.feeds_of_behind member port source).2
    obtain ⟨left, first, ofLeft⟩ := inputExpr_makes sound kept zero n "in1"
    obtain ⟨right, second, ofRight⟩ := inputExpr_makes sound kept zero n "in2"
    obtain ⟨ifTrue, third, ofTrue⟩ : ∃ d,
        branchOf g contents [] n "useTrue" test.useTrue = .ok d ∧ _ := branch true _
    obtain ⟨ifFalse, fourth, ofFalse⟩ : ∃ d,
        branchOf g contents [] n "useFalse" test.useFalse = .ok d ∧ _ := branch false _
    rw [decision_compare sound contents member params, first, second, third, fourth]
    exact ⟨_, rfl, relax _ ofLeft, relax _ ofRight, ofTrue, ofFalse⟩
  · obtain ⟨e, emitted, ofExpr⟩ : Makes holds
        (nodeExpr g.wiring contents n (n.kind.outputs.head?.map (·.role))) := by
      refine kept n member _ _ (fun position => ?_) fun spec _ =>
        inputExpr_makes sound kept zero n spec.role
      rw [position]
      exact ⟨.x, rfl⟩
    rw [decision_other sound contents member compares, emitted]
    exact ⟨_, rfl, relax _ ofExpr⟩

/-- So has every branch. -/
theorem branchOf_makes (n : Node) (role : String) (fallback : Float) :
    ∃ d, branchOf g contents [] n role fallback = .ok d ∧ d.Each weaker := by
  unfold branchOf
  cases source : (g.wiring.incoming? (portId n.id role)).bind fun c => g.wiring.owner? c.source with
  | none => exact ⟨_, rfl, number fallback⟩
  | some m =>
    obtain ⟨c, _, owner⟩ := Option.bind_eq_some_iff.mp source
    exact decision_makes sound kept zero relax number (sound.owner?_iff.mp owner).1

omit sound kept zero relax number

/-- All expressions of a body have a property. -/
def Body.Each (holds : Expr → Prop) : Body → Prop
  | keep => True
  | decide decision => decision.Each holds
  | height level _ => holds level

/-- Every sound graph has a body of expressions that the rules make. -/
theorem bodyOf_makes (sound : g.Sound) (a : Assignment)
    (kept : ∀ n ∈ g.nodes, Kept holds n (.name (contentsOf a.slots n)))
    (zero : holds (.integer 0)) (relax : ∀ e, holds e → weaker e)
    (number : ∀ x, weaker (.number x)) :
    ∃ body declared, bodyOf g a = .ok (body, declared) ∧ body.Each weaker := by
  unfold bodyOf
  cases output : g.output? with
  | none => exact ⟨_, _, rfl, trivial⟩
  | some o =>
    dsimp only
    split
    · cases source : (g.wiring.incoming? (portId o.id "in")).bind
          fun c => g.wiring.owner? c.source with
      | none => exact ⟨_, _, rfl, trivial⟩
      | some m =>
        obtain ⟨c, _, owner⟩ := Option.bind_eq_some_iff.mp source
        obtain ⟨d, decided, each⟩ := decision_makes sound kept zero relax number
          (sound.owner?_iff.mp owner).1
        dsimp only
        rw [decided]
        exact ⟨_, _, rfl, each⟩
    · obtain ⟨level, emitted, ofLevel⟩ := inputExpr_makes sound kept zero o "in"
      rw [emitted]
      exact ⟨_, _, rfl, relax _ ofLevel⟩

end Script

end Landform
