import Landform.Curve
import Landform.Lua.Expr
import Landform.Noise.Escape
import Landform.Terrain
import Mathlib.Data.List.Forall2

/-!
# What generated code means

An expression stands for a whole number, a number, or the content of a name. Its text has to be
grouped the way the expression is, since rendering adds no parentheses. The lines of a decision are
statements over expressions of some kind; a machine that is told their values runs them one after
the other and keeps, for each `if` that is still open, whether the branch being read runs and
whether the other one does.

1. `Expr.meaning?`, `Expr.number?`: the meaning of an expression, and its number.
2. `Expr.Grouped`: operands that bind as tightly as their place asks for.
3. `Statement`, `Writes`, `run`: statements, the lines they are written on, and how they run.
4. `writes_lines`, `run_statements`: the lines of a decision, and what they assign.
-/

namespace Landform.Lua

/-! ## 1. Meanings -/

/-- What an expression stands for. -/
inductive Meaning where
  | whole (n : Int)
  | real (x : Float)
  /-- The content of a name. -/
  | content (name : String)

/-- The number of a meaning. A whole number counts as the nearest double. -/
def Meaning.number? : Meaning → Option Float
  | whole n => Decimal.ofInt? n
  | real x => some x
  | content _ => none

/-- What the variables of an expression stand for. -/
structure Env where
  point : Point
  /-- The value of the noise field of a node. -/
  noise : Int → Option Float
  /-- The name whose content a local holds. -/
  content : String → Option String

/-- The arithmetic operation of an operator. -/
def Operator.apply : Operator → Float → Float → Float
  | add, x, y => x + y
  | subtract, x, y => x - y
  | multiply, x, y => x * y
  | divide, x, y => x / y

/-- The coordinate along an axis. -/
def Axis.of (axis : Axis) (p : Point) : Float :=
  match axis with
  | x => p.x
  | y => p.y
  | z => p.z

/-- The result of a call. Interpolation without a power has the power one, and a count is spread
over a range by the quotient of the whole numbers. -/
def Function.result? : Function → List Meaning → Option Meaning
  | abs, [v] => return .real (← v.number?).abs
  | sqrt, [v] => return .real (← v.number?).sqrt
  | lerp, [a, b, t] => return .real (Curve.lerp (← a.number?) (← b.number?) (← t.number?) 1.0)
  | lerp, [a, b, t, power] =>
    return .real (Curve.lerp (← a.number?) (← b.number?) (← t.number?) (← power.number?))
  | coserp, [a, b, t] => return .real (Curve.coserp (← a.number?) (← b.number?) (← t.number?))
  | remap, [.whole n, .whole low, .whole high, a, b] => do
    let a ← a.number?
    let b ← b.number?
    if low = high then return .real a
    else return .real (Noise.Scalar.ofQuotient (n - low) (high - low) * (b - a) + a)
  | remap, [v, low, high, a, b] =>
    return .real (Curve.remap (← v.number?) (← low.number?) (← high.number?) (← a.number?)
      (← b.number?))
  | gaussian, [x, y, z, cx, cy, cz, spread] => do
    match Curve.gaussian (← x.number?) (← y.number?) (← z.number?) (← cx.number?) (← cy.number?)
        (← cz.number?) (← spread.number?) with
    | .ok value => return .real value
    | .error _ => none
  | mandelbrot, [x, z, .whole steps] =>
    return .whole (Noise.escapeCount (← x.number?) (← z.number?) steps)
  | _, _ => none

mutual

/-- The meaning of an expression, if it has one. A literal means the parameter that it prints. -/
def Expr.meaning? (env : Env) : Expr → Option Meaning
  | .number x => some (.real x)
  | .integer n => some (.whole n)
  | .coordinate axis => some (.real (axis.of env.point))
  | .noise node => (env.noise node).map .real
  | .name slot => (env.content slot).map .content
  | .group inner => inner.meaning? env
  | .square base => do
    let x ← (← base.meaning? env).number?
    return .real (x * x)
  | .binary operator left right => do
    let x ← (← left.meaning? env).number?
    let y ← (← right.meaning? env).number?
    return .real (operator.apply x y)
  | .call function arguments => do function.result? (← meanings? env arguments)

/-- The meanings of expressions. -/
def meanings? (env : Env) : List Expr → Option (List Meaning)
  | [] => some []
  | e :: rest => return (← e.meaning? env) :: (← meanings? env rest)

end

/-- The number that an expression stands for. -/
def Expr.number? (env : Env) (e : Expr) : Option Float :=
  (e.meaning? env).bind Meaning.number?

section Numbers

variable {env : Env} {a b c : Expr} {x y z : Float}

theorem Meaning.number?_real (x : Float) : (real x).number? = some x := rfl

theorem Expr.number?_eq_some :
    a.number? env = some x ↔ ∃ v, a.meaning? env = some v ∧ v.number? = some x :=
  Option.bind_eq_some_iff

theorem Expr.number?_group (inner : Expr) : (group inner).number? env = inner.number? env :=
  rfl

theorem Expr.number?_square (first : a.number? env = some x) :
    (square a).number? env = some (x * x) := by
  obtain ⟨v, meaning, number⟩ := number?_eq_some.mp first
  have squared : (square a).meaning? env = do
      let x ← (← a.meaning? env).number?
      return .real (x * x) := rfl
  rw [number?, squared, meaning]
  simp [number, Meaning.number?_real]

theorem Expr.number?_binary (operator : Operator) (first : a.number? env = some x)
    (second : b.number? env = some y) :
    (binary operator a b).number? env = some (operator.apply x y) := by
  obtain ⟨v, meaning, number⟩ := number?_eq_some.mp first
  obtain ⟨v', meaning', number'⟩ := number?_eq_some.mp second
  have applied : (binary operator a b).meaning? env = do
      let x ← (← a.meaning? env).number?
      let y ← (← b.meaning? env).number?
      return .real (operator.apply x y) := rfl
  rw [number?, applied, meaning, meaning']
  simp [number, number', Meaning.number?_real]

theorem meanings?_cons {e : Expr} {rest : List Expr} {v : Meaning} {vs : List Meaning}
    (first : e.meaning? env = some v) (others : meanings? env rest = some vs) :
    meanings? env (e :: rest) = some (v :: vs) := by
  have listed : meanings? env (e :: rest) = do
      return (← e.meaning? env) :: (← meanings? env rest) := rfl
  rw [listed, first, others]
  rfl

theorem Expr.meaning?_call {function : Function} {arguments : List Expr} {vs : List Meaning}
    {v : Meaning} (given : meanings? env arguments = some vs)
    (result : function.result? vs = some v) :
    (call function arguments).meaning? env = some v := by
  have called : (call function arguments).meaning? env =
      (meanings? env arguments).bind function.result? := rfl
  rw [called, given]
  exact result

theorem Expr.number?_call {function : Function} {arguments : List Expr} {vs : List Meaning}
    (given : meanings? env arguments = some vs) (result : function.result? vs = some (.real x)) :
    (call function arguments).number? env = some x := by
  rw [number?, meaning?_call given result]
  rfl

theorem Expr.number?_abs (first : a.number? env = some x) :
    (call .abs [a]).number? env = some x.abs := by
  obtain ⟨v, meaning, number⟩ := number?_eq_some.mp first
  refine number?_call (meanings?_cons meaning rfl) ?_
  show (do return Meaning.real (← v.number?).abs) = _
  simp [number]

theorem Expr.number?_sqrt (first : a.number? env = some x) :
    (call .sqrt [a]).number? env = some x.sqrt := by
  obtain ⟨v, meaning, number⟩ := number?_eq_some.mp first
  refine number?_call (meanings?_cons meaning rfl) ?_
  show (do return Meaning.real (← v.number?).sqrt) = _
  simp [number]

/-- A call whose first three arguments stand for numbers, when its function gives the same whatever
else they mean. -/
theorem Expr.number?_call_three {function : Function} {rest : List Expr} {vs : List Meaning}
    {result : Float} (first : a.number? env = some x) (second : b.number? env = some y)
    (third : c.number? env = some z) (others : meanings? env rest = some vs)
    (gives : ∀ u v w : Meaning, u.number? = some x → v.number? = some y → w.number? = some z →
      function.result? (u :: v :: w :: vs) = some (.real result)) :
    (call function (a :: b :: c :: rest)).number? env = some result := by
  obtain ⟨u, meaning, number⟩ := number?_eq_some.mp first
  obtain ⟨v, meaning', number'⟩ := number?_eq_some.mp second
  obtain ⟨w, meaning'', number''⟩ := number?_eq_some.mp third
  have given := meanings?_cons meaning (meanings?_cons meaning' (meanings?_cons meaning'' others))
  exact number?_call given (gives u v w number number' number'')

theorem Expr.number?_coserp (first : a.number? env = some x) (second : b.number? env = some y)
    (third : c.number? env = some z) :
    (call .coserp [a, b, c]).number? env = some (Curve.coserp x y z) := by
  refine number?_call_three first second third rfl fun u v w ofU ofV ofW => ?_
  show (do return Meaning.real (Curve.coserp (← u.number?) (← v.number?) (← w.number?))) = _
  simp [ofU, ofV, ofW]

theorem Expr.number?_lerp (first : a.number? env = some x) (second : b.number? env = some y)
    (third : c.number? env = some z) :
    (call .lerp [a, b, c]).number? env = some (Curve.lerp x y z 1.0) := by
  refine number?_call_three first second third rfl fun u v w ofU ofV ofW => ?_
  show (do return Meaning.real (Curve.lerp (← u.number?) (← v.number?) (← w.number?) 1.0)) = _
  simp [ofU, ofV, ofW]

theorem Expr.number?_lerp_power (first : a.number? env = some x) (second : b.number? env = some y)
    (third : c.number? env = some z) (power : Float) :
    (call .lerp [a, b, c, .number power]).number? env = some (Curve.lerp x y z power) := by
  refine number?_call_three first second third (meanings?_cons rfl rfl) fun u v w ofU ofV ofW => ?_
  show (do return Meaning.real (Curve.lerp (← u.number?) (← v.number?) (← w.number?) power)) = _
  simp [ofU, ofV, ofW]

/-- Bounds that are numbers make a call a plain remapping, not the spread of a count. -/
theorem Expr.number?_remap (first : a.number? env = some x) (inMin inMax outMin outMax : Float) :
    (call .remap [a, .number inMin, .number inMax, .number outMin, .number outMax]).number? env =
      some (Curve.remap x inMin inMax outMin outMax) := by
  obtain ⟨v, meaning, number⟩ := number?_eq_some.mp first
  refine number?_call (meanings?_cons meaning (meanings?_cons rfl (meanings?_cons rfl
    (meanings?_cons rfl (meanings?_cons rfl rfl))))) ?_
  cases v <;> simp [Function.result?, number, Meaning.number?_real]

theorem Expr.number?_gaussian (first : a.number? env = some x) (second : b.number? env = some y)
    (third : c.number? env = some z) {cx cy cz spread height : Float}
    (defined : Curve.gaussian x y z cx cy cz spread = .ok height) :
    (call .gaussian [a, b, c, .number cx, .number cy, .number cz, .number spread]).number? env =
      some height := by
  have numbers : meanings? env [.number cx, .number cy, .number cz, .number spread] =
      some [.real cx, .real cy, .real cz, .real spread] := rfl
  refine number?_call_three first second third numbers fun u v w ofU ofV ofW => ?_
  simp [Function.result?, ofU, ofV, ofW, Meaning.number?_real, defined]

end Numbers

/-! ## 2. Precedence -/

/-- How tightly an operator binds. -/
def Operator.level : Operator → Nat
  | add | subtract => 1
  | multiply | divide => 2

/-- How tightly the outermost part of an expression binds: products more than sums, a sign more than
a product, a power more than a sign, and a part on its own most of all. -/
def Expr.level : Expr → Nat
  | .number x => if (Lua.number x).toList.head? = some '-' then 3 else 5
  | .integer n => if n < 0 then 3 else 5
  | .square _ => 4
  | .binary operator _ _ => operator.level
  | .coordinate _ | .noise _ | .name _ | .group _ | .call _ _ => 5

/-- A word that only a local can be: `c_`, and then characters that may stand in an identifier. -/
def IsContentLocal (slot : String) : Prop :=
  ∃ rest, slot.toList = 'c' :: '_' :: rest ∧ rest.all isIdentifierChar = true

mutual

/-- The text of an expression groups as the expression does. A chain of operators groups to the
left, the base of a power is a part on its own, a local is a word, and the name of a noise field
has no sign. -/
def Expr.Grouped : Expr → Prop
  | .number _ | .integer _ | .coordinate _ => True
  | .name slot => IsContentLocal slot
  | .noise node => 0 ≤ node
  | .group inner => inner.Grouped
  | .square base => base.Grouped ∧ 5 ≤ base.level
  | .binary operator left right =>
    left.Grouped ∧ right.Grouped ∧ operator.level ≤ left.level ∧ operator.level < right.level
  | .call _ arguments => GroupedAll arguments

/-- The texts of expressions group as the expressions do. -/
def GroupedAll : List Expr → Prop
  | [] => True
  | e :: rest => e.Grouped ∧ GroupedAll rest

end

theorem Operator.level_lt_number (operator : Operator) (x : Float) :
    operator.level < (Expr.number x).level := by
  rw [Expr.level]
  cases operator <;> split <;> decide

/-! ## 3. Statements -/

/-- The statements of generated code, over expressions of some kind. -/
inductive Statement (ε : Type) where
  | blank
  | comment (text : String)
  | assign (content : ε)
  | branch (left : ε) (test : Comparison) (right : ε)
  | otherwise
  | close

/-- A statement over other expressions. -/
def Statement.map {ε δ : Type} (f : ε → δ) : Statement ε → Statement δ
  | blank => blank
  | comment text => comment text
  | assign content => assign (f content)
  | branch left test right => branch (f left) test (f right)
  | otherwise => otherwise
  | close => close

/-- The expressions of a statement. -/
def Statement.expressions {ε : Type} : Statement ε → List ε
  | assign content => [content]
  | branch left _ right => [left, right]
  | _ => []

/-- The text of a statement. -/
def Statement.text : Statement Expr → String
  | blank => ""
  | comment text => "--" ++ text
  | assign content => "content = " ++ content.render
  | branch left test right =>
    "if " ++ left.render ++ " " ++ comparisonSign test ++ " " ++ right.render ++ " then"
  | otherwise => "else"
  | close => "end"

/-- The expressions of a statement group as they are written, and a comment ends with its line. -/
def Statement.Grouped : Statement Expr → Prop
  | assign content => content.Grouped
  | branch left _ right => left.Grouped ∧ right.Grouped
  | comment text => text.toList.head? ≠ some '['
  | _ => True

/-- A line is written for a statement: the text of the statement stands behind spaces, and groups as
it is written. -/
structure Writes (line : String) (s : Statement Expr) : Prop where
  text_eq : ∃ count, line = String.ofList (List.replicate count ' ') ++ s.text
  grouped : s.Grouped

/-- Whether the branch being read of an open `if` runs, and whether its other branch does. -/
structure Block where
  runs : Bool
  other : Bool

/-- The content assigned so far, and the blocks that are open, the innermost first. -/
structure State where
  content : Meaning
  blocks : List Block

/-- Whether the next statement runs. -/
def State.live (s : State) : Bool :=
  s.blocks.head?.all (·.runs)

section Run

variable {ε δ : Type} (value? : ε → Option Meaning)

/-- One statement, given the values of expressions. A block inside a branch that does not run has no
branch that does; `else` and `end` need an open block. -/
def Statement.step (s : State) : Statement ε → Option State
  | blank | comment _ => some s
  | assign e => if s.live then (value? e).map fun v => ⟨v, s.blocks⟩ else some s
  | branch left test right =>
    if s.live then do
      let x ← (value? left).bind Meaning.number?
      let y ← (value? right).bind Meaning.number?
      return ⟨s.content, ⟨test.holds x y, !test.holds x y⟩ :: s.blocks⟩
    else some ⟨s.content, ⟨false, false⟩ :: s.blocks⟩
  | otherwise =>
    match s.blocks with
    | [] => none
    | block :: outer => some ⟨s.content, ⟨block.other, false⟩ :: outer⟩
  | close =>
    match s.blocks with
    | [] => none
    | _ :: outer => some ⟨s.content, outer⟩

/-- Runs statements one after the other. -/
def run : State → List (Statement ε) → Option State
  | s, [] => some s
  | s, first :: rest => do run (← first.step value? s) rest

variable {value?}

theorem run_cons {s t : State} {first : Statement ε} (stepped : first.step value? s = some t)
    (rest : List (Statement ε)) : run value? s (first :: rest) = run value? t rest := by
  rw [run, stepped]
  rfl

/-- A statement does the same over other expressions that have the same values. -/
theorem Statement.step_map {f : ε → δ} {other? : δ → Option Meaning} {first : Statement ε}
    (values : ∀ e ∈ first.expressions, ∀ v, value? e = some v → other? (f e) = some v)
    {s t : State} (stepped : first.step value? s = some t) :
    (first.map f).step other? s = some t := by
  cases first with
  | assign e =>
    rw [step] at stepped
    rw [map, step]
    split at stepped
    · next live =>
      obtain ⟨v, value, rfl⟩ := Option.map_eq_some_iff.mp stepped
      rw [if_pos live, values e (List.mem_singleton_self e) v value, Option.map_some]
    · next dead => rwa [if_neg dead]
  | branch left test right =>
    rw [step] at stepped
    rw [map, step]
    split at stepped
    · next live =>
      obtain ⟨x, first, stepped⟩ := Option.bind_eq_some_iff.mp stepped
      obtain ⟨v, value, number⟩ := Option.bind_eq_some_iff.mp first
      obtain ⟨y, second, stepped⟩ := Option.bind_eq_some_iff.mp stepped
      obtain ⟨w, value', number'⟩ := Option.bind_eq_some_iff.mp second
      rw [if_pos live, values left (by simp [expressions]) v value,
        values right (by simp [expressions]) w value', Option.bind_some, Option.bind_some, number,
        number']
      exact stepped
    · next dead => rwa [if_neg dead]
  | blank | comment _ | otherwise | close => exact stepped

/-- Statements do the same over other expressions that have the same values. -/
theorem run_map {f : ε → δ} {other? : δ → Option Meaning} {statements : List (Statement ε)}
    (values : ∀ first ∈ statements, ∀ e ∈ first.expressions, ∀ v, value? e = some v →
      other? (f e) = some v) {s t : State} (ran : run value? s statements = some t) :
    run other? s (statements.map (·.map f)) = some t := by
  induction statements generalizing s with
  | nil => exact ran
  | cons first rest ih =>
    obtain ⟨head, tail⟩ := List.forall_mem_cons.mp values
    obtain ⟨next, stepped, ran⟩ := Option.bind_eq_some_iff.mp ran
    rw [List.map_cons, run_cons (Statement.step_map head stepped), ih tail ran]

end Run

/-! ## 4. Decisions -/

namespace Decision

/-- A decision as statements. -/
def statements : Decision → List (Statement Expr)
  | assign content => [.assign content]
  | choose node left test right ifTrue ifFalse =>
    [.comment (" Comparison " ++ Decimal.integerText node), .branch left test right] ++
      ifTrue.statements ++ [.otherwise] ++ ifFalse.statements ++ [.close]

/-- All expressions of a decision group as they are written. -/
def Grouped : Decision → Prop
  | assign content => content.Grouped
  | choose _ left _ right ifTrue ifFalse =>
    left.Grouped ∧ right.Grouped ∧ ifTrue.Grouped ∧ ifFalse.Grouped

/-- The content that a decision assigns. -/
def outcome? (env : Env) : Decision → Option Meaning
  | assign content => content.meaning? env
  | choose _ left test right ifTrue ifFalse => do
    let x ← left.number? env
    let y ← right.number? env
    if test.holds x y then ifTrue.outcome? env else ifFalse.outcome? env

/-- A choice has the outcome of the branch that its numbers decide for. -/
theorem outcome?_choose {env : Env} {node : Int} {left right : Expr} {test : Comparison}
    {ifTrue ifFalse : Decision} {x y : Float} (first : left.number? env = some x)
    (second : right.number? env = some y) :
    (choose node left test right ifTrue ifFalse).outcome? env =
      (if test.holds x y then ifTrue else ifFalse).outcome? env := by
  rw [outcome?, first, second]
  exact (apply_ite (outcome? env) _ _ _).symm

/-- The lines of a decision are written for its statements. -/
theorem writes_lines (d : Decision) (grouped : d.Grouped) (count : Nat) :
    List.Forall₂ Writes (d.lines (String.ofList (List.replicate count ' '))) d.statements := by
  induction d generalizing count with
  | assign content =>
    refine .cons ⟨⟨count, ?_⟩, grouped⟩ .nil
    rw [Statement.text, String.append_assoc]
  | choose node left test right ifTrue ifFalse ihTrue ihFalse =>
    obtain ⟨ofLeft, ofRight, ofTrue, ofFalse⟩ := grouped
    have deeper : String.ofList (List.replicate count ' ') ++ step =
        String.ofList (List.replicate (count + 4) ' ') := by
      rw [List.replicate_add, String.ofList_append]
      rfl
    have comment : Writes (String.ofList (List.replicate count ' ') ++ "-- Comparison " ++
        Decimal.integerText node) (.comment (" Comparison " ++ Decimal.integerText node)) := by
      refine ⟨⟨count, ?_⟩, by simp [Statement.Grouped]⟩
      rw [← String.toList_inj]
      simp [Statement.text]
    have branch : Writes (String.ofList (List.replicate count ' ') ++ "if " ++ left.render ++ " " ++
        comparisonSign test ++ " " ++ right.render ++ " then") (.branch left test right) := by
      refine ⟨⟨count, ?_⟩, ofLeft, ofRight⟩
      simp only [Statement.text, String.append_assoc]
    have otherwise : Writes (String.ofList (List.replicate count ' ') ++ "else") .otherwise :=
      ⟨⟨count, rfl⟩, trivial⟩
    have close : Writes (String.ofList (List.replicate count ' ') ++ "end") .close :=
      ⟨⟨count, rfl⟩, trivial⟩
    rw [lines, statements, deeper]
    exact List.rel_append (List.rel_append (List.rel_append (List.rel_append
      (.cons comment (.cons branch .nil)) (ihTrue ofTrue _)) (.cons otherwise .nil))
      (ihFalse ofFalse _)) (.cons close .nil)

theorem statements_choose_append (node : Int) (left : Expr) (test : Comparison) (right : Expr)
    (ifTrue ifFalse : Decision) (rest : List (Statement Expr)) :
    (choose node left test right ifTrue ifFalse).statements ++ rest =
      .comment (" Comparison " ++ Decimal.integerText node) :: .branch left test right ::
        (ifTrue.statements ++ .otherwise :: (ifFalse.statements ++ .close :: rest)) := by
  simp [statements]

/-- In a branch that does not run, a decision does nothing. -/
theorem run_skipped (env : Env) (d : Decision) {s : State} (dead : s.live = false)
    (rest : List (Statement Expr)) :
    run (Expr.meaning? env) s (d.statements ++ rest) = run (Expr.meaning? env) s rest := by
  induction d generalizing s rest with
  | assign content =>
    have stays : (Statement.assign content).step (Expr.meaning? env) s = some s := by
      rw [Statement.step, if_neg (by simp [dead])]
    exact run_cons stays rest
  | choose node left test right ifTrue ifFalse ihTrue ihFalse =>
    have opens : (Statement.branch left test right).step (Expr.meaning? env) s =
        some ⟨s.content, ⟨false, false⟩ :: s.blocks⟩ := by
      rw [Statement.step, if_neg (by simp [dead])]
    rw [statements_choose_append, run_cons rfl, run_cons opens, ihTrue rfl, run_cons rfl,
      ihFalse rfl, run_cons rfl]

/-- In a branch that runs, a decision assigns its outcome, and leaves the open blocks as they
are. -/
theorem run_statements (env : Env) (d : Decision) {s : State} (live : s.live = true) {v : Meaning}
    (outcome : d.outcome? env = some v) (rest : List (Statement Expr)) :
    run (Expr.meaning? env) s (d.statements ++ rest) =
      run (Expr.meaning? env) ⟨v, s.blocks⟩ rest := by
  induction d generalizing s rest with
  | assign content =>
    have assigns : (Statement.assign content).step (Expr.meaning? env) s = some ⟨v, s.blocks⟩ := by
      rw [Statement.step, if_pos live]
      exact congrArg (Option.map _) outcome
    exact run_cons assigns rest
  | choose node left test right ifTrue ifFalse ihTrue ihFalse =>
    rw [outcome?] at outcome
    obtain ⟨x, first, outcome⟩ := Option.bind_eq_some_iff.mp outcome
    obtain ⟨y, second, outcome⟩ := Option.bind_eq_some_iff.mp outcome
    have opens : (Statement.branch left test right).step (Expr.meaning? env) s =
        some ⟨s.content, ⟨test.holds x y, !test.holds x y⟩ :: s.blocks⟩ := by
      have first : (left.meaning? env).bind Meaning.number? = some x := first
      have second : (right.meaning? env).bind Meaning.number? = some y := second
      rw [Statement.step, if_pos live, first, second]
      rfl
    rw [statements_choose_append, run_cons rfl, run_cons opens]
    -- the branch that does not run is read all the same, up to its `else` or `end`
    cases taken : test.holds x y with
    | true =>
      rw [taken, if_pos rfl] at outcome
      rw [ihTrue rfl outcome, run_cons rfl, run_skipped env ifFalse rfl, run_cons rfl]
    | false =>
      rw [taken, if_neg Bool.false_ne_true] at outcome
      rw [run_skipped env ifTrue rfl, run_cons rfl, ihFalse rfl outcome, run_cons rfl]

end Decision

end Landform.Lua
