import Landform.Proofs.Lua.Meaning
import Landform.Proofs.Lua.Rendered

/-!
# Bodies up to the names of their locals

The body of a script is a decision, or it declares a height and puts stone below it. Its
instructions run one after the other, as the statements of a decision do. What they do depends on
the names that their locals are declared for, and not on the locals themselves.

1. `Instruction`, `Shows`, `execute`: the instructions of a body, their lines, and how they run.
2. `Expr.rename`, `Decision.rename`, `Instruction.rename`: code with other locals.
3. `Expr.meaning?_rename`, `execute_rename`: what it does.
-/

namespace Landform.Lua

/-! ## 1. Instructions -/

/-- The instructions of a body: the statements of decisions, the local that holds a height, and the
test whether a place is below it. -/
inductive Instruction where
  | statement (s : Statement Expr)
  | level (height : Expr)
  | below

/-- The text of an instruction. -/
def Instruction.text : Instruction → String
  | statement s => s.text
  | level height => "local height = " ++ height.render
  | below => "if y < height then"

/-- The expressions of an instruction group as they are written. -/
def Instruction.Grouped : Instruction → Prop
  | statement s => s.Grouped
  | level height => height.Grouped
  | below => True

/-- A line shows an instruction: its text stands behind spaces, and groups as it is written. -/
structure Shows (line : String) (i : Instruction) : Prop where
  text_eq : ∃ count, line = String.ofList (List.replicate count ' ') ++ i.text
  grouped : i.Grouped

/-- The state of a body: that of its statements, and the height once it is declared. -/
structure Machine extends State where
  height : Option Meaning

/-- The name whose content a meaning is. -/
def Meaning.name? : Meaning → Option String
  | content name => some name
  | _ => none

theorem Meaning.name?_eq_some {v : Meaning} {name : String} :
    v.name? = some name ↔ v = .content name := by
  cases v <;> simp [name?]

/-- The number that a meaning has in a comparison with a height. A content counts as its id. -/
def Meaning.rank? (ids : String → Float) : Meaning → Option Float
  | content name => some (ids name)
  | v => v.number?

/-- One instruction. The height is declared outside all blocks. -/
def Instruction.step (env : Env) (ids : String → Float) (m : Machine) :
    Instruction → Option Machine
  | statement s => (s.step (Expr.meaning? env) m.toState).map fun next => ⟨next, m.height⟩
  | level height =>
    match m.blocks with
    | [] => (height.meaning? env).map fun v => ⟨m.toState, some v⟩
    | _ :: _ => none
  | below =>
    if m.live then do
      let height ← (← m.height).rank? ids
      let taken := Comparison.less.holds env.point.y height
      return ⟨⟨m.content, ⟨taken, !taken⟩ :: m.blocks⟩, m.height⟩
    else some ⟨⟨m.content, ⟨false, false⟩ :: m.blocks⟩, m.height⟩

/-- Runs instructions one after the other. -/
def execute (env : Env) (ids : String → Float) : Machine → List Instruction → Option Machine
  | m, [] => some m
  | m, first :: rest => do execute env ids (← first.step env ids m) rest

/-- The content that a body leaves behind when it starts with some content, if it runs to its end
and closes all its blocks. -/
def result? (env : Env) (ids : String → Float) (initial : Meaning) (body : List Instruction) :
    Option Meaning :=
  match execute env ids ⟨⟨initial, []⟩, none⟩ body with
  | some ⟨⟨content, []⟩, _⟩ => some content
  | _ => none

/-! ## 2. Other locals -/

mutual

/-- An expression with other locals. -/
def Expr.rename (f : String → String) : Expr → Expr
  | .name slot => .name (f slot)
  | .group inner => .group (inner.rename f)
  | .square base => .square (base.rename f)
  | .binary operator left right => .binary operator (left.rename f) (right.rename f)
  | .call function arguments => .call function (renameAll f arguments)
  | .number x => .number x
  | .integer n => .integer n
  | .coordinate axis => .coordinate axis
  | .noise node => .noise node

/-- Expressions with other locals. -/
def renameAll (f : String → String) : List Expr → List Expr
  | [] => []
  | e :: rest => e.rename f :: renameAll f rest

end

/-- A decision with other locals. -/
def Decision.rename (f : String → String) : Decision → Decision
  | assign content => .assign (content.rename f)
  | choose node left test right ifTrue ifFalse =>
    .choose node (left.rename f) test (right.rename f) (ifTrue.rename f) (ifFalse.rename f)

/-- An instruction with other locals. -/
def Instruction.rename (f : String → String) : Instruction → Instruction
  | statement s => .statement (s.map (·.rename f))
  | level height => .level (height.rename f)
  | below => .below

/-- The locals that a statement reads. -/
def Statement.names (s : Statement Expr) : List String :=
  s.expressions.flatMap Expr.names

/-- The locals that an instruction reads. -/
def Instruction.names : Instruction → List String
  | statement s => s.names
  | level height => height.names
  | below => []

theorem Decision.statements_rename (f : String → String) (d : Decision) :
    (d.rename f).statements = d.statements.map (·.map (·.rename f)) := by
  induction d with
  | assign content => rfl
  | choose node left test right ifTrue ifFalse ihTrue ihFalse =>
    rw [rename, statements, statements, ihTrue, ihFalse]
    simp [Statement.map]

/-- The statements of a decision read the locals of the decision. -/
theorem Decision.names_statements {d : Decision} {s : Statement Expr} (member : s ∈ d.statements) :
    ∀ slot ∈ s.names, slot ∈ d.names := by
  induction d with
  | assign content =>
    rw [List.mem_singleton.mp member]
    simp [Statement.names, Statement.expressions, names]
  | choose node left test right ifTrue ifFalse ihTrue ihFalse =>
    intro slot read
    simp only [statements, List.mem_append, List.mem_cons, List.not_mem_nil, or_false] at member
    simp only [names, List.mem_append]
    rcases member with ((((rfl | rfl) | inTrue) | rfl) | inFalse) | rfl
    · exact absurd read List.not_mem_nil
    · exact .inl (.inl (by simpa [Statement.names, Statement.expressions] using read))
    · exact .inl (.inr (ihTrue inTrue slot read))
    · exact absurd read List.not_mem_nil
    · exact .inr (ihFalse inFalse slot read)
    · exact absurd read List.not_mem_nil

/-! ## 3. What renamed code does -/

section Meaning

variable {env : Env} {f : String → String} {content : String → Option String}

mutual

/-- Renamed code means what it meant when the new locals stand for what the old ones stood for. -/
theorem Expr.meaning?_rename (e : Expr)
    (known : ∀ slot ∈ e.names, content (f slot) = env.content slot) :
    (e.rename f).meaning? { env with content := content } = e.meaning? env := by
  match e with
  | .number _ | .integer _ | .coordinate _ | .noise _ => rfl
  | .name slot =>
    rw [Expr.rename, Expr.meaning?, Expr.meaning?, ← known slot List.mem_cons_self]
  | .group inner =>
    rw [Expr.rename, Expr.meaning?, Expr.meaning?, inner.meaning?_rename known]
  | .square base =>
    rw [Expr.rename, Expr.meaning?, Expr.meaning?, base.meaning?_rename known]
  | .binary operator left right =>
    obtain ⟨first, second⟩ := List.forall_mem_append.mp known
    rw [Expr.rename, Expr.meaning?, Expr.meaning?, left.meaning?_rename first,
      right.meaning?_rename second]
  | .call function arguments =>
    rw [Expr.rename, Expr.meaning?, Expr.meaning?, meanings?_renameAll arguments known]

theorem meanings?_renameAll (arguments : List Expr)
    (known : ∀ slot ∈ namesAll arguments, content (f slot) = env.content slot) :
    meanings? { env with content := content } (renameAll f arguments) =
      meanings? env arguments := by
  match arguments with
  | [] => rfl
  | e :: rest =>
    obtain ⟨first, others⟩ := List.forall_mem_append.mp known
    rw [renameAll, meanings?, meanings?, e.meaning?_rename first, meanings?_renameAll rest others]

end

theorem Statement.step_rename (s : Statement Expr) (state : State)
    (known : ∀ slot ∈ s.names, content (f slot) = env.content slot) :
    (s.map (·.rename f)).step (Expr.meaning? { env with content := content }) state =
      s.step (Expr.meaning? env) state := by
  have same : ∀ e ∈ s.expressions,
      (e.rename f).meaning? { env with content := content } = e.meaning? env := fun e member =>
    e.meaning?_rename fun slot read => known slot (List.mem_flatMap.mpr ⟨e, member, read⟩)
  cases s with
  | assign e => rw [map, step, step, same e (by simp [expressions])]
  | branch left test right =>
    rw [map, step, step, same left (by simp [expressions]), same right (by simp [expressions])]
  | blank | comment _ | otherwise | close => rfl

theorem Instruction.step_rename (i : Instruction) (ids : String → Float) (m : Machine)
    (known : ∀ slot ∈ i.names, content (f slot) = env.content slot) :
    (i.rename f).step { env with content := content } ids m = i.step env ids m := by
  cases i with
  | statement s => rw [rename, step, step, s.step_rename _ known]
  | level height => rw [rename, step, step, height.meaning?_rename known]
  | below => rfl

theorem execute_rename (body : List Instruction) (ids : String → Float) (m : Machine)
    (known : ∀ i ∈ body, ∀ slot ∈ i.names, content (f slot) = env.content slot) :
    execute { env with content := content } ids m (body.map (·.rename f)) =
      execute env ids m body := by
  induction body generalizing m with
  | nil => rfl
  | cons first rest ih =>
    obtain ⟨head, tail⟩ := List.forall_mem_cons.mp known
    rw [List.map_cons, execute, execute, first.step_rename ids m head]
    exact Option.bind_congr fun next _ => ih next tail

end Meaning

end Landform.Lua
