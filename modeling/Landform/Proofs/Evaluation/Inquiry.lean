import Landform.Proofs.Evaluation.Rule

/-!
# Rules as inquiries

A rule asks for the signals of its inputs one after the other, and what it asks for next may depend
on the answers. `Inquiry` has the questions as data, so that one rule can be run where an answer is
a signal, where asking can fail, and where the questions are noted down.

1. `Inquiry.answer`, `Inquiry.asked`, `Inquiry.run`: running an inquiry.
2. `Params.inquiry`, `rule_eq_answer`: the rules of the nodes, in the order in which they ask.
3. `asked_inquiry`: a rule asks for required inputs and for connected ones.
-/

namespace Landform

/-- A computation that asks for inputs by role until it has its result. -/
inductive Inquiry (α β : Type) where
  | done (result : β)
  | ask (role : String) (next : α → Inquiry α β)

namespace Inquiry

/-! ## 1. Running inquiries -/

section Running

variable {α β : Type}

/-- The result when the inputs are known. -/
def answer (input : String → α) : Inquiry α β → β
  | done result => result
  | ask role next => (next (input role)).answer input

/-- The roles that are asked for when the inputs are known, in order. -/
def asked (input : String → α) : Inquiry α β → List String
  | done _ => []
  | ask role next => role :: (next (input role)).asked input

/-- The result when asking has effects. -/
def run {m : Type → Type} [Monad m] (input : String → m α) : Inquiry α β → m β
  | done result => pure result
  | ask role next => do (next (← input role)).run input

/-- Asking does not fail if it fails for none of the roles that are asked for. -/
theorem run_eq_ok {ε : Type} {given : String → α} {input : String → Except ε α}
    (q : Inquiry α β) (agree : ∀ role ∈ q.asked given, input role = .ok (given role)) :
    q.run input = .ok (q.answer given) := by
  induction q with
  | done result => rfl
  | ask role next ih =>
    have first := agree role List.mem_cons_self
    unfold run
    rw [first]
    exact ih _ fun later listed => agree later (List.mem_cons_of_mem _ listed)

/-- What holds of steps without effects and of steps one after the other holds of a whole run. -/
theorem holds_run {m : Type → Type} [Monad m] {P : ∀ {γ : Type}, m γ → Prop}
    (pure : ∀ {γ : Type} (c : γ), P (pure c))
    (bind : ∀ {γ δ : Type} {a : m γ} {f : γ → m δ}, P a → (∀ c, P (f c)) → P (a >>= f))
    {input : String → m α} (each : ∀ role, P (input role)) (q : Inquiry α β) :
    P (q.run input) := by
  induction q with
  | done result => exact pure result
  | ask role next ih => exact bind (each role) ih

end Running

end Inquiry

/-! ## 2. The rules of the nodes -/

namespace Params

/-- What a rule asks for, and its result. Arithmetic needs all its numbers before it can fail, but a
distance gives up at the first input that is no number. -/
def inquiry (p : Params) (role : String) (point : Point) (isConnected : String → Bool) :
    Inquiry Signal (Option Signal) :=
  match p with
  | add => .ask "in1" fun a => .ask "in2" fun b =>
    .done do return .number ((← a.number?) + (← b.number?))
  | subtract => .ask "in1" fun a => .ask "in2" fun b =>
    .done do return .number ((← a.number?) - (← b.number?))
  | multiply => .ask "in1" fun a => .ask "in2" fun b =>
    .done do return .number ((← a.number?) * (← b.number?))
  | abs => .ask "in" fun a => .done do return .number (← a.number?).abs
  | lerp power => .ask "in1" fun a => .ask "in2" fun b => .ask "factor" fun t =>
    .done do return .number (Curve.lerp (← a.number?) (← b.number?) (← t.number?) power)
  | coserp => .ask "in1" fun a => .ask "in2" fun b => .ask "factor" fun t =>
    .done do return .number (Curve.coserp (← a.number?) (← b.number?) (← t.number?))
  | gaussian bell => .ask "x" fun x => .ask "y" fun y => .ask "z" fun z => .done do
    let x ← x.number?
    let y ← y.number?
    let z ← z.number?
    match Curve.gaussian x y z bell.centerX bell.centerY bell.centerZ bell.spread with
    | .ok value => return .number value
    | .error _ => none
  | remap b => .ask "in" fun a => .done <|
    if b.inMin == b.inMax then some (.number b.outMin)
    else do return .number (Curve.remap (← a.number?) b.inMin b.inMax b.outMin b.outMax)
  | distance p => .ask "x" fun x => match x.number? with
    | none => .done none
    | some x => .ask "y" fun y => match y.number? with
      | none => .done none
      | some y => .ask "z" fun z =>
        .done do return .number (Curve.distance x y (← z.number?) p.x p.y p.z)
  | noise2d settings => .done (some (.number (settings.fractal2 point.x point.z 0)))
  | noise3d settings => .done (some (.number (settings.fractal3 point.x point.y point.z 0)))
  | mandelbrot view => .done do return .number (← view.value? point.x point.z)
  | position => .done do return .number (← point.coordinate? role)
  | terrainType t => .done (some (.terrain t))
  | compare test => .ask "in1" fun a => .ask "in2" fun b =>
    match test.operator.decide? a b with
    | none => .done none
    | some taken =>
      if isConnected (test.branch taken).1 then .ask (test.branch taken).1 fun s => .done (some s)
      else .done (some (.number (test.branch taken).2))
  | terrainOutput => .ask "in" fun s => .done (some s)

/-- A rule gives the answer of its inquiry. -/
theorem rule_eq_answer (p : Params) (role : String) (s : Surroundings) :
    p.rule role s = (p.inquiry role s.point s.isConnected).answer s.input := by
  cases p with
  | add | subtract | multiply | abs | lerp _ | coserp | gaussian _ | remap _ | noise2d _
  | noise3d _ | mandelbrot _ | position | terrainType _ | terrainOutput => rfl
  | distance p =>
    unfold rule inquiry Surroundings.number?
    dsimp only [Inquiry.answer]
    cases (s.input "x").number? with
    | none => rfl
    | some x =>
      dsimp only [Inquiry.answer]
      cases (s.input "y").number? <;> rfl
  | compare test =>
    unfold rule inquiry
    dsimp only [Inquiry.answer]
    cases test.operator.decide? (s.input "in1") (s.input "in2") with
    | none => rfl
    | some taken =>
      show some (if s.isConnected (test.branch taken).1 = true then s.input (test.branch taken).1
        else .number (test.branch taken).2) = _
      dsimp only
      split <;> rfl

/-! ## 3. What is asked for -/

/-- An input that a rule may ask for: a required one, or one that is connected. -/
def Offered (p : Params) (isConnected : String → Bool) (role : String) : Prop :=
  ∃ spec ∈ p.kind.inputs, spec.role = role ∧ (spec.optional = false ∨ isConnected role = true)

/-- A rule asks for declared inputs, and for an optional one only if it is connected. -/
theorem asked_inquiry (p : Params) (out : String) (point : Point) (isConnected : String → Bool)
    (input : String → Signal) :
    ∀ role ∈ (p.inquiry out point isConnected).asked input, p.Offered isConnected role := by
  have required {p : Params} {role name : String} (listed : Kind.number role name ∈ p.kind.inputs) :
      p.Offered isConnected role := ⟨_, listed, rfl, .inl rfl⟩
  cases p with
  | add | subtract | multiply =>
    rintro role (_ | ⟨_, _ | ⟨_, ⟨⟩⟩⟩)
    · exact required (.head _)
    · exact required (.tail _ (.head _))
  | abs | remap _ =>
    rintro role (_ | ⟨_, ⟨⟩⟩)
    exact required (.head _)
  | lerp _ | coserp | gaussian _ =>
    rintro role (_ | ⟨_, _ | ⟨_, _ | ⟨_, ⟨⟩⟩⟩⟩)
    · exact required (.head _)
    · exact required (.tail _ (.head _))
    · exact required (.tail _ (.tail _ (.head _)))
  | distance p =>
    unfold inquiry
    intro role listed
    have asked : role ∈ ["x", "y", "z"] := by
      dsimp only [Inquiry.asked] at listed
      split at listed
      · exact List.mem_of_mem_take (i := 1) listed
      · dsimp only [Inquiry.asked] at listed
        split at listed
        · exact List.mem_of_mem_take (i := 2) listed
        · exact listed
    rcases asked with _ | ⟨_, _ | ⟨_, _ | ⟨_, ⟨⟩⟩⟩⟩
    · exact required (.head _)
    · exact required (.tail _ (.head _))
    · exact required (.tail _ (.tail _ (.head _)))
  | compare test =>
    unfold inquiry
    rintro role (_ | ⟨_, _ | ⟨_, listed⟩⟩)
    · exact required (.head _)
    · exact required (.tail _ (.head _))
    · -- a branch is asked for behind the test that it is connected
      dsimp only at listed
      split at listed
      · cases listed
      · next taken _ =>
        split at listed
        · next connected =>
          cases List.mem_singleton.mp listed
          cases taken
          · exact ⟨_, .tail _ (.tail _ (.tail _ (.head _))), rfl, .inr connected⟩
          · exact ⟨_, .tail _ (.tail _ (.head _)), rfl, .inr connected⟩
        · cases listed
  | terrainOutput =>
    rintro role (_ | ⟨_, ⟨⟩⟩)
    exact ⟨_, .head _, rfl, .inl rfl⟩
  | noise2d _ | noise3d _ | mandelbrot _ | position | terrainType _ => rintro role ⟨⟩

end Params

end Landform
