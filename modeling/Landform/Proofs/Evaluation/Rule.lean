import Landform.Evaluation.Rule

/-!
# What a rule depends on

The rule of a node asks for the inputs that the kind of the node declares and for no others. A rule
for a number output gives a number or fails. On numbers only two kinds can fail: a bell whose spread
vanishes when it is squared, and a view that delivers a count beyond the doubles.

1. `rule_congr`: what a rule asks for.
2. `rule_number`: what it gives.
3. `rule_isSome`: when it succeeds.
-/

namespace Landform.Params

/-- A rule gives the same on surroundings that agree on the point, on the declared inputs, and on
which inputs have a connection. -/
theorem rule_congr (p : Params) (role : String) {s s' : Surroundings} (point : s.point = s'.point)
    (inputs : ∀ spec ∈ p.kind.inputs, s.input spec.role = s'.input spec.role)
    (connected : s.isConnected = s'.isConnected) : p.rule role s = p.rule role s' := by
  have numbers : ∀ spec ∈ p.kind.inputs, s.number? spec.role = s'.number? spec.role :=
    fun spec declared => congrArg Signal.number? (inputs spec declared)
  cases p with
  | add | subtract | multiply | abs | lerp _ | coserp | gaussian _ | remap _ | distance _ =>
    simp only [kind, Kind.inputs, Kind.number, Kind.pointInputs, PortSpec.input, List.mem_cons,
      List.not_mem_nil, or_false, forall_eq_or_imp, forall_eq] at numbers
    simp only [rule, numbers]
  | noise2d _ | noise3d _ | mandelbrot _ | position => simp only [rule, point]
  | terrainType _ => rfl
  | compare test =>
    simp only [kind, Kind.inputs, Kind.number, Kind.branch, PortSpec.input, List.mem_cons,
      List.not_mem_nil, or_false, forall_eq_or_imp, forall_eq] at inputs
    obtain ⟨first, second, ifTrue, ifFalse⟩ := inputs
    have branches : ∀ taken, s.input (test.branch taken).1 = s'.input (test.branch taken).1 := by
      rintro (_ | _)
      · exact ifFalse
      · exact ifTrue
    simp only [rule, first, second, connected, branches]
  | terrainOutput =>
    simp only [kind, Kind.inputs, PortSpec.input, List.mem_singleton, forall_eq] at inputs
    simp only [rule, inputs]

/-- A rule gives a number for a number output. -/
theorem rule_number {p : Params} {out : PortSpec} (declared : out ∈ p.kind.outputs)
    (float : out.kind = .float) {s : Surroundings} {signal : Signal}
    (succeeded : p.rule out.role s = some signal) : ∃ x, signal = .number x := by
  cases p with
  | remap b =>
    rw [rule] at succeeded
    split at succeeded
    · cases succeeded
      exact ⟨_, rfl⟩
    · obtain ⟨a, _, done⟩ := Option.bind_eq_some_iff.mp succeeded
      cases done
      exact ⟨_, rfl⟩
  | gaussian bell =>
    obtain ⟨x, _, succeeded⟩ := Option.bind_eq_some_iff.mp succeeded
    obtain ⟨y, _, succeeded⟩ := Option.bind_eq_some_iff.mp succeeded
    obtain ⟨z, _, succeeded⟩ := Option.bind_eq_some_iff.mp succeeded
    split at succeeded <;> cases succeeded
    exact ⟨_, rfl⟩
  | abs | mandelbrot _ | position =>
    obtain ⟨a, _, done⟩ := Option.bind_eq_some_iff.mp succeeded
    cases done
    exact ⟨_, rfl⟩
  | add | subtract | multiply =>
    obtain ⟨a, _, succeeded⟩ := Option.bind_eq_some_iff.mp succeeded
    obtain ⟨b, _, done⟩ := Option.bind_eq_some_iff.mp succeeded
    cases done
    exact ⟨_, rfl⟩
  | lerp _ | coserp | distance _ =>
    obtain ⟨a, _, succeeded⟩ := Option.bind_eq_some_iff.mp succeeded
    obtain ⟨b, _, succeeded⟩ := Option.bind_eq_some_iff.mp succeeded
    obtain ⟨c, _, done⟩ := Option.bind_eq_some_iff.mp succeeded
    cases done
    exact ⟨_, rfl⟩
  | noise2d _ | noise3d _ =>
    cases succeeded
    exact ⟨_, rfl⟩
  | terrainType _ | compare _ =>
    rw [List.mem_singleton.mp declared] at float
    cases float
  | terrainOutput => cases declared

/-- Whether the rule for parameters succeeds wherever its number inputs carry numbers. -/
def isTame : Params → Bool
  | gaussian bell => !(2.0 * bell.spread * bell.spread == 0.0)
  | mandelbrot view => view.remap
  | _ => true

/-- The rule for tame parameters succeeds on numbers. -/
theorem rule_isSome {p : Params} (tame : p.isTame = true) {out : PortSpec}
    (declared : out ∈ p.kind.outputs) {s : Surroundings}
    (numbers : ∀ spec ∈ p.kind.inputs, spec.kind = .float → ∃ x, s.input spec.role = .number x) :
    (p.rule out.role s).isSome = true := by
  have given : ∀ {role name}, Kind.number role name ∈ p.kind.inputs →
      ∃ x, s.number? role = some x := by
    intro role name listed
    obtain ⟨x, carried⟩ := numbers _ listed rfl
    exact ⟨x, congrArg Signal.number? carried⟩
  cases p with
  | add | subtract | multiply =>
    obtain ⟨a, ofA⟩ := given (.head _)
    obtain ⟨b, ofB⟩ := given (.tail _ (.head _))
    simp [rule, ofA, ofB]
  | abs =>
    obtain ⟨a, ofA⟩ := given (.head _)
    simp [rule, ofA]
  | lerp _ | coserp | distance _ =>
    obtain ⟨a, ofA⟩ := given (.head _)
    obtain ⟨b, ofB⟩ := given (.tail _ (.head _))
    obtain ⟨c, ofC⟩ := given (.tail _ (.tail _ (.head _)))
    simp [rule, ofA, ofB, ofC]
  | remap b =>
    obtain ⟨a, ofA⟩ := given (.head _)
    rw [rule]
    split <;> simp [ofA]
  | gaussian bell =>
    obtain ⟨a, ofA⟩ := given (.head _)
    obtain ⟨b, ofB⟩ := given (.tail _ (.head _))
    obtain ⟨c, ofC⟩ := given (.tail _ (.tail _ (.head _)))
    have wide : (2.0 * bell.spread * bell.spread == 0.0) = false := by simpa [isTame] using tame
    simp [rule, ofA, ofB, ofC, Curve.gaussian, wide]
  | mandelbrot view =>
    have spread : view.remap = true := tame
    simp [rule, Noise.Mandelbrot.value?, spread]
  | position =>
    rcases (by simpa [kind, Kind.outputs] using declared : _ ∨ _ ∨ _) with rfl | rfl | rfl <;> rfl
  | compare test =>
    obtain ⟨a, ofA⟩ := numbers (Kind.number "in1" "A") (.head _) rfl
    obtain ⟨b, ofB⟩ := numbers (Kind.number "in2" "B") (.tail _ (.head _)) rfl
    have first : s.input "in1" = .number a := ofA
    have second : s.input "in2" = .number b := ofB
    simp [rule, first, second, Comparison.decide?]
  | noise2d _ | noise3d _ | terrainType _ | terrainOutput => rfl

end Landform.Params
