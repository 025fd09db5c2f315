import Landform.Lua.Expr
import Landform.Proofs.Graph.Saved
import Landform.Proofs.Params.Merging

/-!
# What nodes store

The values that are given for the parameters of a node, in an update or in data, are of any type and
come under several names. What a node stores of them has been read: every field has its type and
meets what is demanded of it, at all times, since an update that would break this fails and leaves
the node as it was. The signs of operators are looked up when a comparison is evaluated and when it
is compiled, and a stored sign is always found.

1. `Form.types_of_coerce`: the types of what is read.
2. `met_nonzero` and the like: what the demands say.
3. `Params.valid_of_isChecked`: parameters that pass their checks are valid.
4. `Test.looked_up`: the operators behind the signs.
5. `Reachable.params_valid`: the nodes of reachable graphs.
-/

namespace Landform

open Text

/-! ## Definitions -/

/-- Whether a value in the plain form has the type of a form. -/
def Form.types : Form → Value → Bool
  | real, .float _ => true
  | whole, .int _ => true
  | truth, .bool _ => true
  | text, .text _ => true
  | flags, .int bits => 0 ≤ bits
  | material, .text name => ["solid", "liquid", "air"].contains name
  | _, _ => false

namespace Params

/-- A field is a number that is not zero. -/
def Nonzero (p : Params) (field : String) : Prop :=
  ∃ x, p.value field = .float x ∧ (x != 0.0) = true

/-- A field is an integer that is not negative. -/
def Counts (p : Params) (field : String) : Prop :=
  ∃ n, p.value field = .int n ∧ 0 ≤ n

/-- A field is a text that is not blank. -/
def Named (p : Params) (field : String) : Prop :=
  ∃ name, p.value field = .text name ∧ isBlankText name = false

/-- A field is one of some texts. -/
def OneOf (p : Params) (field : String) (choices : List String) : Prop :=
  ∃ choice ∈ choices, p.value field = .text choice

/-- Parameters whose fields have their types and meet what is demanded of them. -/
structure Valid (p : Params) : Prop where
  typed : ∀ name ∈ p.fieldNames, ∃ field ∈ p.kind.declared,
    field.name = name ∧ field.form.types (p.value name) = true
  noise : p.kind = .noise2d ∨ p.kind = .noise3d →
    p.Counts "octaves" ∧ p.Nonzero "spread_x" ∧ p.Nonzero "spread_y"
  space : p.kind = .noise3d → p.Nonzero "spread_z"
  mandelbrot : p.kind = .mandelbrot → p.Nonzero "scale" ∧ p.Counts "steps"
  gaussian : p.kind = .gaussian → p.Nonzero "spread"
  compare : p.kind = .compare → p.OneOf "operator" ["<", "<=", ">", ">=", "==", "!="]
  terrain : p.kind = .terrainType →
    p.Named "name" ∧ p.OneOf "material" ["solid", "liquid", "air"]

end Params

/-- The relations under whose signs the evaluator looks for an operator. -/
def Comparison.relations : Table (Float → Float → Bool) :=
  [("<", fun a b => a < b), ("<=", fun a b => a ≤ b), (">", fun a b => b < a),
    (">=", fun a b => b ≤ a), ("==", fun a b => a == b), ("!=", fun a b => a != b)]

/-- The Lua operators under whose signs the compiler looks for an operator. -/
def Lua.operators : Table String :=
  [("<", "<"), ("<=", "<="), (">", ">"), (">=", ">="), ("==", "=="), ("!=", "~=")]

/-! ## 1. Types -/

/-- What is read for a field has the type of the field. -/
theorem Form.types_of_coerce {form : Form} {given value : Value}
    (read : form.coerce given = .ok value) : form.types value = true := by
  cases form with
  | real =>
    obtain ⟨x, _, rfl⟩ := Except.map_eq_ok.mp read
    rfl
  | whole =>
    obtain ⟨n, _, rfl⟩ := Except.map_eq_ok.mp read
    rfl
  | truth =>
    obtain ⟨b, _, rfl⟩ := Except.map_eq_ok.mp read
    rfl
  | text =>
    cases read
    rfl
  | flags =>
    obtain ⟨flags, _, rfl⟩ := Except.map_eq_ok.mp read
    exact decide_eq_true (Int.natCast_nonneg flags.bits)
  | material =>
    obtain ⟨material, _, rfl⟩ := Except.map_eq_ok.mp read
    cases material <;> rfl

/-! ## 2. Demands -/

section Demands

variable {value : Value}

theorem met_nonzero (met : Demand.nonzero.isMet value = true) :
    ∃ x, value = .float x ∧ (x != 0.0) = true := by
  cases value with
  | float x => exact ⟨x, rfl, met⟩
  | _ => cases met

theorem met_notNegative (met : Demand.notNegative.isMet value = true) :
    ∃ n, value = .int n ∧ 0 ≤ n := by
  cases value with
  | int n => exact ⟨n, rfl, of_decide_eq_true met⟩
  | _ => cases met

theorem met_notBlank (met : Demand.notBlank.isMet value = true) :
    ∃ name, value = .text name ∧ isBlankText name = false := by
  cases value with
  | text name => exact ⟨name, rfl, by simpa [Demand.isMet] using met⟩
  | _ => cases met

theorem Comparison.sign_mem (c : Comparison) : c.sign ∈ ["<", "<=", ">", ">=", "==", "!="] := by
  cases c <;> decide

theorem met_operator (met : Demand.operator.isMet value = true) :
    ∃ sign ∈ ["<", "<=", ">", ">=", "==", "!="], value = .text sign := by
  cases value with
  | text sign =>
    obtain ⟨c, found⟩ := Option.isSome_iff_exists.mp met
    exact ⟨sign, Comparison.sign_of_ofSign? found ▸ c.sign_mem, rfl⟩
  | _ => cases met

theorem typed_material (typed : Form.material.types value = true) :
    ∃ name ∈ ["solid", "liquid", "air"], value = .text name := by
  cases value with
  | text name => exact ⟨name, List.contains_iff_mem.mp typed, rfl⟩
  | _ => cases typed

end Demands

/-! ## 3. Parameters that pass their checks -/

namespace Params

variable {p : Params} (checked : p.isChecked = true)

include checked

theorem met_of_declared {field : Declared} (listed : field ∈ p.kind.declared) :
    field.demand.isMet (p.value field.name) = true :=
  (reads_value checked listed).met

theorem typed_of_declared {field : Declared} (listed : field ∈ p.kind.declared) :
    field.form.types (p.value field.name) = true :=
  Form.types_of_coerce (reads_value checked listed).coerced

theorem nonzero_of_declared {name : String} (listed : Declared.nonzero name ∈ p.kind.declared) :
    p.Nonzero name :=
  met_nonzero (met_of_declared checked listed)

theorem counts_of_declared {name : String} (listed : Declared.count name ∈ p.kind.declared) :
    p.Counts name :=
  met_notNegative (met_of_declared checked listed)

theorem noise_of_declared (all : ∀ field ∈ Noise.declared, field ∈ p.kind.declared) :
    p.Counts "octaves" ∧ p.Nonzero "spread_x" ∧ p.Nonzero "spread_y" :=
  ⟨counts_of_declared checked (all _ (by decide)),
    nonzero_of_declared checked (all _ (by decide)),
    nonzero_of_declared checked (all _ (by decide))⟩

theorem valid_of_isChecked : p.Valid where
  typed := by
    intro name stored
    obtain ⟨field, listed, rfl⟩ := mem_fieldNames.mp stored
    exact ⟨field, listed, rfl, typed_of_declared checked listed⟩
  noise := by
    rintro (plane | space) <;> refine noise_of_declared checked fun field listed => ?_
    · rw [plane]
      exact listed
    · rw [space]
      exact List.mem_append_left _ listed
  space := by
    intro kind
    exact nonzero_of_declared checked (by rw [kind]; decide)
  mandelbrot := by
    intro kind
    exact ⟨nonzero_of_declared checked (by rw [kind]; decide),
      counts_of_declared checked (by rw [kind]; decide)⟩
  gaussian := by
    intro kind
    exact nonzero_of_declared checked (by rw [kind]; decide)
  compare := by
    intro kind
    have listed : ⟨"operator", .text, .operator⟩ ∈ p.kind.declared := by rw [kind]; decide
    exact met_operator (met_of_declared checked listed)
  terrain := by
    intro kind
    have named : ⟨"name", .text, .notBlank⟩ ∈ p.kind.declared := by rw [kind]; decide
    have made : ⟨"material", .material, .nothing⟩ ∈ p.kind.declared := by rw [kind]; decide
    exact ⟨met_notBlank (met_of_declared checked named),
      typed_material (typed_of_declared checked made)⟩

end Params

/-! ## 4. Operators -/

/-- Under the sign that a comparison stores, the evaluator finds the relation of the comparison, and
the compiler its Lua operator. -/
theorem Test.looked_up (test : Test) : ∃ sign, (Params.compare test).value "operator" = .text sign ∧
    Comparison.relations.get? sign = some test.operator.holds ∧
    Lua.operators.get? sign = some (Lua.comparisonSign test.operator) := by
  refine ⟨test.operator.sign, rfl, ?_, ?_⟩
  · cases test.operator <;> rfl
  · cases test.operator <;> rfl

/-! ## 5. Reachable graphs -/

/-- The parameters of every node of a reachable graph are valid, after mutations that apply, that do
not apply and that fail. So the sign of a comparison is always found. -/
theorem Graph.Reachable.params_valid {g : Graph} (reachable : g.Reachable) : ∀ n ∈ g.nodes,
    n.params.Valid ∧ ∀ test, n.params = .compare test →
      ∃ sign, n.params.value "operator" = .text sign ∧
        Comparison.relations.get? sign = some test.operator.holds ∧
        Lua.operators.get? sign = some (Lua.comparisonSign test.operator) := by
  intro n member
  refine ⟨Params.valid_of_isChecked (reachable.stored.nodes_whole n member).checked, ?_⟩
  rintro test params
  rw [params]
  exact test.looked_up

/-- A fractal and a comparison after updates of some of their fields. The first and the last update
fail. -/
def retuned : Graph :=
  [Mutation.add "mandelbrot" (.int 0) (.int 0), .update 1 [("steps", .int (-1))],
    .update 1 [("steps", .text "5"), ("offsetX", .int 2)],
    .add "compare" (.int 9) (.int 0), .update 2 [("operator", .text ">=")],
    .update 2 [("operator", .text "=<")]].foldl Mutation.apply (.empty 7)

theorem retuned_params_valid :
    retuned.nodes.map (fun n => [n.params.value "steps", n.params.value "operator"].map
      Value.asText) = [["5", "None"], ["None", ">="]] ∧
    ∀ n ∈ retuned.nodes, n.params.Valid ∧ ∀ test, n.params = .compare test →
      ∃ sign, n.params.value "operator" = .text sign ∧
        Comparison.relations.get? sign = some test.operator.holds ∧
        Lua.operators.get? sign = some (Lua.comparisonSign test.operator) := by
  have reachable : retuned.Reachable := ((Graph.Built.empty 7).run _).reachable
  exact ⟨by decide +kernel, reachable.params_valid⟩

end Landform
