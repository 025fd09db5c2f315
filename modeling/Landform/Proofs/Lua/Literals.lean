import Landform.Proofs.Decimal.Special
import Landform.Proofs.Lua.Parsed

/-!
# The value of a tree

A tree is evaluated from left to right with the literals of its text at hand: each numeral takes the
next one, which has to be written the same way, and stands for what that literal prints. A minus
sign negates, a power is a square, and names, fields and calls are looked up by their paths. The
tree of an expression then has the meaning of the expression and uses its literals up.

1. `Literal`, `Expr.literals`: the literals of an expression, and what they print.
2. `Tree.value?`: the value of a tree.
3. `Expr.value?_tree`: trees of expressions.
-/

namespace Landform.Lua

open Decimal

/-! ## 1. Literals -/

/-- A numeral of a text, and what it stands for. -/
structure Literal where
  text : String
  meaning : Meaning

/-- The negative of a number. -/
def Meaning.negative? : Meaning → Option Meaning
  | whole n => some (whole (-n))
  | real x => some (real (-x))
  | content _ => none

/-- A literal prints what it stands for, or what it negates behind a minus sign. -/
inductive Literal.Prints : Literal → Prop
  | number (x : Float) : Prints ⟨number x, .real x⟩
  | integer (n : Int) : Prints ⟨integerText n, .whole n⟩
  | negativeNumber {x : Float} {text : String} : Lua.number x = "-" ++ text →
      Prints ⟨text, .real (-x)⟩
  | negativeInteger {n : Int} {text : String} : integerText n = "-" ++ text →
      Prints ⟨text, .whole (-n)⟩

/-- The literal of a numeral that prints a meaning, or behind a minus sign its opposite. -/
def signedLiteral (text : List Char) (v opposite : Meaning) : Literal :=
  match text with
  | '-' :: digits => ⟨String.ofList digits, opposite⟩
  | digits => ⟨String.ofList digits, v⟩

/-- The literals of what is written for a number. -/
def numberLiterals (x : Float) : List Literal :=
  match form x with
  | .notANumber => [⟨"0", .whole 0⟩, ⟨"0", .whole 0⟩]
  | .infinite _ => []
  | .finite .. => [signedLiteral (number x).toList (.real x) (.real (-x))]

mutual

/-- The literals of an expression, from left to right. -/
def Expr.literals : Expr → List Literal
  | .number x => numberLiterals x
  | .integer n => [signedLiteral (integerText n).toList (.whole n) (.whole (-n))]
  | .coordinate _ | .noise _ | .name _ => []
  | .group inner => inner.literals
  | .square base => base.literals ++ [⟨"2", .whole 2⟩]
  | .binary _ left right => left.literals ++ right.literals
  | .call _ arguments => literalsAll arguments

/-- The literals of expressions, from left to right. -/
def literalsAll : List Expr → List Literal
  | [] => []
  | e :: rest => e.literals ++ literalsAll rest

end

theorem signedLiteral_prints {text : String} {v opposite : Meaning}
    (plain : Literal.Prints ⟨text, v⟩)
    (negative : ∀ digits, text = "-" ++ digits → Literal.Prints ⟨digits, opposite⟩) :
    (signedLiteral text.toList v opposite).Prints := by
  unfold signedLiteral
  split
  · next digits same =>
    refine negative _ ?_
    rw [← String.toList_inj, same]
    simp
  · rw [String.ofList_toList]
    exact plain

mutual

/-- Every literal of an expression prints what it stands for. -/
theorem Expr.literals_print (e : Expr) : ∀ l ∈ e.literals, l.Prints := by
  match e with
  | .number x =>
    rw [Expr.literals, numberLiterals]
    split
    · have zero : Literal.Prints ⟨"0", .whole 0⟩ := .integer 0
      simp [zero]
    · simp
    · exact List.forall_mem_singleton.mpr
        (signedLiteral_prints (.number x) fun _ same => .negativeNumber same)
  | .integer n =>
    rw [Expr.literals]
    exact List.forall_mem_singleton.mpr
      (signedLiteral_prints (.integer n) fun _ same => .negativeInteger same)
  | .coordinate _ | .noise _ | .name _ => exact fun _ member => absurd member List.not_mem_nil
  | .group inner => exact inner.literals_print
  | .square base =>
    have two : Literal.Prints ⟨"2", .whole 2⟩ := .integer 2
    exact List.forall_mem_append.mpr ⟨base.literals_print, List.forall_mem_singleton.mpr two⟩
  | .binary _ left right =>
    exact List.forall_mem_append.mpr ⟨left.literals_print, right.literals_print⟩
  | .call _ arguments => exact literalsAll_print arguments

theorem literalsAll_print (arguments : List Expr) : ∀ l ∈ literalsAll arguments, l.Prints := by
  match arguments with
  | [] => exact fun _ member => absurd member List.not_mem_nil
  | e :: rest => exact List.forall_mem_append.mpr ⟨e.literals_print, literalsAll_print rest⟩

end

/-! ## 2. Values of trees -/

/-- The node whose noise field has a name. -/
def noiseNode? (field : String) : Option Int :=
  let node : Int := Nat.ofDigitChars 10 (field.toList.drop 6) 0
  if noiseName node = field then some node else none

/-- The coordinate of a variable. -/
def Axis.named? : String → Option Axis
  | "x" => some x
  | "y" => some y
  | "z" => some z
  | _ => none

/-- What a name or a field stands for. -/
def Env.lookup? (env : Env) : List String → Option Meaning
  | [word] =>
    match Axis.named? word with
    | some axis => some (.real (axis.of env.point))
    | none => (env.content word).map .content
  | ["math", "huge"] => some (.real infinity)
  | ["noise_vals", field] => ((noiseNode? field).bind env.noise).map .real
  | _ => none

/-- The function that a name or a field stands for. -/
def Function.lookup? : List String → Option Function
  | ["math", "abs"] => some abs
  | ["math", "sqrt"] => some sqrt
  | ["luamap", "lerp"] => some lerp
  | ["luamap", "coserp"] => some coserp
  | ["luamap", "remap"] => some remap
  | ["gaussian"] => some gaussian
  | ["mandelbrot"] => some mandelbrot
  | _ => none

/-- The names of a field and of what it is a field of, the outermost last. -/
def Tree.path? : Tree → Option (List String)
  | name word => some [word]
  | field base word => return (← base.path?) ++ [word]
  | _ => none

/-- The result of an operator. The only power is the square. -/
def Binary.result? : Binary → Meaning → Meaning → Option Meaning
  | arithmetic operator, v, w => return .real (operator.apply (← v.number?) (← w.number?))
  | power, v, .whole 2 => do
    let x ← v.number?
    return .real (x * x)
  | power, _, _ => none

mutual

/-- The value of a tree, and the literals behind it. -/
def Tree.value? (env : Env) : Tree → List Literal → Option (Meaning × List Literal)
  | .numeral _, [] => none
  | .numeral text, l :: rest => if l.text = text then some (l.meaning, rest) else none
  | .name word, literals => (env.lookup? [word]).map (·, literals)
  | .field base word, literals => do
    return (← env.lookup? ((← base.path?) ++ [word]), literals)
  | .call function arguments, literals => do
    let function ← Function.lookup? (← function.path?)
    let (vs, rest) ← values? env arguments literals
    return (← function.result? vs, rest)
  | .group inner, literals => inner.value? env literals
  | .negate inner, literals => do
    let (v, rest) ← inner.value? env literals
    return (← v.negative?, rest)
  | .binary operator left right, literals => do
    let (v, rest) ← left.value? env literals
    let (w, rest) ← right.value? env rest
    return (← operator.result? v w, rest)

/-- The values of trees, and the literals behind them. -/
def values? (env : Env) : List Tree → List Literal → Option (List Meaning × List Literal)
  | [], literals => some ([], literals)
  | t :: ts, literals => do
    let (v, rest) ← t.value? env literals
    let (vs, rest) ← values? env ts rest
    return (v :: vs, rest)

end

/-! ## 3. Trees of expressions -/

variable {env : Env}

theorem noiseNode?_noiseName {node : Int} (natural : 0 ≤ node) :
    noiseNode? (noiseName node) = some node := by
  have text : (noiseName node).toList.drop 6 = natDigits node.natAbs := by
    rw [noiseName, String.toList_append, toList_integerText, if_neg (Int.not_lt.mpr natural)]
    rfl
  have value : (Nat.ofDigitChars 10 ((noiseName node).toList.drop 6) 0 : Int) = node := by
    rw [text, natDigits, Nat.ofDigitChars_toDigits]
    · omega
    · decide
    · decide
  rw [noiseNode?]
  simp only [value, if_true]

theorem value?_signedTree {text : List Char} {v opposite : Meaning} (signed : Signed text)
    (negated : opposite.negative? = some v) (rest : List Literal) :
    (signedTree text).value? env (signedLiteral text v opposite :: rest) = some (v, rest) := by
  cases signed with
  | plain numeral =>
    obtain ⟨c, digits, rfl, other⟩ := numeral.exists_cons
    have literal : signedLiteral (c :: digits) v opposite = ⟨String.ofList (c :: digits), v⟩ := by
      unfold signedLiteral
      split
      · next same => exact absurd (List.cons.inj same).1 other
      · rfl
    rw [numeral.signedTree_eq, literal, Tree.value?, if_pos rfl]
  | minus numeral =>
    rw [signedTree, signedLiteral, Tree.value?, Tree.value?, if_pos rfl]
    simp [negated]

theorem value?_numberTree (x : Float) (rest : List Literal) :
    (numberTree x).value? env (numberLiterals x ++ rest) = some (.real x, rest) := by
  cases found : form x with
  | notANumber =>
    -- there is only one value that is no number, so the quotient of zeros gives it back
    rw [numberTree, numberLiterals, found, eq_of_notANumber found]
    rfl
  | infinite negative =>
    rw [numberTree, numberLiterals, found, eq_of_infinite found]
    cases negative <;> rfl
  | finite negative mantissa exponent =>
    have opposite : (Meaning.real (-x)).negative? = some (.real x) := by
      rw [Meaning.negative?, float_neg_neg]
    rw [numberTree, numberLiterals, found]
    exact value?_signedTree (signed_number found) opposite rest

/-- A local is none of the coordinates. -/
theorem lookup?_contentLocal {slot : String} (word : IsContentLocal slot) :
    env.lookup? [slot] = (env.content slot).map .content := by
  obtain ⟨rest, text, _⟩ := word
  have other : ∀ axis : Axis, slot ≠ axis.name := by
    rintro axis rfl
    have heads : axis.name.toList.head? ≠ some 'c' := by cases axis <;> decide
    exact heads (by rw [text]; rfl)
  have none : Axis.named? slot = none := by
    unfold Axis.named?
    split
    · exact absurd rfl (other .x)
    · exact absurd rfl (other .y)
    · exact absurd rfl (other .z)
    · rfl
  rw [Env.lookup?, none]

theorem Function.lookup?_tree (f : Function) :
    ∃ path, f.tree.path? = some path ∧ Function.lookup? path = some f := by
  cases f <;> exact ⟨_, rfl, rfl⟩

mutual

/-- The tree of an expression has its meaning, and uses its literals up. -/
theorem Expr.value?_tree (e : Expr) (grouped : e.Grouped) {v : Meaning}
    (meaning : e.meaning? env = some v) (rest : List Literal) :
    e.tree.value? env (e.literals ++ rest) = some (v, rest) := by
  match e with
  | .number x =>
    cases meaning
    exact value?_numberTree x rest
  | .integer n =>
    cases meaning
    have opposite : (Meaning.whole (-n)).negative? = some (.whole n) := by
      rw [Meaning.negative?, Int.neg_neg]
    exact value?_signedTree (signed_integerText n) opposite rest
  | .coordinate axis =>
    cases meaning
    cases axis <;> rfl
  | .noise node =>
    obtain ⟨x, known, rfl⟩ := Option.map_eq_some_iff.mp meaning
    show (((noiseNode? (noiseName node)).bind env.noise).map Meaning.real).bind
      (fun v => some (v, rest)) = _
    rw [noiseNode?_noiseName grouped, Option.bind_some, known]
    rfl
  | .name slot =>
    show (env.lookup? [slot]).map (·, rest) = _
    rw [lookup?_contentLocal grouped]
    exact congrArg (Option.map (·, rest)) meaning
  | .group inner => exact inner.value?_tree grouped meaning rest
  | .square base =>
    rw [Expr.meaning?] at meaning
    obtain ⟨u, first, meaning⟩ := Option.bind_eq_some_iff.mp meaning
    obtain ⟨x, number, meaning⟩ := Option.bind_eq_some_iff.mp meaning
    cases meaning
    have value := base.value?_tree grouped.1 first (⟨"2", .whole 2⟩ :: rest)
    rw [Expr.tree, Expr.literals, Tree.value?, List.append_assoc, List.singleton_append, value]
    simp [Tree.value?, Binary.result?, number]
  | .binary operator left right =>
    rw [Expr.meaning?] at meaning
    obtain ⟨u, first, meaning⟩ := Option.bind_eq_some_iff.mp meaning
    obtain ⟨x, number, meaning⟩ := Option.bind_eq_some_iff.mp meaning
    obtain ⟨w, second, meaning⟩ := Option.bind_eq_some_iff.mp meaning
    obtain ⟨y, number', meaning⟩ := Option.bind_eq_some_iff.mp meaning
    cases meaning
    have value := left.value?_tree grouped.1 first (right.literals ++ rest)
    have value' := right.value?_tree grouped.2.1 second rest
    rw [Expr.tree, Expr.literals, Tree.value?, List.append_assoc, value]
    simp [value', Binary.result?, number, number']
  | .call function arguments =>
    rw [Expr.meaning?] at meaning
    obtain ⟨vs, given, result⟩ := Option.bind_eq_some_iff.mp meaning
    obtain ⟨path, named, found⟩ := function.lookup?_tree
    -- the function takes no literals, and the arguments take theirs in the order of the text
    have values := values?_treeAll arguments grouped given rest
    rw [Expr.tree, Expr.literals, Tree.value?, named]
    simp [found, values, result]

/-- The trees of expressions have their meanings, and use their literals up. -/
theorem values?_treeAll (arguments : List Expr) (grouped : GroupedAll arguments)
    {vs : List Meaning} (meanings : meanings? env arguments = some vs) (rest : List Literal) :
    values? env (treeAll arguments) (literalsAll arguments ++ rest) = some (vs, rest) := by
  match arguments with
  | [] =>
    cases meanings
    rfl
  | e :: others =>
    rw [meanings?] at meanings
    obtain ⟨v, first, meanings⟩ := Option.bind_eq_some_iff.mp meanings
    obtain ⟨ws, second, meanings⟩ := Option.bind_eq_some_iff.mp meanings
    cases meanings
    have value := e.value?_tree grouped.1 first (literalsAll others ++ rest)
    have values := values?_treeAll others grouped.2 second rest
    rw [treeAll, literalsAll, values?, List.append_assoc, value]
    simp [values]

end

end Landform.Lua
