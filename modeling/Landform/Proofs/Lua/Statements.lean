import Landform.Proofs.Lua.Literals

/-!
# Lines as statements

A line is read without regard to how it was written. Spaces before it do not count; the keyword or
the mark that it begins with tells what kind of statement it is, and its expressions are parsed. The
condition of an `if` has two expressions with one relation between them, and it is cut at the
characters that relations consist of, since no expression has any of them.

1. `readLine?`: reading a line.
2. `Reading`, `Reads`: what the expressions of a line stand for.
3. `Writes.reads`, `exists_readings`: the lines that are written for statements.
-/

namespace Landform.Lua

open Decimal

/-! ## 1. Reading a line -/

/-- Whether a character can be part of a relation. -/
def isRelation (c : Char) : Bool :=
  c == '<' || c == '>' || c == '=' || c == '~'

/-- The comparison that a relation stands for. -/
def relation? : String → Option Comparison
  | "<" => some .less
  | "<=" => some .lessEqual
  | ">" => some .greater
  | ">=" => some .greaterEqual
  | "==" => some .equal
  | "~=" => some .unequal
  | _ => none

/-- Two expressions with one relation between them. -/
def condition? (text : List Char) : Option (Tree × Comparison × Tree) := do
  let left ← parse? (String.ofList (text.takeWhile (!isRelation ·)))
  let rest := text.dropWhile (!isRelation ·)
  let test ← relation? (String.ofList (rest.takeWhile isRelation))
  let right ← parse? (String.ofList (rest.dropWhile isRelation))
  return (left, test, right)

/-- What stands between a beginning and an end of a text. -/
def between? (first last : String) (text : List Char) : Option (List Char) := do
  let inner ← text.dropPrefix? first.toList
  let reversed ← inner.reverse.dropPrefix? last.toList.reverse
  return reversed.reverse

/-- The statement of a line. A comment ends with its line unless a bracket opens it. -/
def readLine? (line : String) : Option (Statement Tree) :=
  let text := line.toList.dropWhile (· == ' ')
  if text = [] then some .blank
  else if text = "else".toList then some .otherwise
  else if text = "end".toList then some .close
  else match text.dropPrefix? "--".toList with
    | some rest => if rest.head? = some '[' then none else some (.comment (String.ofList rest))
    | none =>
      match text.dropPrefix? "content = ".toList with
      | some content => (parse? (String.ofList content)).map .assign
      | none => do
        let (left, test, right) ← condition? (← between? "if " " then" text)
        return .branch left test right

example : readLine? "    if x ~= -2 then" =
    some (.branch (.name "x") .unequal (.negate (.numeral "2"))) := by
  rfl

/-! ## 2. What expressions stand for -/

/-- An expression that has been read, with what its literals stand for. -/
structure Reading where
  tree : Tree
  literals : List Literal

/-- The value of an expression that has been read. It has to use its literals up. -/
def Reading.value? (env : Env) (r : Reading) : Option Meaning :=
  match r.tree.value? env r.literals with
  | some (v, []) => some v
  | _ => none

/-- A line reads as a statement, whose literals print what they stand for. -/
structure Reads (line : String) (s : Statement Reading) : Prop where
  read : readLine? line = some (s.map Reading.tree)
  prints : ∀ e ∈ s.expressions, ∀ l ∈ e.literals, l.Prints

/-- What is read from the text of an expression. -/
def Expr.reading (e : Expr) : Reading :=
  ⟨e.tree, e.literals⟩

theorem Expr.value?_reading {e : Expr} (grouped : e.Grouped) {env : Env} {v : Meaning}
    (meaning : e.meaning? env = some v) : e.reading.value? env = some v := by
  have value := e.value?_tree grouped meaning []
  rw [List.append_nil] at value
  rw [Reading.value?, reading, value]

/-! ## 3. Lines that are written -/

theorem isRelation_iff {c : Char} :
    isRelation c = true ↔ c = '<' ∨ c = '>' ∨ c = '=' ∨ c = '~' := by
  simp [isRelation, or_assoc]

/-- No token takes in a character of a relation, and none begins with it. -/
theorem scan_relation {c : Char} (relates : isRelation c = true) (l : Lexeme) (rest : List Char) :
    scan l (c :: rest) = none := by
  have foreign : Lexeme.begin c = .foreign ∧ l.extend? c = none := by
    rcases isRelation_iff.mp relates with rfl | rfl | rfl | rfl <;>
      refine ⟨by decide, ?_⟩ <;> unfold Lexeme.extend? <;> split <;> simp_all <;> decide
  have none (more : List Char) : scan .foreign more = none := by
    cases more <;> rfl
  rw [scan, foreign.2, foreign.1]
  dsimp only
  rw [none]
  cases l.tokens? <;> rfl

/-- A text that has tokens has no character of a relation. -/
theorem notRelation_of_scan {l : Lexeme} {text : List Char} {ts : List Token}
    (cut : scan l text = some ts) : ∀ c ∈ text, isRelation c = false := by
  induction text generalizing l ts with
  | nil => exact fun _ member => absurd member List.not_mem_nil
  | cons c rest ih =>
    have first : isRelation c = false := by
      refine Bool.eq_false_iff.mpr fun relates => ?_
      rw [scan_relation relates] at cut
      cases cut
    have others : ∃ l' ts', scan l' rest = some ts' := by
      rw [scan] at cut
      split at cut
      · exact ⟨_, _, cut⟩
      · obtain ⟨_, _, cut⟩ := Option.bind_eq_some_iff.mp cut
        obtain ⟨us, cut, _⟩ := Option.bind_eq_some_iff.mp cut
        exact ⟨_, us, cut⟩
    obtain ⟨l', ts', cut'⟩ := others
    exact List.forall_mem_cons.mpr ⟨first, ih cut'⟩

theorem notRelation_render {e : Expr} (grouped : e.Grouped) :
    ∀ c ∈ e.render.toList, isRelation c = false :=
  notRelation_of_scan ((e.lexes_render grouped).tokens?_eq)

/-- The text of an expression is parsed with a space before it or behind it, too. -/
theorem parse?_spaced {e : Expr} (grouped : e.Grouped) :
    parse? (String.ofList (e.render.toList ++ [' '])) = some e.tree ∧
      parse? (String.ofList (' ' :: e.render.toList)) = some e.tree := by
  have lexes := e.lexes_render grouped
  have fits := e.fits_tree grouped
  have behind : scan .blank (e.render.toList ++ [' ']) = some e.tree.tokens := by
    rw [lexes [' '] (detached_cons (by decide) [])]
    show (some []).map (e.tree.tokens ++ ·) = _
    rw [Option.map_some, List.append_nil]
  refine ⟨parse?_eq_some.mpr ⟨fits, ?_⟩, parse?_eq_some.mpr ⟨fits, ?_⟩⟩
  · rw [tokens?, String.toList_ofList]
    exact behind
  · refine Lexes.tokens?_eq ?_
    rw [String.toList_ofList]
    exact lexes.blank

theorem relation?_sign (test : Comparison) :
    relation? (comparisonSign test) = some test ∧
      ∀ c ∈ (comparisonSign test).toList, isRelation c = true := by
  cases test <;> exact ⟨rfl, by simp [comparisonSign, Comparison.sign, isRelation]⟩

/-- The condition of a branch is read back. -/
theorem condition?_text {left right : Expr} (ofLeft : left.Grouped) (ofRight : right.Grouped)
    (test : Comparison) :
    condition? ((left.render.toList ++ [' ']) ++ ((comparisonSign test).toList ++
      ' ' :: right.render.toList)) = some (left.tree, test, right.tree) := by
  obtain ⟨known, relates⟩ := relation?_sign test
  have before : ∀ c ∈ left.render.toList ++ [' '], (!isRelation c) = true := by
    refine List.forall_mem_append.mpr ⟨fun c member => ?_, by simp [isRelation]⟩
    rw [notRelation_render ofLeft c member, Bool.not_false]
  have stops : ∀ c ∈ ((comparisonSign test).toList ++ ' ' :: right.render.toList).head?,
      (!isRelation c) = false := by
    cases test <;> simp [comparisonSign, Comparison.sign, isRelation]
  have after : ∀ c ∈ (' ' :: right.render.toList).head?, isRelation c = false := by
    rintro _ ⟨⟩
    decide
  obtain ⟨taken, left'⟩ := span_append before _ stops
  obtain ⟨taken', right'⟩ := span_append relates _ after
  rw [condition?, taken, left']
  dsimp only
  rw [taken', right', String.ofList_toList, known, (parse?_spaced ofLeft).1,
    (parse?_spaced ofRight).2]
  rfl

theorem dropPrefix?_append (a b : List Char) : (a ++ b).dropPrefix? a = some b :=
  List.dropPrefix?_append_of_beq b (beq_self_eq_true a)

theorem between?_append (first last : String) (text : List Char) :
    between? first last (first.toList ++ (text ++ last.toList)) = some text := by
  have reversed : (text ++ last.toList).reverse = last.toList.reverse ++ text.reverse :=
    List.reverse_append
  rw [between?, dropPrefix?_append, Option.bind_eq_bind, Option.bind_some, reversed,
    dropPrefix?_append]
  exact congrArg some (List.reverse_reverse text)

/-- The text of a statement is read back. -/
theorem Statement.readLine?_text {s : Statement Expr} (grouped : s.Grouped) {line : String}
    (stripped : line.toList.dropWhile (· == ' ') = s.text.toList) :
    readLine? line = some (s.map Expr.tree) := by
  rw [readLine?, stripped]
  dsimp only
  cases s with
  | blank | otherwise | close => rfl
  | comment text =>
    have start : (comment text).text.toList = '-' :: '-' :: text.toList := by simp [Statement.text]
    have taken : ('-' :: '-' :: text.toList).dropPrefix? "--".toList = some text.toList :=
      dropPrefix?_append "--".toList text.toList
    have grouped : text.toList.head? ≠ some '[' := grouped
    rw [start, if_neg (by simp), if_neg (by simp), if_neg (by simp), taken]
    dsimp only
    rw [if_neg grouped, String.ofList_toList, map]
  | assign content =>
    have start : (assign content).text.toList =
        'c' :: ("ontent = ".toList ++ content.render.toList) := by
      simp [Statement.text]
    have unmarked (rest : List Char) : ('c' :: rest).dropPrefix? "--".toList = none := rfl
    have taken : ('c' :: ("ontent = ".toList ++ content.render.toList)).dropPrefix?
        "content = ".toList = some content.render.toList :=
      dropPrefix?_append "content = ".toList content.render.toList
    rw [start, if_neg (by simp), if_neg (by simp), if_neg (by simp), unmarked]
    dsimp only
    rw [taken]
    dsimp only
    rw [String.ofList_toList, Expr.parse?_render grouped]
    rfl
  | branch left test right =>
    let inner := left.render.toList ++ [' '] ++
      ((comparisonSign test).toList ++ ' ' :: right.render.toList)
    have start : (branch left test right).text.toList =
        'i' :: ("f ".toList ++ (inner ++ " then".toList)) := by
      simp [Statement.text, inner]
    have unmarked (rest : List Char) : ('i' :: rest).dropPrefix? "--".toList = none ∧
        ('i' :: rest).dropPrefix? "content = ".toList = none := ⟨rfl, rfl⟩
    have cut : between? "if " " then" ('i' :: ("f ".toList ++ (inner ++ " then".toList))) =
        some inner :=
      between?_append "if " " then" inner
    rw [start, if_neg (by simp), if_neg (by simp), if_neg (by simp), (unmarked _).1]
    dsimp only
    rw [(unmarked _).2]
    dsimp only
    rw [cut, Option.bind_eq_bind, Option.bind_some, condition?_text grouped.1 grouped.2]
    rfl

/-- The text of a statement does not begin with a space. -/
theorem Statement.head?_text (s : Statement Expr) :
    ∀ c ∈ s.text.toList.head?, (c == ' ') = false := by
  cases s <;> simp [Statement.text]

/-- A line that is written for a statement reads as it. -/
theorem Writes.reads {line : String} {s : Statement Expr} (writes : Writes line s) :
    Reads line (s.map Expr.reading) := by
  obtain ⟨⟨count, rfl⟩, grouped⟩ := writes
  have spaces : ∀ c ∈ List.replicate count ' ', (c == ' ') = true := fun c member =>
    beq_iff_eq.mpr (List.eq_of_mem_replicate member)
  refine ⟨?_, ?_⟩
  · rw [Statement.readLine?_text grouped]
    · cases s <;> rfl
    · rw [String.toList_append, String.toList_ofList]
      exact (span_append spaces _ s.head?_text).2
  · cases s with
    | assign content => exact List.forall_mem_singleton.mpr content.literals_print
    | branch left test right =>
      exact List.forall_mem_cons.mpr
        ⟨left.literals_print, List.forall_mem_singleton.mpr right.literals_print⟩
    | blank | comment _ | otherwise | close => exact nofun

theorem Statement.Grouped.of_mem {s : Statement Expr} (grouped : s.Grouped) :
    ∀ e ∈ s.expressions, e.Grouped := by
  cases s with
  | assign content => exact List.forall_mem_singleton.mpr grouped
  | branch left test right =>
    exact List.forall_mem_cons.mpr ⟨grouped.1, List.forall_mem_singleton.mpr grouped.2⟩
  | blank | comment _ | otherwise | close => exact nofun

/-- Lines that are written for statements can be read, and what is read runs as the statements
do. -/
theorem exists_readings {lines : List String} {statements : List (Statement Expr)}
    (written : List.Forall₂ Writes lines statements) :
    ∃ readings, List.Forall₂ Reads lines readings ∧
      ∀ {env : Env} {s t : State}, run (Expr.meaning? env) s statements = some t →
        run (Reading.value? env) s readings = some t := by
  refine ⟨statements.map (·.map Expr.reading),
    List.forall₂_map_right_iff.mpr (written.imp fun _ _ => Writes.reads), fun ran => ?_⟩
  have grouped : ∀ s ∈ statements, s.Grouped := by
    intro s member
    clear ran
    induction written with
    | nil => exact absurd member List.not_mem_nil
    | cons first _ ih =>
      rcases List.mem_cons.mp member with rfl | later
      · exact first.grouped
      · exact ih later
  exact run_map (fun s member e inside v meaning =>
    Expr.value?_reading ((grouped s member).of_mem e inside) meaning) ran

end Landform.Lua
