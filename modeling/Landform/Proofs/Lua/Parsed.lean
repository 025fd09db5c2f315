import Landform.Proofs.Lua.Meaning
import Landform.Proofs.Lua.Rendered
import Landform.Proofs.Lua.Tokens

/-!
# Rendered expressions are parsed back

The text of an expression that groups as it is written is one expression of the grammar, and its
tree is that of the expression: a negative number becomes a minus sign before a numeral, and a
number that is not finite the expression that is written for it. No minus sign follows another one.

1. `Expr.tree`: the tree of an expression.
2. `Expr.fits_tree`: operands that bind tightly enough.
3. `Expr.lexes_render`, `Expr.parse?_render`: the text of an expression.
4. `Plain.noMark`: no comment begins in a plain text.
-/

namespace Landform.Lua

open Decimal

/-! ## 1. Trees of expressions -/

/-- The tree of a numeral, with a minus sign before it or without. -/
def signedTree : List Char → Tree
  | '-' :: digits => .negate (.numeral (String.ofList digits))
  | digits => .numeral (String.ofList digits)

/-- The tree of what is written for infinity. -/
def hugeTree : Tree :=
  .field (.name "math") "huge"

/-- The tree of what is written for a number. -/
def numberTree (x : Float) : Tree :=
  match form x with
  | .notANumber => .group (.binary (.arithmetic .divide) (.numeral "0") (.numeral "0"))
  | .infinite negative => if negative then .group (.negate hugeTree) else hugeTree
  | .finite .. => signedTree (number x).toList

/-- The tree of the name of a function. -/
def Function.tree : Function → Tree
  | abs => .field (.name "math") "abs"
  | sqrt => .field (.name "math") "sqrt"
  | lerp => .field (.name "luamap") "lerp"
  | coserp => .field (.name "luamap") "coserp"
  | remap => .field (.name "luamap") "remap"
  | gaussian => .name "gaussian"
  | mandelbrot => .name "mandelbrot"

mutual

/-- The tree of what is written for an expression. -/
def Expr.tree : Expr → Tree
  | .number x => numberTree x
  | .integer n => signedTree (integerText n).toList
  | .coordinate axis => .name axis.name
  | .noise node => .field (.name "noise_vals") (noiseName node)
  | .name slot => .name slot
  | .group inner => .group inner.tree
  | .square base => .binary .power base.tree (.numeral "2")
  | .binary operator left right => .binary (.arithmetic operator) left.tree right.tree
  | .call function arguments => .call function.tree (treeAll arguments)

/-- The trees of what is written for expressions. -/
def treeAll : List Expr → List Tree
  | [] => []
  | e :: rest => e.tree :: treeAll rest

end

/-- A numeral, with a minus sign before it or without. -/
inductive Signed : List Char → Prop
  | plain {a : List Char} : Numeral a → Signed a
  | minus {a : List Char} : Numeral a → Signed ('-' :: a)

theorem signed_integerText (n : Int) : Signed (integerText n).toList := by
  rw [toList_integerText]
  split
  · exact .minus (Digits.natDigits _).numeral
  · exact .plain (Digits.natDigits _).numeral

theorem signed_number {x : Float} {negative : Bool} {mantissa : Nat} {exponent : Int}
    (finite : form x = .finite negative mantissa exponent) : Signed (number x).toList := by
  rcases number_finite finite with ⟨n, text⟩ | text
  · rw [text]
    exact signed_integerText n
  · have numeral := numeral_writtenDigits (Digits.shortestDigits mantissa exponent)
      (shortestDigits mantissa exponent).2
    rw [text, written, finite]
    dsimp only
    rw [signed, String.toList_ofList]
    split
    · exact .minus numeral
    · exact .plain numeral

theorem Numeral.exists_cons {a : List Char} (numeral : Numeral a) :
    ∃ c rest, a = c :: rest ∧ c ≠ '-' := by
  have head := numeral.head
  cases a with
  | nil => cases head
  | cons c rest =>
    have digit : c.isDigit = true := head
    refine ⟨c, rest, rfl, ?_⟩
    rintro rfl
    exact absurd digit (by decide)

theorem Numeral.signedTree_eq {a : List Char} (numeral : Numeral a) :
    signedTree a = .numeral (String.ofList a) := by
  obtain ⟨c, rest, rfl, other⟩ := numeral.exists_cons
  unfold signedTree
  split
  · next same => exact absurd (List.cons.inj same).1 other
  · rfl

/-! ## 2. Operands bind tightly enough -/

theorem Signed.fits {text : List Char} (signed : Signed text) : (signedTree text).Fits := by
  cases signed with
  | plain numeral =>
    rw [numeral.signedTree_eq]
    trivial
  | minus numeral => exact ⟨trivial, Nat.le_of_ble_eq_true rfl⟩

/-- A part on its own ends in no operator, and a minus sign before a numeral binds as a sign. -/
theorem Signed.closing {text : List Char} (signed : Signed text) :
    5 + (if text.head? = some '-' then 3 else 5) ≤ (signedTree text).closing := by
  cases signed with
  | plain numeral =>
    obtain ⟨c, rest, same, other⟩ := numeral.exists_cons
    rw [numeral.signedTree_eq, same, if_neg (by simpa using other)]
    exact Nat.le_of_ble_eq_true rfl
  | minus numeral => exact Nat.le_of_ble_eq_true rfl

theorem fits_numberTree (x : Float) : (numberTree x).Fits := by
  unfold numberTree
  split
  · exact ⟨trivial, trivial, Nat.le_of_ble_eq_true rfl, Nat.le_of_ble_eq_true rfl⟩
  · split
    · exact ⟨⟨trivial, rfl⟩, Nat.le_of_ble_eq_true rfl⟩
    · exact ⟨trivial, rfl⟩
  · next finite => exact (signed_number finite).fits

theorem closing_numberTree (x : Float) :
    5 + (if (number x).toList.head? = some '-' then 3 else 5) ≤ (numberTree x).closing := by
  have whole : (numberTree x).closing = topPriority ∨
      5 + (if (number x).toList.head? = some '-' then 3 else 5) ≤ (numberTree x).closing := by
    cases found : form x with
    | notANumber =>
      rw [numberTree, found]
      exact .inl rfl
    | infinite negative =>
      rw [numberTree, found]
      cases negative <;> exact .inl rfl
    | finite negative mantissa exponent =>
      rw [numberTree, found]
      exact .inr (signed_number found).closing
  rcases whole with top | bound
  · rw [top]
    split <;> decide
  · exact bound

theorem head?_integerText (n : Int) : (integerText n).toList.head? = some '-' ↔ n < 0 := by
  rw [toList_integerText]
  split
  · next negative => simp [negative]
  · next natural =>
    have digit : (natDigits n.natAbs).head? ≠ some '-' := fun head =>
      absurd (isDigit_of_mem_natDigits (List.mem_of_head? head)) (by decide)
    simp [natural, digit]

theorem Operator.left_eq (operator : Operator) :
    (Binary.arithmetic operator).left = 5 + operator.level ∧
      (Binary.arithmetic operator).right = 5 + operator.level := by
  cases operator <;> exact ⟨rfl, rfl⟩

/-- What is at the end of an expression binds at least as tightly as the expression. -/
theorem Expr.level_le_closing (e : Expr) (grouped : e.Grouped) : 5 + e.level ≤ e.tree.closing := by
  match e with
  | .number x =>
    rw [Expr.level, Expr.tree]
    exact closing_numberTree x
  | .integer n =>
    rw [Expr.level, Expr.tree]
    simpa only [head?_integerText] using (signed_integerText n).closing
  | .square base => exact Nat.le_of_ble_eq_true rfl
  | .binary operator left right =>
    obtain ⟨_, ofRight, _, tight⟩ := grouped
    -- the right operand binds more tightly than the operator, and so does what is at its end
    have last := right.level_le_closing ofRight
    rw [Expr.level, Expr.tree, Tree.closing, operator.left_eq.2]
    omega
  | .coordinate _ | .noise _ | .name _ | .group _ | .call _ _ =>
    exact Nat.le_of_ble_eq_true rfl

theorem Function.fits_tree (function : Function) :
    function.tree.Fits ∧ function.tree.takesSuffix = true := by
  cases function <;> exact ⟨by simp [Function.tree, Tree.Fits, Tree.takesSuffix], rfl⟩

mutual

/-- The operands of an expression bind tightly enough in its tree. -/
theorem Expr.fits_tree (e : Expr) (grouped : e.Grouped) : e.tree.Fits := by
  match e with
  | .number x => exact fits_numberTree x
  | .integer n => exact (signed_integerText n).fits
  | .coordinate _ | .name _ => trivial
  | .noise _ => exact ⟨trivial, rfl⟩
  | .group inner => exact inner.fits_tree grouped
  | .square base =>
    obtain ⟨ofBase, whole⟩ := grouped
    have closing := base.level_le_closing ofBase
    refine ⟨base.fits_tree ofBase, trivial, ?_, Nat.le_of_ble_eq_true rfl⟩
    exact Nat.le_trans (Nat.add_le_add_left whole 5) closing
  | .binary operator left right =>
    obtain ⟨ofLeft, ofRight, loose, tight⟩ := grouped
    have closing := left.level_le_closing ofLeft
    have last := right.level_le_closing ofRight
    have opening := right.tree.closing_le_opening
    have priorities := operator.left_eq
    exact ⟨left.fits_tree ofLeft, right.fits_tree ofRight, by omega, by omega⟩
  | .call function arguments =>
    exact ⟨function.fits_tree.1, function.fits_tree.2, fits_treeAll arguments grouped⟩

/-- The operands of expressions bind tightly enough in their trees. -/
theorem fits_treeAll (arguments : List Expr) (grouped : GroupedAll arguments) :
    FitsAll (treeAll arguments) := by
  match arguments with
  | [] => trivial
  | e :: rest => exact ⟨e.fits_tree grouped.1, fits_treeAll rest grouped.2⟩

end

/-! ## 3. Texts of expressions -/

theorem Lexes.signed {text : List Char} (signed : Signed text) :
    Lexes text (signedTree text).tokens := by
  cases signed with
  | plain numeral =>
    rw [numeral.signedTree_eq]
    exact numeral.lexes
  | minus numeral =>
    obtain ⟨c, rest, rfl, other⟩ := numeral.exists_cons
    exact numeral.lexes.minus other

theorem Lexes.zero : Lexes ['0'] [.numeral "0"] :=
  (Digits.numeral ⟨by simp, by simp⟩).lexes

theorem Lexes.parenthesized {a : List Char} {ts : List Token} (inner : Lexes a ts) :
    Lexes ('(' :: (a ++ [')'])) (.sign '(' :: (ts ++ [.sign ')'])) :=
  (inner.append (Lexes.nil.sign (by decide)) (detached_cons (by decide) [])).sign (by decide)

/-- A field of a table, as generated code writes it. -/
theorem Lexes.path {text table member : String}
    (same : text.toList = table.toList ++ '.' :: member.toList) (first : Name table.toList)
    (second : Name member.toList) :
    Lexes text.toList (Tree.field (.name table) member).tokens := by
  have lexes := first.field second
  rw [String.ofList_toList, String.ofList_toList] at lexes
  rw [same]
  exact lexes

theorem Lexes.huge : Lexes "math.huge".toList hugeTree.tokens :=
  .path (by decide) ⟨by decide, by decide, by decide⟩ ⟨by decide, by decide, by decide⟩

theorem Lexes.number (x : Float) : Lexes (Lua.number x).toList (numberTree x).tokens := by
  cases found : form x with
  | notANumber =>
    have quotient : Lexes ['0', '/', '0'] [.numeral "0", .sign '/', .numeral "0"] :=
      Lexes.zero.append (Lexes.zero.sign (by decide)) (detached_cons (by decide) _)
    have text : "(0/0)".toList = '(' :: (['0', '/', '0'] ++ [')']) := by decide
    rw [Lua.number, numberTree, found]
    dsimp only
    rw [text]
    exact quotient.parenthesized
  | infinite negative =>
    rw [Lua.number, numberTree, found]
    cases negative with
    | false => exact Lexes.huge
    | true =>
      obtain ⟨c, rest, huge, other⟩ : ∃ c rest, "math.huge".toList = c :: rest ∧ c ≠ '-' :=
        ⟨'m', "ath.huge".toList, by decide, by decide⟩
      have text : "(-math.huge)".toList = '(' :: (('-' :: "math.huge".toList) ++ [')']) := by
        decide
      have lexes := Lexes.huge
      rw [huge] at lexes
      dsimp only
      rw [if_pos rfl, if_pos rfl, text, huge]
      exact (lexes.minus other).parenthesized
  | finite negative mantissa exponent =>
    rw [numberTree, found]
    exact .signed (signed_number found)

theorem Lexes.function (f : Function) : Lexes f.name.toList f.tree.tokens := by
  cases f with
  | gaussian | mandelbrot =>
    exact Name.lexes ⟨by decide, by decide, by decide⟩
  | abs | sqrt | lerp | coserp | remap =>
    exact .path (by decide) ⟨by decide, by decide, by decide⟩ ⟨by decide, by decide, by decide⟩

/-- A word with an underscore is no keyword. -/
theorem keywords_free {a : List Char} (marked : '_' ∈ a) :
    keywords.contains (String.ofList a) = false := by
  have letters : ∀ word ∈ keywords, '_' ∉ word.toList := by decide
  refine Bool.eq_false_iff.mpr fun listed => ?_
  have absent := letters _ (List.contains_iff_mem.mp listed)
  rw [String.toList_ofList] at absent
  exact absent marked

theorem name_noiseName {node : Int} (natural : 0 ≤ node) : Name (noiseName node).toList := by
  have text : (noiseName node).toList = "noise_".toList ++ natDigits node.natAbs := by
    rw [noiseName, String.toList_append, toList_integerText, if_neg (Int.not_lt.mpr natural)]
    rfl
  have letters : ∀ c ∈ natDigits node.natAbs, isNameChar c = true := fun c member =>
    isNameChar_of_isDigit (isDigit_of_mem_natDigits member)
  rw [text]
  refine ⟨?_, rfl, keywords_free (List.mem_append_left _ (by decide))⟩
  rw [List.all_append, List.all_eq_true.mpr letters, Bool.and_true]
  decide

theorem isNameChar_of_isIdentifierChar {c : Char} (accepted : isIdentifierChar c = true) :
    isNameChar c = true := by
  simp only [isIdentifierChar, Bool.or_eq_true, beq_iff_eq] at accepted
  rcases accepted with (lower | digit) | rfl
  · simp [isNameChar, Char.isAlphanum, Char.isAlpha, lower]
  · exact isNameChar_of_isDigit digit
  · decide

theorem IsContentLocal.name {slot : String} (word : IsContentLocal slot) : Name slot.toList := by
  obtain ⟨rest, text, accepted⟩ := word
  have letters : ∀ c ∈ rest, isNameChar c = true := fun c member =>
    isNameChar_of_isIdentifierChar (List.all_eq_true.mp accepted c member)
  rw [text]
  refine ⟨?_, rfl, keywords_free (by simp)⟩
  rw [List.all_cons, List.all_cons, List.all_eq_true.mpr letters]
  decide

theorem Name.lexes_toList {word : String} (name : Name word.toList) :
    Lexes word.toList [.word word] := by
  have lexes := name.lexes
  rwa [String.ofList_toList] at lexes

/-- An operator between blanks. -/
theorem Lexes.operator (operator : Operator) {b : List Char} {us : List Token} (rest : Lexes b us) :
    Lexes (' ' :: ((operator.sign ++ " ").toList ++ b))
      (.sign (Binary.arithmetic operator).sign :: us) := by
  cases operator with
  | subtract => exact (rest.blank.minus (by decide)).blank
  | add | multiply | divide => exact (rest.blank.sign (by decide)).blank

mutual

/-- The text of an expression has the tokens of its tree. -/
theorem Expr.lexes_render (e : Expr) (grouped : e.Grouped) :
    Lexes e.render.toList e.tree.tokens := by
  match e with
  | .number x =>
    rw [Expr.render, Expr.tree]
    exact .number x
  | .integer n =>
    rw [Expr.render, Expr.tree]
    exact .signed (signed_integerText n)
  | .coordinate axis =>
    rw [Expr.render, Expr.tree]
    cases axis <;> exact Name.lexes_toList ⟨by decide, by decide, by decide⟩
  | .noise node =>
    have table : Name "noise_vals".toList := ⟨by decide, by decide, by decide⟩
    have same : ("noise_vals." ++ noiseName node).toList =
        "noise_vals".toList ++ '.' :: (noiseName node).toList := by simp
    rw [Expr.render, Expr.tree]
    exact .path same table (name_noiseName grouped)
  | .name slot =>
    rw [Expr.render, Expr.tree]
    exact (IsContentLocal.name grouped).lexes_toList
  | .group inner =>
    rw [Expr.render, Expr.tree, String.toList_append, String.toList_append]
    exact (inner.lexes_render grouped).parenthesized
  | .square base =>
    have two : Numeral ['2'] := Digits.numeral ⟨by simp, by simp⟩
    rw [Expr.render, Expr.tree, String.toList_append]
    exact (base.lexes_render grouped.1).append (two.lexes.sign (by decide))
      (detached_cons (by decide) _)
  | .binary operator left right =>
    have joined := (left.lexes_render grouped.1).append
      (.operator operator (right.lexes_render grouped.2.1)) (detached_cons (by decide) _)
    rw [Expr.render, Expr.tree, Tree.tokens]
    simpa using joined
  | .call function arguments =>
    have call := (Lexes.function function).append
      (lexes_renderAll arguments grouped).parenthesized (detached_cons (by decide) _)
    rw [Expr.render, Expr.tree, Tree.tokens]
    simpa using call

/-- The text of expressions between commas has the tokens of their trees. -/
theorem lexes_renderAll (arguments : List Expr) (grouped : GroupedAll arguments) :
    Lexes (renderAll arguments).toList (tokensAll (treeAll arguments)) := by
  match arguments with
  | [] => exact .nil
  | [e] =>
    rw [renderAll]
    exact e.lexes_render grouped.1
  | e :: f :: rest =>
    have joined := (e.lexes_render grouped.1).append
      ((lexes_renderAll (f :: rest) grouped.2).blank.sign (c := ',') (by decide))
      (detached_cons (by decide) _)
    rw [renderAll, String.toList_append, String.toList_append, List.append_assoc, treeAll, treeAll,
      tokensAll]
    · exact joined
    · exact nofun
    · simp

end

/-- The text of an expression that groups as it is written is one expression, with its tree. -/
theorem Expr.parse?_render {e : Expr} (grouped : e.Grouped) : parse? e.render = some e.tree :=
  parse?_eq_some.mpr ⟨e.fits_tree grouped, (e.lexes_render grouped).tokens?_eq⟩

/-! ## 4. Marks of comments -/

theorem length_dropComments_le (inside : Bool) (text : List Char) :
    (dropComments inside text).length ≤ text.length := by
  fun_induction dropComments inside text <;> simp <;> omega

theorem length_comment (after : List Char) :
    (dropComments false ('-' :: '-' :: after)).length < ('-' :: '-' :: after).length := by
  have le := length_dropComments_le true after
  rw [dropComments, List.length_cons, List.length_cons]
  omega

/-- Code becomes shorter where there is a mark of a comment. -/
theorem length_dropComments_lt (before after : List Char) :
    (dropComments false (before ++ '-' :: '-' :: after)).length <
      (before ++ '-' :: '-' :: after).length := by
  induction before with
  | nil => exact length_comment after
  | cons c before ih =>
    rw [List.cons_append]
    by_cases earlier : c = '-' ∧ ∃ tail, before ++ '-' :: '-' :: after = '-' :: tail
    · obtain ⟨rfl, tail, same⟩ := earlier
      rw [same]
      exact length_comment tail
    · rw [dropComments_cons fun tail minus same => earlier ⟨minus, tail, same⟩]
      exact Nat.succ_lt_succ ih

/-- No comment begins in a plain text. -/
theorem Plain.noMark {a : List Char} (plain : Plain a) : ¬ ['-', '-'] <:+: a := by
  rintro ⟨before, after, rfl⟩
  have kept := plain.uncommented []
  have shorter := length_dropComments_lt before after
  simp only [List.append_nil, dropComments, List.append_assoc, List.cons_append,
    List.nil_append] at kept
  rw [kept] at shorter
  exact Nat.lt_irrefl _ shorter

end Landform.Lua
