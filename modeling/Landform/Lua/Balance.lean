import Landform.Decimal.Written
import Landform.Text.Word

/-!
# Balanced code

A cheap check of Lua code, no parser: the brackets and the block words must balance. String
literals and line comments do not count. A literal runs from a quote to the next quote of the same
kind on the same line that no backslash escapes; a quote that starts no literal stands for itself.
-/

namespace Landform.Lua

open Decimal

/-! ## Removing literals and comments -/

/-- What follows a string literal whose opening quote has just been read, if the literal is
closed. -/
def afterLiteral? (quote : Char) : List Char → Option (List Char)
  | [] => none
  | '\\' :: c :: rest => if c == '\n' then none else afterLiteral? quote rest
  | c :: rest =>
    if c == quote then some rest
    else if c == '\n' || c == '\\' then none
    else afterLiteral? quote rest

/-- What follows a literal is shorter than the text after its opening quote. -/
theorem length_lt_of_afterLiteral? {quote : Char} {text rest : List Char}
    (h : afterLiteral? quote text = some rest) : rest.length < text.length := by
  fun_induction afterLiteral? quote text with
  | case1 => simp at h
  | case2 => simp at h
  | case3 c tail _ ih =>
    have := ih h
    simp only [List.length_cons]
    omega
  | case4 c tail _ _ =>
    cases h
    simp
  | case5 => simp at h
  | case6 c tail _ _ _ ih =>
    have := ih h
    simp only [List.length_cons]
    omega

/-- Code with every string literal replaced by an empty one. -/
def emptyLiterals (code : List Char) : List Char :=
  match code with
  | [] => []
  | c :: rest =>
    if c == '"' || c == '\'' then
      match _closed : afterLiteral? c rest with
      | some after => '"' :: '"' :: emptyLiterals after
      | none => c :: emptyLiterals rest
    else c :: emptyLiterals rest
termination_by code.length
decreasing_by
  · have := length_lt_of_afterLiteral? _closed
    simp only [List.length_cons]
    omega
  · simp
  · simp

/-- Code without its line comments. The first argument tells whether a comment is being read. -/
def dropComments : Bool → List Char → List Char
  | _, [] => []
  | true, c :: rest => if c == '\n' then c :: dropComments false rest else dropComments true rest
  | false, '-' :: '-' :: rest => dropComments true rest
  | false, c :: rest => c :: dropComments false rest

/-! ## The check -/

/-- What is out of balance. -/
inductive Imbalance where
  | brackets (label : String) (opened closed : Nat)
  | blocks (openers closers : Nat)
  | loops
deriving Repr, DecidableEq

/-- The wording of an imbalance. -/
def Imbalance.message : Imbalance → String
  | brackets label opened closed =>
    s!"Generated code has unbalanced {label}: {integerText opened} opening vs {integerText closed} closing"
  | blocks openers closers =>
    let openers := integerText openers
    let closers := integerText closers
    s!"Generated code has {openers} block openers (function/if/do) but {closers} 'end'"
  | loops => "Generated code has unbalanced repeat/until"

/-- The imbalance of one kind of brackets. -/
def bracketImbalance (text : List Char) (opening closing : Char) (label : String) :
    List Imbalance :=
  if text.count opening = text.count closing then []
  else [.brackets label (text.count opening) (text.count closing)]

/-- The number of words that open a block closed by `end`. -/
def openers (words : List String) : Nat :=
  words.count "function" + words.count "if" + words.count "do"

/-- Everything that is out of balance in a piece of code. -/
def imbalances (code : String) : List Imbalance :=
  let text := dropComments false (emptyLiterals code.toList)
  let words := Text.words text
  bracketImbalance text '(' ')' "parentheses" ++ bracketImbalance text '\x7b' '\x7d' "braces" ++
    bracketImbalance text '[' ']' "brackets" ++
    (if openers words = words.count "end" then []
      else [.blocks (openers words) (words.count "end")]) ++
    (if words.count "repeat" = words.count "until" then [] else [.loops])

end Landform.Lua
