import Landform.Lua.Expr
import Landform.Proofs.Lua.Neutral

/-!
# Rendered code keeps the balance

A local stays neutral when suffixes are appended to it. An expression is neutral when the locals
that it reads are, and the lines of a decision open as many blocks as they close.

1. `Local.suffix`, `local_contentLocal`: locals.
2. `Expr.neutral_render`: expressions.
3. `Decision.tallied_lines`: decisions.
-/

namespace Landform.Lua

open Decimal Text

/-! ## 1. Locals -/

/-- A neutral text that stays so when an underscore and more of a word follow. -/
structure Local (a : List Char) : Prop extends Neutral a where
  extend : ∀ w, (∀ c ∈ w, isWordMember c = true) → tally (a ++ '_' :: w) = 0

namespace Local

variable {a : List Char}

theorem word (all : a.all isWordMember = true) (some : a ≠ [])
    (inert : wordTally (String.ofList a) = 0) : Local a :=
  { neutral_word (List.all_eq_true.mp all) some inert with
    extend := fun w more => by
      have marked : '_' ∈ a ++ '_' :: w := by simp
      have whole : ∀ c ∈ a ++ '_' :: w, isWordMember c = true :=
        List.forall_mem_append.mpr
          ⟨List.all_eq_true.mp all, List.forall_mem_cons.mpr ⟨by decide, more⟩⟩
      exact (neutral_word whole (by simp) (wordTally_of_mem marked (.inr rfl))).tally_eq }

/-- An underscore and an integer behind a local. The sign of a negative integer cuts the word. -/
theorem suffix (base : Local a) (n : Int) : Local (a ++ '_' :: (integerText n).toList) := by
  have digits := Digits.natDigits n.natAbs
  have letters : ∀ c ∈ natDigits n.natAbs, isWordMember c = true :=
    fun c member => isWordMember_of_isDigit (digits.digits c member)
  have underscore : Plain ['_'] := .of_all (by decide)
  have plain : Plain (a ++ '_' :: (integerText n).toList) :=
    base.toPlain.append (underscore.append (neutral_integerText n).toPlain)
  rw [toList_integerText] at plain ⊢
  split at plain
  · next negative =>
    -- the minus sign ends the word, and the digits behind it are a word of their own
    have first : tally (a ++ ['_']) = 0 := base.extend [] (by simp)
    have cut : ∀ w, a ++ '_' :: (['-'] ++ w) = (a ++ ['_']) ++ '-' :: w := by simp
    rw [if_pos negative]
    refine ⟨⟨plain, ?_⟩, fun w more => ?_⟩
    · rw [cut, tally_append (delimited_cons (by decide) _), first, digits.minus.tally_eq, add_zero]
    · have marked : '_' ∈ natDigits n.natAbs ++ '_' :: w := by simp
      have whole : ∀ c ∈ natDigits n.natAbs ++ '_' :: w, isWordMember c = true :=
        List.forall_mem_append.mpr ⟨letters, List.forall_mem_cons.mpr ⟨by decide, more⟩⟩
      have rest := neutral_word whole (by simp) (wordTally_of_mem marked (.inr rfl))
      have minus : charTally '-' = 0 := rfl
      rw [cut, List.append_assoc, List.cons_append, tally_append (delimited_cons (by decide) _),
        first, tally_cons (by decide), rest.tally_eq, minus, add_zero, add_zero]
  · next natural =>
    rw [if_neg natural]
    rw [List.nil_append] at plain ⊢
    refine ⟨⟨plain, base.extend _ letters⟩, fun w more => ?_⟩
    rw [List.append_assoc, List.cons_append]
    exact base.extend _ (List.forall_mem_append.mpr
      ⟨letters, List.forall_mem_cons.mpr ⟨by decide, more⟩⟩)

end Local

theorem isWordMember_of_isIdentifierChar {c : Char} (accepted : isIdentifierChar c = true) :
    isWordMember c = true := by
  simp only [isIdentifierChar, Bool.or_eq_true, beq_iff_eq] at accepted
  rcases accepted with (lower | digit) | rfl
  · have small : c.toNat < 128 := by
      simp only [Char.isLower, Bool.and_eq_true, decide_eq_true_eq] at lower
      have upper : c.val.toNat ≤ 122 := lower.2
      show c.val.toNat < 128
      omega
    rw [isWordMember, if_pos small]
    simp [Char.isAlphanum, Char.isAlpha, lower]
  · exact isWordMember_of_isDigit digit
  · decide

theorem local_contentLocal (name : String) : Local (contentLocal name).toList := by
  have letters : (identifier name).toList.all isWordMember = true := by
    refine List.all_eq_true.mpr fun c member => ?_
    rw [identifier, String.toList_ofList] at member
    obtain ⟨d, _, rfl⟩ := List.mem_map.mp member
    split
    · next accepted => exact isWordMember_of_isIdentifierChar accepted
    · decide
  have text : (contentLocal name).toList = 'c' :: '_' :: (identifier name).toList := by
    simp [contentLocal]
  rw [text]
  refine Local.word ?_ (by simp) (wordTally_of_mem (c := '_') (by simp) (.inr rfl))
  rw [List.all_cons, List.all_cons, letters]
  decide

theorem neutral_noiseName (node : Int) : Neutral (noiseName node).toList := by
  have base : Local "noise".toList := .word (by decide) (by decide) (by decide)
  have text : (noiseName node).toList = "noise".toList ++ '_' :: (integerText node).toList := by
    simp [noiseName]
  rw [text]
  exact (base.suffix node).toNeutral

/-! ## 2. Expressions -/

mutual

/-- The locals that an expression reads. -/
def Expr.names : Expr → List String
  | .name slot => [slot]
  | .group inner => inner.names
  | .square base => base.names
  | .binary _ left right => left.names ++ right.names
  | .call _ arguments => namesAll arguments
  | .number _ | .integer _ | .coordinate _ | .noise _ => []

/-- The locals that expressions read. -/
def namesAll : List Expr → List String
  | [] => []
  | e :: rest => e.names ++ namesAll rest

end

theorem neutral_sign (operator : Operator) : Neutral (' ' :: (operator.sign ++ " ").toList) := by
  cases operator with
  | subtract =>
    exact ⟨.cons (by decide) (.minus (by decide) (.of_all (by decide))), by decide⟩
  | add | multiply | divide => exact ⟨.of_all (by decide), by decide⟩

theorem ended_sign (operator : Operator) : Ended (' ' :: (operator.sign ++ " ").toList) := by
  cases operator <;> decide

theorem neutral_functionName (function : Function) : Neutral function.name.toList := by
  cases function <;> exact ⟨.of_all (by decide), by decide⟩

mutual

/-- An expression is neutral when the locals it reads are. -/
theorem Expr.neutral_render (e : Expr) (named : ∀ slot ∈ e.names, Neutral slot.toList) :
    Neutral e.render.toList := by
  match e with
  | .number x =>
    rw [Expr.render]
    exact neutral_number x
  | .integer n =>
    rw [Expr.render]
    exact neutral_integerText n
  | .coordinate axis =>
    rw [Expr.render]
    cases axis <;> exact ⟨.of_all (by decide), by decide⟩
  | .noise node =>
    have table : Neutral "noise_vals.".toList := .of_chars (by decide) (by decide)
    rw [Expr.render, String.toList_append]
    exact table.append_of_ended (neutral_noiseName node) (by decide)
  | .name slot =>
    rw [Expr.render]
    exact named slot (by simp [Expr.names])
  | .group inner =>
    rw [Expr.names] at named
    have neutral := (inner.neutral_render named).parenthesized
    rw [Expr.render, String.toList_append, String.toList_append]
    exact neutral
  | .square base =>
    rw [Expr.names] at named
    have power : Neutral "^2".toList := .of_chars (by decide) (by decide)
    rw [Expr.render, String.toList_append]
    exact (base.neutral_render named).append power (delimited_cons (by decide) _)
  | .binary operator left right =>
    rw [Expr.names] at named
    obtain ⟨first, second⟩ := List.forall_mem_append.mp named
    have joined := (left.neutral_render first).join (right.neutral_render second)
      (neutral_sign operator) (by decide) (ended_sign operator)
    rw [Expr.render]
    simpa using joined
  | .call function arguments =>
    rw [Expr.names] at named
    have call := (neutral_functionName function).append
      (neutral_renderAll arguments named).parenthesized (delimited_cons (by decide) _)
    rw [Expr.render]
    simpa using call

/-- Expressions between commas are neutral when the locals they read are. -/
theorem neutral_renderAll (arguments : List Expr)
    (named : ∀ slot ∈ namesAll arguments, Neutral slot.toList) :
    Neutral (renderAll arguments).toList := by
  match arguments with
  | [] => exact ⟨.nil, rfl⟩
  | [e] =>
    rw [namesAll, namesAll, List.append_nil] at named
    rw [renderAll]
    exact e.neutral_render named
  | e :: f :: rest =>
    rw [namesAll] at named
    obtain ⟨first, others⟩ := List.forall_mem_append.mp named
    have comma : Neutral [',', ' '] := ⟨.of_all (by decide), by decide⟩
    have joined := (e.neutral_render first).join (neutral_renderAll (f :: rest) others) comma
      (by decide) (by decide)
    rw [renderAll, String.toList_append, String.toList_append, List.append_assoc]
    · exact joined
    · simp

end

/-! ## 3. Lines -/

/-- Lines of a given score, none of which holds a line feed. -/
structure Tallied (lines : List String) (total : Tally) : Prop where
  oneLine : ∀ line ∈ lines, '\n' ∉ line.toList
  scoreAll_eq : scoreAll lines = total

namespace Tallied

variable {a b : List String} {s t : Tally}

theorem append (first : Tallied a s) (second : Tallied b t) : Tallied (a ++ b) (s + t) where
  oneLine := List.forall_mem_append.mpr ⟨first.oneLine, second.oneLine⟩
  scoreAll_eq := by rw [scoreAll_append, first.scoreAll_eq, second.scoreAll_eq]

theorem nil : Tallied [] 0 :=
  ⟨by simp, rfl⟩

theorem line {text : String} (oneLine : '\n' ∉ text.toList) (total : score text.toList = t) :
    Tallied [text] t :=
  ⟨by simpa using oneLine, by simpa [scoreAll] using total⟩

theorem plain {text : String} (plain : Plain text.toList) (total : tally text.toList = t) :
    Tallied [text] t :=
  line plain.oneLine (plain.score_eq.trans total)

/-- A line whose characters are checked one by one. -/
theorem of_chars {text : List Char} (all : text.all isPlain = true) (total : tally text = t) :
    Tallied [String.ofList text] t := by
  refine plain ?_ ?_ <;> rw [String.toList_ofList]
  · exact .of_all all
  · exact total

/-- A comment. -/
theorem comment {text : List Char} (all : text.all isQuoteless = true) :
    Tallied [String.ofList ('-' :: '-' :: text)] 0 := by
  have quoteless := quoteless_of_all all
  refine line ?_ ?_ <;> rw [String.toList_ofList]
  · have oneLine := fun member => (quoteless '\n' member).2.2 rfl
    simpa using oneLine
  · exact score_comment .nil quoteless

theorem cons {text : String} (first : Tallied [text] s) (second : Tallied b t) :
    Tallied (text :: b) (s + t) :=
  first.append second

theorem flatMap {α : Type} {f : α → List String} {items : List α}
    (each : ∀ a ∈ items, Tallied (f a) 0) : Tallied (items.flatMap f) 0 := by
  induction items with
  | nil => exact .nil
  | cons a rest ih =>
    obtain ⟨first, others⟩ := List.forall_mem_cons.mp each
    exact first.append (ih others)

end Tallied

theorem score_append_of_ended {a : List Char} (start : Neutral a) (gap : Ended a) (b : List Char) :
    score (a ++ b) = score b := by
  rw [score, start.stripped_append, tally_append_of_ended gap, start.tally_eq, zero_add, score]

/-- A neutral text between two that are plain. -/
theorem Tallied.between (before after : String) {inner : String} {t : Tally}
    (start : Plain before.toList ∧ Ended before.toList) (neutral : Neutral inner.toList)
    (stop : Plain after.toList ∧ Delimited after.toList)
    (total : tally before.toList + tally after.toList = t) :
    Tallied [before ++ inner ++ after] t := by
  have text : (before ++ inner ++ after).toList =
      before.toList ++ (inner.toList ++ after.toList) := by
    simp
  refine .plain ?_ ?_ <;> rw [text]
  · exact start.1.append (neutral.toPlain.append stop.1)
  · rw [tally_append_of_ended start.2, tally_append stop.2, neutral.tally_eq, zero_add, total]

/-- A literal between two texts that are plain. -/
theorem Tallied.literal (before after : String) {t : Tally} (start : Plain before.toList)
    (stop : Plain after.toList) (s : String)
    (total : tally before.toList + tally after.toList = t) :
    Tallied [before ++ Lua.text s ++ after] t := by
  have text : (before ++ Lua.text s ++ after).toList =
      before.toList ++ ((Lua.text s).toList ++ after.toList) := by
    simp
  refine .line ?_ ?_ <;> rw [text]
  · exact List.not_mem_append start.oneLine
      (List.not_mem_append (newline_notMem_text s) stop.oneLine)
  · exact (score_literal start stop s).trans total

/-- An indentation: nothing but spaces. -/
def Indentation (indent : String) : Prop :=
  ∀ c ∈ indent.toList, c = ' '

theorem Indentation.step {indent : String} (spaces : Indentation indent) :
    Indentation (indent ++ step) := by
  have four : ∀ c ∈ Lua.step.toList, c = ' ' := by simp [Lua.step]
  unfold Indentation
  rw [String.toList_append]
  exact List.forall_mem_append.mpr ⟨spaces, four⟩

theorem Indentation.neutral {indent : String} (spaces : Indentation indent) :
    Neutral indent.toList := by
  unfold Indentation at spaces
  generalize indent.toList = a at spaces
  induction a with
  | nil => exact ⟨.nil, rfl⟩
  | cons c a ih =>
    obtain ⟨rfl, others⟩ := List.forall_mem_cons.mp spaces
    have space : Neutral [' '] := ⟨.of_all (by decide), by decide⟩
    exact space.append_of_ended (ih others) (by decide)

theorem Indentation.ended {indent : String} (spaces : Indentation indent) :
    Ended indent.toList := by
  unfold Ended
  rw [Option.all_eq_true]
  intro c last
  rw [spaces c (List.mem_of_getLast? last)]
  decide

/-- An indented line. -/
theorem Tallied.indent {indent text : String} {t : Tally} (spaces : Indentation indent)
    (line : Tallied [text] t) : Tallied [indent ++ text] t := by
  refine .line ?_ ?_
  · rw [String.toList_append]
    exact List.not_mem_append spaces.neutral.oneLine (line.oneLine _ List.mem_cons_self)
  · rw [String.toList_append, score_append_of_ended spaces.neutral spaces.ended]
    simpa [scoreAll] using line.scoreAll_eq

/-- The locals that a decision reads. -/
def Decision.names : Decision → List String
  | assign content => content.names
  | choose _ left _ right ifTrue ifFalse =>
    left.names ++ right.names ++ ifTrue.names ++ ifFalse.names

theorem neutral_comparisonSign (test : Comparison) :
    Neutral (' ' :: (comparisonSign test ++ " ").toList) ∧
      Ended (' ' :: (comparisonSign test ++ " ").toList) := by
  cases test <;>
    exact ⟨⟨.of_all (by decide), by decide⟩, by decide⟩

theorem tallied_comparison (node : Int) : Tallied ["-- Comparison " ++ integerText node] 0 := by
  have digits : (integerText node).toList.all isQuoteless = true := by
    simpa [isQuoteless, and_assoc] using (neutral_integerText node).quoteless
  have text : "-- Comparison " ++ integerText node =
      String.ofList ('-' :: '-' :: (" Comparison ".toList ++ (integerText node).toList)) := by
    rw [← String.toList_inj]
    simp
  rw [text]
  refine .comment ?_
  rw [List.all_append, digits]
  decide

/-- The line that begins a decision opens a block. -/
theorem tallied_if {left right : String} (first : Neutral left.toList)
    (second : Neutral right.toList) (test : Comparison) :
    Tallied ["if " ++ left ++ " " ++ comparisonSign test ++ " " ++ right ++ " then"]
      (0, 0, 0, 1, 0) := by
  obtain ⟨sign, ended⟩ := neutral_comparisonSign test
  have compared : Neutral (left ++ " " ++ comparisonSign test ++ " " ++ right).toList := by
    simpa using first.join second sign (by decide) ended
  have line : Tallied _ (0, 0, 0, 1, 0) :=
    .between "if " " then" ⟨.of_all (by decide), by decide⟩
      compared ⟨.of_all (by decide), delimited_cons (by decide) _⟩ (by decide)
  simpa [String.append_assoc] using line

/-- A decision opens as many blocks as it closes. -/
theorem Decision.tallied_lines (d : Decision) (named : ∀ slot ∈ d.names, Neutral slot.toList)
    {indent : String} (spaces : Indentation indent) : Tallied (d.lines indent) 0 := by
  induction d generalizing indent with
  | assign content =>
    have assigned : Neutral "content = ".toList := .of_chars (by decide) (by decide)
    have whole := assigned.append_of_ended (content.neutral_render named)
      (by decide)
    rw [← String.toList_append] at whole
    rw [Decision.lines, String.append_assoc]
    exact .indent spaces (.plain whole.toPlain whole.tally_eq)
  | choose node left test right ifTrue ifFalse ihTrue ihFalse =>
    obtain ⟨operands, ofFalse⟩ := List.forall_mem_append.mp named
    obtain ⟨operands, ofTrue⟩ := List.forall_mem_append.mp operands
    obtain ⟨ofLeft, ofRight⟩ := List.forall_mem_append.mp operands
    have comment := tallied_comparison node
    have opens := tallied_if (left.neutral_render ofLeft) (right.neutral_render ofRight) test
    have other : Tallied ["else"] 0 := .of_chars (by decide) (by decide)
    have close : Tallied ["end"] (0, 0, 0, -1, 0) := .of_chars (by decide) (by decide)
    have whole := (((((comment.indent spaces).cons (opens.indent spaces)).append
      (ihTrue ofTrue spaces.step)).append (other.indent spaces)).append
        (ihFalse ofFalse spaces.step)).append (close.indent spaces)
    have sum : (0 + (0, 0, 0, 1, 0) + 0 + 0 + 0 + (0, 0, 0, -1, 0) : Tally) = 0 := rfl
    rw [sum] at whole
    rw [Decision.lines]
    simpa [String.append_assoc] using whole

end Landform.Lua
