import Landform.Lua.Balance
import Mathlib

/-!
# Tallies of code

The balance check counts brackets and words in code without its literals and comments. A tally holds
the five differences that the check compares, and `score` is the tally of code as the check sees
it. Neither a literal nor a comment goes beyond its line, and no word does, so that the score of a
text is the sum of the scores of its lines; the check finds nothing in a text whose score is zero.

1. `tally_append`: tallies add up where no word is cut.
2. `score_line`: scores add up over lines.
3. `imbalances_eq_nil`: code with score zero is balanced.
-/

namespace Landform.Text

/-! ## 1. Words and tallies -/

theorem runsFrom_append_cons {member : Char → Bool} {c : Char} (gap : member c = false)
    (run a b : List Char) :
    runsFrom member run (a ++ c :: b) = runsFrom member run a ++ runsFrom member [] b := by
  induction a generalizing run with
  | nil =>
    cases run with
    | nil => simp [runsFrom, gap]
    | cons d run => simp [runsFrom, gap]
  | cons d a ih =>
    cases run with
    | nil =>
      rw [List.cons_append, runsFrom, runsFrom]
      split
      · exact ih [d]
      · exact ih []
    | cons e run =>
      rw [List.cons_append, runsFrom, runsFrom]
      split
      · exact ih (d :: e :: run)
      · rw [if_neg (by simp), if_neg (by simp), ih [], List.cons_append]

theorem words_append_cons {c : Char} (gap : isWordMember c = false) (a b : List Char) :
    words (a ++ c :: b) = words a ++ words b :=
  runsFrom_append_cons gap [] a b

theorem words_cons {c : Char} (gap : isWordMember c = false) (b : List Char) :
    words (c :: b) = words b :=
  words_append_cons gap [] b

theorem runsFrom_all {member : Char → Bool} {a : List Char} (all : ∀ c ∈ a, member c = true)
    (run : List Char) (some : run ++ a ≠ []) :
    runsFrom member run a = [String.ofList (run.reverse ++ a)] := by
  induction a generalizing run with
  | nil =>
    cases run with
    | nil => exact absurd rfl some
    | cons d run => simp [runsFrom]
  | cons c a ih =>
    obtain ⟨first, rest⟩ := List.forall_mem_cons.mp all
    have step : runsFrom member run (c :: a) = runsFrom member (c :: run) a := by
      cases run <;> simp [runsFrom, first]
    rw [step, ih rest (c :: run) (by simp)]
    simp

/-- A text of word characters is one word. -/
theorem words_all {a : List Char} (all : ∀ c ∈ a, isWordMember c = true) (some : a ≠ []) :
    words a = [String.ofList a] :=
  runsFrom_all all [] some

end Landform.Text

namespace Landform.Lua

open Text

/-- Opening less closing parentheses, braces and brackets, block openers less `end`, and `repeat`
less `until`. -/
abbrev Tally := Int × Int × Int × Int × Int

/-- One for a thing itself, zero for any other. -/
def mark {α : Type} [DecidableEq α] (counted a : α) : Int :=
  if a = counted then 1 else 0

/-- What a character counts. -/
def charTally (c : Char) : Tally :=
  (mark '(' c - mark ')' c, mark '\x7b' c - mark '\x7d' c, mark '[' c - mark ']' c, 0, 0)

/-- What a word counts. -/
def wordTally (word : String) : Tally :=
  (0, 0, 0, mark "function" word + mark "if" word + mark "do" word - mark "end" word,
    mark "repeat" word - mark "until" word)

/-- The differences that the balance check compares. -/
def tally (text : List Char) : Tally :=
  (text.map charTally).sum + ((words text).map wordTally).sum

/-- A text begins with no word character. -/
def Delimited (text : List Char) : Prop :=
  text.head?.all (fun c => !isWordMember c) = true

instance (text : List Char) : Decidable (Delimited text) :=
  inferInstanceAs (Decidable (_ = true))

theorem delimited_cons {c : Char} (gap : isWordMember c = false) (rest : List Char) :
    Delimited (c :: rest) := by
  simpa [Delimited] using gap

theorem tally_nil : tally [] = 0 := rfl

theorem tally_append {a b : List Char} (gap : Delimited b) :
    tally (a ++ b) = tally a + tally b := by
  cases b with
  | nil => simp [tally, words, runs, runsFrom]
  | cons c b =>
    have gap : isWordMember c = false := by simpa [Delimited] using gap
    simp only [tally, words_append_cons gap, words_cons gap, List.map_append, List.sum_append]
    exact add_add_add_comm _ _ _ _

theorem tally_cons {c : Char} (gap : isWordMember c = false) (b : List Char) :
    tally (c :: b) = charTally c + tally b := by
  simp only [tally, words_cons gap, List.map_cons, List.sum_cons]
  exact add_assoc _ _ _

/-! ## 2. Line by line -/

/-- The code that the balance check looks at. -/
def stripped (code : List Char) : List Char :=
  dropComments false (emptyLiterals code)

/-- The tally of code without its literals and comments. -/
def score (code : List Char) : Tally :=
  tally (stripped code)

/-- The characters that begin a literal. -/
def IsQuote (c : Char) : Prop :=
  c = '"' ∨ c = '\''

theorem afterLiteral?_cons {quote c : Char} (plain : c ≠ '\\') (rest : List Char) :
    afterLiteral? quote (c :: rest) =
      if c == quote then some rest else if c == '\n' then none else afterLiteral? quote rest := by
  rw [afterLiteral?]
  · simp [plain]
  · intro d tail same
    exact absurd same plain

/-- A literal ends on the line on which it began, or not at all. -/
theorem afterLiteral?_line {quote : Char} (quotes : IsQuote quote) {line : List Char}
    (oneLine : '\n' ∉ line) (rest : List Char) :
    afterLiteral? quote (line ++ '\n' :: rest) =
      (afterLiteral? quote line).map (· ++ '\n' :: rest) := by
  have notNewline : quote ≠ '\n' := by rcases quotes with rfl | rfl <;> decide
  have notBackslash : quote ≠ '\\' := by rcases quotes with rfl | rfl <;> decide
  fun_induction afterLiteral? quote line with
  | case1 => simp [afterLiteral?, notNewline.symm]
  | case2 c tail newline => simp [afterLiteral?, newline]
  | case3 c tail other ih =>
    rw [List.cons_append, List.cons_append, afterLiteral?, if_neg other]
    exact ih fun listed => oneLine (List.mem_cons_of_mem _ (List.mem_cons_of_mem _ listed))
  | case4 c tail _ closes =>
    have plain : c ≠ '\\' := by
      rintro rfl
      exact notBackslash (beq_iff_eq.mp closes).symm
    rw [List.cons_append, afterLiteral?_cons plain, if_pos closes, Option.map_some]
  | case5 c tail shape open' stops =>
    -- what stops the literal is a backslash at the end of the line, which escapes the line feed
    have listed : c ≠ '\n' := fun same => oneLine (same ▸ List.mem_cons_self)
    have backslash : c = '\\' := by simpa [listed] using stops
    subst backslash
    have last : tail = [] := by
      cases tail with
      | nil => rfl
      | cons d tail => exact absurd rfl (shape d tail rfl)
    subst last
    simp [afterLiteral?]
  | case6 c tail _ open' goes ih =>
    have plain : c ≠ '\\' := fun same => goes (by simp [same])
    have inside : c ≠ '\n' := fun same => goes (by simp [same])
    rw [List.cons_append, afterLiteral?_cons plain, if_neg open', if_neg (by simpa using inside)]
    exact ih fun listed => oneLine (List.mem_cons_of_mem _ listed)

theorem suffix_of_afterLiteral? {quote : Char} {text after : List Char}
    (closed : afterLiteral? quote text = some after) : after <:+ text := by
  fun_induction afterLiteral? quote text with
  | case1 | case2 | case5 => cases closed
  | case3 c tail _ ih =>
    exact (ih closed).trans ((List.suffix_cons _ _).trans (List.suffix_cons _ _))
  | case4 c tail =>
    cases closed
    exact List.suffix_cons _ _
  | case6 c tail _ _ _ ih => exact (ih closed).trans (List.suffix_cons _ _)

theorem emptyLiterals_line {line : List Char} (oneLine : '\n' ∉ line) (rest : List Char) :
    emptyLiterals (line ++ '\n' :: rest) = emptyLiterals line ++ '\n' :: emptyLiterals rest := by
  fun_induction emptyLiterals line with
  | case1 => rw [List.nil_append, emptyLiterals, if_neg (by decide), List.nil_append]
  | case2 c tail quotes after closed ih =>
    have isQuote : IsQuote c := by simpa [IsQuote] using quotes
    have inTail : '\n' ∉ tail := fun listed => oneLine (List.mem_cons_of_mem _ listed)
    have inAfter : '\n' ∉ after := fun listed =>
      inTail ((suffix_of_afterLiteral? closed).mem listed)
    have same := afterLiteral?_line isQuote inTail rest
    rw [closed, Option.map_some] at same
    rw [List.cons_append, emptyLiterals, if_pos quotes]
    split
    · next found =>
      rw [same] at found
      cases found
      rw [ih inAfter]
      rfl
    · next found =>
      rw [same] at found
      cases found
  | case3 c tail quotes isOpen ih =>
    have isQuote : IsQuote c := by simpa [IsQuote] using quotes
    have inTail : '\n' ∉ tail := fun listed => oneLine (List.mem_cons_of_mem _ listed)
    have same := afterLiteral?_line isQuote inTail rest
    rw [isOpen, Option.map_none] at same
    rw [List.cons_append, emptyLiterals, if_pos quotes]
    split
    · next found =>
      rw [same] at found
      cases found
    · rw [ih inTail]
      rfl
  | case4 c tail noQuote ih =>
    have inTail : '\n' ∉ tail := fun listed => oneLine (List.mem_cons_of_mem _ listed)
    rw [List.cons_append, emptyLiterals, if_neg noQuote, ih inTail]
    rfl

theorem newline_notMem_emptyLiterals {line : List Char} (oneLine : '\n' ∉ line) :
    '\n' ∉ emptyLiterals line := by
  fun_induction emptyLiterals line with
  | case1 => exact List.not_mem_nil
  | case2 c tail _ after closed ih =>
    have inAfter := ih fun listed =>
      oneLine (List.mem_cons_of_mem _ ((suffix_of_afterLiteral? closed).mem listed))
    simpa using inAfter
  | case3 c tail _ _ ih | case4 c tail _ ih =>
    obtain ⟨first, others⟩ := not_or.mp (List.mem_cons.not.mp oneLine)
    exact List.mem_cons.not.mpr (not_or.mpr ⟨first, ih others⟩)

theorem dropComments_cons {c : Char} {rest : List Char}
    (noComment : ∀ tail, c = '-' → rest ≠ '-' :: tail) :
    dropComments false (c :: rest) = c :: dropComments false rest := by
  rw [dropComments]
  exact fun tail first second => noComment tail first second

theorem dropComments_line {line : List Char} (oneLine : '\n' ∉ line) (inside : Bool)
    (rest : List Char) :
    dropComments inside (line ++ '\n' :: rest) =
      dropComments inside line ++ '\n' :: dropComments false rest := by
  fun_induction dropComments inside line with
  | case1 inside => cases inside <;> simp [dropComments]
  | case2 c tail newline => exact absurd (by simp [beq_iff_eq.mp newline]) oneLine
  | case3 c tail other ih =>
    rw [List.cons_append, dropComments, if_neg other]
    exact ih fun listed => oneLine (List.mem_cons_of_mem _ listed)
  | case4 tail ih =>
    rw [List.cons_append, List.cons_append, dropComments]
    exact ih fun listed => oneLine (List.mem_cons_of_mem _ (List.mem_cons_of_mem _ listed))
  | case5 c tail shape ih =>
    rw [List.cons_append, dropComments_cons,
      ih fun listed => oneLine (List.mem_cons_of_mem _ listed)]
    · rfl
    · -- a minus at the end of a line begins no comment, since a line feed follows
      intro rest' minus same
      cases tail with
      | nil => exact absurd (List.cons.inj same).1 (by decide)
      | cons d tail => exact shape tail minus (by rw [(List.cons.inj same).1])

/-- The score of a text is that of its first line and that of the others. -/
theorem score_line {line : List Char} (oneLine : '\n' ∉ line) (rest : List Char) :
    score (line ++ '\n' :: rest) = score line + score rest := by
  have newline : charTally '\n' = 0 := rfl
  unfold score stripped
  rw [emptyLiterals_line oneLine, dropComments_line (newline_notMem_emptyLiterals oneLine),
    tally_append (delimited_cons (by decide) _), tally_cons (by decide), newline, zero_add]

/-- The sum of the scores of lines. -/
def scoreAll (lines : List String) : Tally :=
  (lines.map fun line => score line.toList).sum

theorem scoreAll_append (first second : List String) :
    scoreAll (first ++ second) = scoreAll first + scoreAll second := by
  simp [scoreAll]

theorem scoreAll_cons (line : String) (rest : List String) :
    scoreAll (line :: rest) = score line.toList + scoreAll rest := by
  simp [scoreAll]

/-- The score of lines put together is the sum of their scores. -/
theorem score_intercalate {lines : List String} (oneLine : ∀ line ∈ lines, '\n' ∉ line.toList) :
    score ("\n".intercalate lines).toList = scoreAll lines := by
  induction lines with
  | nil => decide +kernel
  | cons line rest ih =>
    obtain ⟨first, others⟩ := List.forall_mem_cons.mp oneLine
    cases rest with
    | nil => simp [scoreAll]
    | cons next rest =>
      rw [String.intercalate_cons_cons, String.toList_append, String.toList_append,
        List.append_assoc, scoreAll_cons, ← ih others]
      exact score_line first _

/-! ## 3. Balance -/

theorem count_cons_mark {α : Type} [DecidableEq α] (counted a : α) (items : List α) :
    ((a :: items).count counted : Int) = mark counted a + items.count counted := by
  rw [mark, List.count_cons]
  by_cases same : a = counted
  · simp [same, add_comm]
  · simp [same]

theorem charTally_sum (text : List Char) :
    (text.map charTally).sum =
      ((text.count '(' - text.count ')' : Int), (text.count '\x7b' - text.count '\x7d' : Int),
        (text.count '[' - text.count ']' : Int), 0, 0) := by
  induction text with
  | nil => rfl
  | cons c text ih =>
    rw [List.map_cons, List.sum_cons, ih, charTally]
    simp only [Prod.mk_add_mk, count_cons_mark, Prod.mk.injEq, add_zero, and_true]
    omega

theorem wordTally_sum (words : List String) :
    (words.map wordTally).sum =
      (0, 0, 0, (openers words - words.count "end" : Int),
        (words.count "repeat" - words.count "until" : Int)) := by
  induction words with
  | nil => rfl
  | cons word words ih =>
    rw [List.map_cons, List.sum_cons, ih, wordTally]
    simp only [openers, Int.natCast_add, Prod.mk_add_mk, count_cons_mark, Prod.mk.injEq, add_zero,
      true_and]
    omega

/-- The check finds nothing in code whose score is zero. -/
theorem imbalances_eq_nil {code : String} (zero : score code.toList = 0) :
    imbalances code = [] := by
  unfold score tally at zero
  rw [charTally_sum, wordTally_sum] at zero
  simp only [Prod.mk_add_mk, Prod.mk_eq_zero, stripped] at zero
  obtain ⟨parentheses, braces, brackets, blocks, loops⟩ := zero
  unfold imbalances bracketImbalance
  simp only
  rw [if_pos (by omega), if_pos (by omega), if_pos (by omega), if_pos (by omega), if_pos (by omega)]
  rfl

end Landform.Lua
