import Landform.Proofs.Script.Makes
import Landform.Proofs.Script.Balanced

/-!
# The words of a script

Where parts are put together without cutting a word, the words of the whole are those of the parts.
Numerals, operators, keywords and the functions of the game have words that any script may have. So
the words of what is rendered, these apart, are the names in it.

1. `Speaks.append`, `Speaks.append_of_ended`: the words of texts put together.
2. `speaks_number`, `composes_speaks`: numerals and expressions.
3. `speaks_lines`, `speaks_body`: decisions and bodies.
-/

namespace Landform

namespace Text

theorem words_append {a b : List Char} (gap : Lua.Delimited b) :
    words (a ++ b) = words a ++ words b := by
  cases b with
  | nil => simp [words, runs, runsFrom]
  | cons c b =>
    have gap : isWordMember c = false := by simpa [Lua.Delimited] using gap
    rw [words_append_cons gap, words_cons gap]

theorem words_append_of_ended {a b : List Char} (gap : Lua.Ended a) :
    words (a ++ b) = words a ++ words b := by
  rcases List.eq_nil_or_concat a with rfl | ⟨init, c, rfl⟩
  · simp [words, runs, runsFrom]
  · have gap : isWordMember c = false := by simpa [Lua.Ended] using gap
    rw [List.concat_eq_append, List.append_assoc, List.singleton_append, words_append_cons gap,
      words_append_cons gap]
    simp [words, runs, runsFrom]

theorem mem_of_mem_runsFrom {member : Char → Bool} {a : List Char} {run : List Char} {w : String}
    (listed : w ∈ runsFrom member run a) : ∀ c ∈ w.toList, c ∈ run ∨ c ∈ a := by
  induction a generalizing run with
  | nil =>
    cases run with
    | nil => exact absurd listed List.not_mem_nil
    | cons d run =>
      have whole : w = String.ofList (d :: run).reverse := by simpa [runsFrom] using listed
      rw [whole, String.toList_ofList]
      exact fun c inside => .inl (List.mem_reverse.mp inside)
  | cons d a ih =>
    -- the run goes on with the character, or is a word before it
    have step : runsFrom member run (d :: a) = if member d then runsFrom member (d :: run) a
        else if run.isEmpty then runsFrom member [] a
        else String.ofList run.reverse :: runsFrom member [] a := by
      cases run <;> rfl
    have later : ∀ {run'}, w ∈ runsFrom member run' a → run' ⊆ d :: run →
        ∀ c ∈ w.toList, c ∈ run ∨ c ∈ d :: a := by
      intro run' found within c inside
      rcases ih found c inside with early | late
      · rcases List.mem_cons.mp (within early) with rfl | before
        · exact .inr List.mem_cons_self
        · exact .inl before
      · exact .inr (List.mem_cons_of_mem _ late)
    rw [step] at listed
    split at listed
    · exact later listed (List.Subset.refl _)
    · split at listed
      · exact later listed (List.nil_subset _)
      · rcases List.mem_cons.mp listed with rfl | found
        · rw [String.toList_ofList]
          exact fun c inside => .inl (List.mem_reverse.mp inside)
        · exact later found (List.nil_subset _)

/-- A word consists of characters of the text. -/
theorem mem_of_mem_words {a : List Char} {w : String} (listed : w ∈ words a) :
    ∀ c ∈ w.toList, c ∈ a := fun c inside =>
  (mem_of_mem_runsFrom listed c inside).resolve_left List.not_mem_nil

end Text

namespace Script

open Lua Decimal Text

variable {said : String → Prop}

/-! ## 1. Texts -/

/-- All words of a text have a property. -/
def Speaks (said : String → Prop) (text : String) : Prop :=
  ∀ w ∈ words text.toList, said w

/-- Whether a word may stand in the function of any script: names of noise fields and of contents
have an underscore, and helpers have names of their own, so that words without are inert. The others
are the arguments of the function, the function that it replaces, and a content of every script. -/
def isCommon (w : String) : Bool :=
  !w.toList.contains '_' && w != Helper.mandelbrot.name && w != Helper.gaussian.name ||
    ["noise_vals", "original_content", "old_logic", "c_water"].contains w

/-- Whether a character is neither the underscore nor a letter that all helpers have. -/
def isMute (c : Char) : Bool :=
  c != '_' && c != 'n'

namespace Speaks

variable {a b : String}

theorem append (first : Speaks said a) (second : Speaks said b) (gap : Delimited b.toList) :
    Speaks said (a ++ b) := by
  unfold Speaks
  rw [String.toList_append, words_append gap]
  exact List.forall_mem_append.mpr ⟨first, second⟩

theorem append_of_ended (first : Speaks said a) (second : Speaks said b) (gap : Ended a.toList) :
    Speaks said (a ++ b) := by
  unfold Speaks
  rw [String.toList_append, words_append_of_ended gap]
  exact List.forall_mem_append.mpr ⟨first, second⟩

/-- Two texts with something between them that is no part of a word. -/
theorem join {sep : String} (first : Speaks said a) (between : Speaks said sep)
    (second : Speaks said b) (start : Delimited sep.toList) (some : sep.toList ≠ [])
    (stop : Ended sep.toList) :
    Speaks said (a ++ (sep ++ b)) := by
  refine first.append (between.append_of_ended second stop) ?_
  rw [String.toList_append]
  unfold Delimited at start ⊢
  rwa [List.head?_append_of_ne_nil _ some]

/-- A word. -/
theorem word (all : a.toList.all isWordMember = true) (some : a.toList ≠ []) (ofWord : said a) :
    Speaks said a := by
  unfold Speaks
  rw [words_all (List.all_eq_true.mp all) some, String.ofList_toList]
  exact List.forall_mem_singleton.mpr ofWord

/-- An indented text. -/
theorem indent {indent : String} (spaces : Indentation indent) (line : Speaks said a) :
    Speaks said (indent ++ a) := by
  have none : words indent.toList = [] := by
    unfold Indentation at spaces
    generalize indent.toList = blanks at spaces
    induction blanks with
    | nil => rfl
    | cons c blanks ih =>
      obtain ⟨rfl, others⟩ := List.forall_mem_cons.mp spaces
      rw [words_cons (by decide), ih others]
  refine append_of_ended (fun w listed => ?_) line spaces.ended
  rw [none] at listed
  cases listed

end Speaks

/-! ## 2. Expressions -/

variable (common : ∀ w, isCommon w = true → said w)

include common

/-- A text whose words are checked one by one. -/
theorem speaks_of_common {a : String} (all : (words a.toList).all isCommon = true) :
    Speaks said a :=
  fun w listed => common w (List.all_eq_true.mp all w listed)

/-- A text without the characters that tell a declared name. -/
theorem speaks_of_mute {a : String} (mute : ∀ c ∈ a.toList, isMute c = true) : Speaks said a := by
  intro w listed
  have letters : ∀ c ∈ w.toList, isMute c = true := fun c inside =>
    mute c (mem_of_mem_words listed c inside)
  have other : ∀ name : String, name.toList.all isMute = false → w ≠ name := by
    rintro name loud rfl
    exact absurd (List.all_eq_true.mpr letters) (by simp [loud])
  refine common w ?_
  simp only [isCommon, Bool.or_eq_true, Bool.and_eq_true, Bool.not_eq_true', List.contains_eq_mem,
    decide_eq_false_iff_not, bne_iff_ne]
  exact .inl ⟨⟨fun listed => absurd (letters _ listed) (by decide), other _ (by decide)⟩,
    other _ (by decide)⟩

omit common

theorem mem_writtenDigits {a : List Char} (some : Digits a) (exponent : Int) :
    ∀ c ∈ writtenDigits a exponent, c.isDigit = true ∨ c ∈ ['.', 'e', '+', '-'] := by
  obtain ⟨b, x, mantissa, tail, text⟩ := writtenDigits_eq some exponent
  rw [text]
  refine List.forall_mem_append.mpr ⟨fun c listed => ?_, fun c listed => ?_⟩
  · obtain ⟨first, rest, rfl, digit, others⟩ := mantissa.exists_cons
    rcases List.mem_cons.mp listed with rfl | later
    · exact .inl digit
    · exact (others c later).imp_right (by rintro rfl; decide)
  · cases tail with
    | nil => cases listed
    | exponent exponent =>
      obtain ⟨sign, isSign, digits, all, text⟩ := exponentText_eq exponent
      rw [text] at listed
      rcases List.mem_cons.mp listed with rfl | listed
      · exact .inr (by decide)
      · rcases List.mem_cons.mp listed with rfl | listed
        · exact .inr (by rcases List.mem_pair.mp isSign with rfl | rfl <;> decide)
        · exact .inl (all.digits c listed)

theorem isMute_of_isDigit {c : Char} (digit : c.isDigit = true) : isMute c = true := by
  simp only [isMute, Bool.and_eq_true, bne_iff_ne]
  constructor <;>
  · rintro rfl
    exact absurd digit (by decide)

theorem mute_integerText (n : Int) : ∀ c ∈ (integerText n).toList, isMute c = true := by
  intro c listed
  rcases mem_integerText listed with rfl | digit
  · decide
  · exact isMute_of_isDigit digit

theorem mute_number (x : Float) : ∀ c ∈ (number x).toList, isMute c = true := by
  cases found : form x with
  | notANumber =>
    rw [number, found]
    exact List.all_eq_true.mp (by decide : "(0/0)".toList.all isMute = true)
  | infinite negative =>
    rw [number, found]
    cases negative with
    | false => exact List.all_eq_true.mp (by decide : "math.huge".toList.all isMute = true)
    | true => exact List.all_eq_true.mp (by decide : "(-math.huge)".toList.all isMute = true)
  | finite negative mantissa exponent =>
    rcases number_finite found with ⟨n, text⟩ | text
    · rw [text]
      exact mute_integerText n
    · have digits : ∀ c ∈ writtenDigits (shortestDigits mantissa exponent).1
          (shortestDigits mantissa exponent).2, isMute c = true := by
        intro c listed
        rcases mem_writtenDigits (Digits.shortestDigits mantissa exponent) _ c listed
          with digit | sign
        · exact isMute_of_isDigit digit
        · exact List.all_eq_true.mp (by decide : ['.', 'e', '+', '-'].all isMute = true) c sign
      rw [text, written, found]
      dsimp only
      rw [signed, String.toList_ofList]
      split
      · exact List.forall_mem_cons.mpr ⟨by decide, digits⟩
      · exact digits

include common

theorem speaks_number (x : Float) : Speaks said (number x) :=
  speaks_of_mute common (mute_number x)

theorem speaks_integerText (n : Int) : Speaks said (integerText n) :=
  speaks_of_mute common (mute_integerText n)

/-- A call says what its arguments say, behind the name of the function. -/
theorem speaks_call {function : Function} {arguments : List Expr} (name : Speaks said function.name)
    (each : ∀ e ∈ arguments, Speaks said e.render) :
    Speaks said (Expr.call function arguments).render := by
  have comma : Speaks said ", " := speaks_of_common common (by decide)
  have opens : Speaks said "(" := speaks_of_common common (by decide)
  have closes : Speaks said ")" := speaks_of_common common (by decide)
  have all : Speaks said (renderAll arguments) := by
    induction arguments with
    | nil => exact speaks_of_common common (by decide)
    | cons e rest ih =>
      obtain ⟨first, others⟩ := List.forall_mem_cons.mp each
      cases rest with
      | nil =>
        rw [renderAll]
        exact first
      | cons f rest =>
        rw [renderAll, String.append_assoc]
        · exact first.join comma (ih others) (by decide) (by decide) (by decide)
        · simp
  rw [Expr.render]
  have group := (opens.append_of_ended all (by decide)).append closes (by decide)
  have gap : Delimited ("(" ++ renderAll arguments ++ ")").toList := by
    simp only [String.toList_append, List.append_assoc]
    exact delimited_cons (by decide) _
  have whole := name.append group gap
  simpa only [String.append_assoc] using whole

/-- What is said is kept where expressions are put together. -/
theorem composes_speaks : Composes fun e => Speaks said e.render where
  number x := by
    rw [Expr.render]
    exact speaks_number common x
  integer n := by
    rw [Expr.render]
    exact speaks_integerText common n
  coordinate axis := by
    rw [Expr.render]
    cases axis <;> exact speaks_of_common common (by decide)
  group inner := by
    have opens : Speaks said "(" := speaks_of_common common (by decide)
    have closes : Speaks said ")" := speaks_of_common common (by decide)
    rw [Expr.render]
    exact (opens.append_of_ended inner (by decide)).append closes (by decide)
  square base := by
    have power : Speaks said "^2" := speaks_of_common common (by decide)
    rw [Expr.render]
    exact base.append power (by decide)
  binary {operator left right} first second := by
    have sign : Speaks said (" " ++ operator.sign ++ " ") := by
      cases operator <;> exact speaks_of_common common (by decide)
    have whole := first.join sign second (by cases operator <;> decide)
      (by cases operator <;> decide) (by cases operator <;> decide)
    rw [Expr.render]
    simpa only [String.append_assoc] using whole
  call {function arguments} other each := by
    refine speaks_call common ?_ each
    cases function with
    | gaussian => exact absurd rfl (other .gaussian)
    | mandelbrot => exact absurd rfl (other .mandelbrot)
    | abs | sqrt | lerp | coserp | remap => exact speaks_of_common common (by decide)

/-! ## 3. Lines -/

theorem speaks_lines (d : Decision) (each : d.Each fun e => Speaks said e.render) {indent : String}
    (spaces : Indentation indent) : ∀ line ∈ d.lines indent, Speaks said line := by
  induction d generalizing indent with
  | assign content =>
    have assigns : Speaks said "content = " := speaks_of_common common (by decide)
    rw [Decision.lines, String.append_assoc]
    exact List.forall_mem_singleton.mpr ((assigns.append_of_ended each (by decide)).indent spaces)
  | choose node left test right ifTrue ifFalse ihTrue ihFalse =>
    obtain ⟨ofLeft, ofRight, ofTrue, ofFalse⟩ := each
    have label : Speaks said "-- Comparison " := speaks_of_common common (by decide)
    have comment := label.append_of_ended (speaks_integerText common node) (by decide)
    have opens : Speaks said "if " := speaks_of_common common (by decide)
    have closes : Speaks said " then" := speaks_of_common common (by decide)
    have sign : Speaks said (" " ++ comparisonSign test ++ " ") := by
      cases test <;> exact speaks_of_common common (by decide)
    have compared := ofLeft.join sign ofRight (by cases test <;> decide)
      (by cases test <;> decide) (by cases test <;> decide)
    have question := (opens.append_of_ended compared (by decide)).append closes (by decide)
    have other : Speaks said "else" := speaks_of_common common (by decide)
    have close : Speaks said "end" := speaks_of_common common (by decide)
    have more := spaces.step
    simp only [Decision.lines, List.forall_mem_append, List.forall_mem_cons, List.not_mem_nil,
      false_implies, implies_true, and_true]
    refine ⟨⟨⟨⟨⟨?_, ?_⟩, ihTrue ofTrue more⟩, other.indent spaces⟩, ihFalse ofFalse more⟩,
      close.indent spaces⟩
    · rw [String.append_assoc]
      exact comment.indent spaces
    · simpa only [String.append_assoc] using question.indent spaces

/-- The lines of a body say what its expressions and its local say. -/
theorem speaks_body {body : Body} (each : body.Each fun e => Speaks said e.render)
    (local' : ∀ level slot, body = .height level slot → Speaks said slot) :
    ∀ line ∈ body.lines, Speaks said line := by
  have comment : Speaks said (indented 1 "-- Terrain evaluation") :=
    speaks_of_common common (by decide +kernel)
  have empty : Speaks said "" := speaks_of_common common (by decide)
  cases body with
  | keep => exact nofun
  | decide d =>
    have spaces : Indentation step := by simp [Indentation, step]
    simp only [Body.lines, List.forall_mem_append, List.forall_mem_cons, List.not_mem_nil,
      false_implies, implies_true, and_true]
    exact ⟨⟨comment, speaks_lines common d each spaces⟩, empty⟩
  | height level slot =>
    have height : Speaks said "local height = " := speaks_of_common common (by decide)
    have assigns : Speaks said "content = " := speaks_of_common common (by decide)
    have line : ∀ depth {text : String}, Speaks said text → Speaks said (indented depth text) :=
      fun depth _ speaks => speaks.indent (indentation_join depth)
    have wet : Speaks said "if y < 0 then" := speaks_of_common common (by decide)
    have water : Speaks said "content = c_water" := speaks_of_common common (by decide)
    have low : Speaks said "if y < height then" := speaks_of_common common (by decide)
    have close : Speaks said "end" := speaks_of_common common (by decide)
    simp only [Body.lines, List.forall_mem_cons, List.not_mem_nil, false_implies, implies_true,
      and_true]
    exact ⟨comment, line 1 (height.append_of_ended each (by decide)), empty, line 1 wet,
      line 2 water, line 1 close, line 1 low,
      line 2 (assigns.append_of_ended (local' _ _ rfl) (by decide)), line 1 close, empty⟩

end Script

end Landform
