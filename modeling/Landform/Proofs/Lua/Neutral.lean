import Landform.Lua.Literal
import Landform.Proofs.Decimal.Numeral
import Landform.Proofs.Lua.Balance

/-!
# Text that keeps the balance

A plain text holds no quote, no line feed and no comment, and begins none with what follows it; it
stays as it is when literals and comments are removed. A neutral text is plain and of tally zero.
Numerals are neutral, and a literal or a comment counts nothing in the line that holds it.

1. `Plain.append`, `Neutral.append`: plain and neutral texts put together.
2. `score_literal`, `score_comment`: lines with a literal or a comment.
3. `neutral_number`, `neutral_integerText`: numerals.
-/

namespace Landform.Lua

open Decimal Text

/-! ## 1. Plain and neutral texts -/

/-- A character that begins no literal and ends no line. -/
def isQuoteless (c : Char) : Bool :=
  c != '"' && c != '\'' && c != '\n'

/-- A quoteless character that does not take part in the mark of a comment. -/
def isPlain (c : Char) : Bool :=
  isQuoteless c && c != '-'

theorem quoteless_of_all {a : List Char} (all : a.all isQuoteless = true) :
    ∀ c ∈ a, c ≠ '"' ∧ c ≠ '\'' ∧ c ≠ '\n' := by
  simpa [isQuoteless, and_assoc] using all

/-- A text without literals and comments, on one line. -/
structure Plain (a : List Char) : Prop where
  quoteless : ∀ c ∈ a, c ≠ '"' ∧ c ≠ '\'' ∧ c ≠ '\n'
  uncommented : ∀ rest, dropComments false (a ++ rest) = a ++ dropComments false rest

/-- Removing literals leaves a text without quotes alone. -/
theorem emptyLiterals_quoteless {a : List Char}
    (quoteless : ∀ c ∈ a, c ≠ '"' ∧ c ≠ '\'' ∧ c ≠ '\n') (rest : List Char) :
    emptyLiterals (a ++ rest) = a ++ emptyLiterals rest := by
  induction a with
  | nil => rfl
  | cons c a ih =>
    obtain ⟨⟨double, single, _⟩, others⟩ := List.forall_mem_cons.mp quoteless
    rw [List.cons_append, emptyLiterals, if_neg (by simp [double, single]), ih others]
    rfl

namespace Plain

variable {a b : List Char}

theorem oneLine (plain : Plain a) : '\n' ∉ a :=
  fun member => (plain.quoteless _ member).2.2 rfl

theorem nil : Plain [] :=
  ⟨by simp, fun _ => rfl⟩

theorem append (first : Plain a) (second : Plain b) : Plain (a ++ b) where
  quoteless := List.forall_mem_append.mpr ⟨first.quoteless, second.quoteless⟩
  uncommented rest := by
    rw [List.append_assoc, first.uncommented, second.uncommented, List.append_assoc]

theorem cons {c : Char} (other : c ≠ '"' ∧ c ≠ '\'' ∧ c ≠ '\n' ∧ c ≠ '-') (rest : Plain a) :
    Plain (c :: a) where
  quoteless := List.forall_mem_cons.mpr ⟨⟨other.1, other.2.1, other.2.2.1⟩, rest.quoteless⟩
  uncommented text := by
    rw [List.cons_append, dropComments_cons fun _ same => absurd same other.2.2.2,
      rest.uncommented]
    rfl

/-- A minus sign before a character that is none. -/
theorem minus {c : Char} (other : c ≠ '-') (rest : Plain (c :: a)) : Plain ('-' :: c :: a) where
  quoteless := List.forall_mem_cons.mpr ⟨by decide, rest.quoteless⟩
  uncommented text := by
    have step := rest.uncommented text
    rw [List.cons_append] at step
    rw [List.cons_append, List.cons_append,
      dropComments_cons fun _ _ same => other (List.cons.inj same).1, step]
    rfl

theorem of_forall (each : ∀ c ∈ a, c ≠ '"' ∧ c ≠ '\'' ∧ c ≠ '\n' ∧ c ≠ '-') : Plain a := by
  induction a with
  | nil => exact nil
  | cons c a ih =>
    obtain ⟨first, others⟩ := List.forall_mem_cons.mp each
    exact cons first (ih others)

/-- A text whose characters are checked one by one. -/
theorem of_all (all : a.all isPlain = true) : Plain a :=
  of_forall (by simpa [isPlain, isQuoteless, and_assoc] using all)

theorem emptyLiterals_append (plain : Plain a) (rest : List Char) :
    emptyLiterals (a ++ rest) = a ++ emptyLiterals rest :=
  emptyLiterals_quoteless plain.quoteless rest

theorem stripped_append (plain : Plain a) (rest : List Char) :
    stripped (a ++ rest) = a ++ stripped rest := by
  rw [stripped, plain.emptyLiterals_append, plain.uncommented]
  rfl

theorem score_eq (plain : Plain a) : score a = tally a := by
  have same := plain.stripped_append []
  rw [List.append_nil] at same
  rw [score, same]
  have none : stripped [] = [] := by decide +kernel
  rw [none, List.append_nil]

end Plain

/-- A text ends in no word character. -/
def Ended (text : List Char) : Prop :=
  text.getLast?.all (fun c => !isWordMember c) = true

instance (text : List Char) : Decidable (Ended text) :=
  inferInstanceAs (Decidable (_ = true))

theorem tally_append_of_ended {a b : List Char} (gap : Ended a) :
    tally (a ++ b) = tally a + tally b := by
  rcases List.eq_nil_or_concat a with rfl | ⟨init, c, rfl⟩
  · simp [tally, words, runs, runsFrom]
  · have gap : isWordMember c = false := by simpa [Ended] using gap
    rw [List.concat_eq_append, List.append_assoc, List.singleton_append,
      tally_append (delimited_cons gap b), tally_append (delimited_cons gap []), tally_cons gap,
      tally_cons gap, tally_nil, add_zero, add_assoc]

/-- A plain text that opens as much as it closes. -/
structure Neutral (a : List Char) : Prop extends Plain a where
  tally_eq : tally a = 0

namespace Neutral

variable {a b : List Char}

/-- A text whose characters are checked one by one. -/
theorem of_chars (all : a.all isPlain = true) (zero : tally a = 0) :
    Neutral (String.ofList a).toList := by
  rw [String.toList_ofList]
  exact ⟨.of_all all, zero⟩

theorem append (first : Neutral a) (second : Neutral b) (gap : Delimited b) : Neutral (a ++ b) :=
  { first.toPlain.append second.toPlain with
    tally_eq := by rw [tally_append gap, first.tally_eq, second.tally_eq, add_zero] }

theorem append_of_ended (first : Neutral a) (second : Neutral b) (gap : Ended a) :
    Neutral (a ++ b) :=
  { first.toPlain.append second.toPlain with
    tally_eq := by rw [tally_append_of_ended gap, first.tally_eq, second.tally_eq, add_zero] }

/-- Two neutral texts with something between them that is no part of a word. -/
theorem join {c : Char} {sep : List Char} (first : Neutral a) (second : Neutral b)
    (between : Neutral (c :: sep)) (start : isWordMember c = false) (stop : Ended (c :: sep)) :
    Neutral (a ++ (c :: sep ++ b)) :=
  first.append (between.append_of_ended second stop) (delimited_cons start _)

end Neutral

/-- A neutral text between parentheses. -/
theorem Neutral.parenthesized {a : List Char} (inner : Neutral a) :
    Neutral ('(' :: (a ++ [')'])) where
  toPlain := .cons (by decide) (inner.toPlain.append (.of_all (by decide)))
  tally_eq := by
    rw [tally_cons (by decide), tally_append (delimited_cons (by decide) _), inner.tally_eq]
    rfl

/-- What a character of a word is not. -/
theorem ne_of_isWordMember {c d : Char} (word : isWordMember c = true)
    (gap : isWordMember d = false) : c ≠ d := by
  rintro rfl
  rw [word] at gap
  cases gap

theorem plain_word {a : List Char} (all : ∀ c ∈ a, isWordMember c = true) : Plain a :=
  .of_forall fun c member =>
    have word := all c member
    ⟨ne_of_isWordMember word (by decide), ne_of_isWordMember word (by decide),
      ne_of_isWordMember word (by decide), ne_of_isWordMember word (by decide)⟩

theorem charTally_word {c : Char} (word : isWordMember c = true) : charTally c = 0 := by
  have other : ∀ d, isWordMember d = false → c ≠ d := fun d gap => ne_of_isWordMember word gap
  have none : ∀ d, isWordMember d = false → mark d c = 0 := fun d gap => if_neg (other d gap)
  rw [charTally, none _ (by decide), none _ (by decide), none _ (by decide), none _ (by decide),
    none _ (by decide), none _ (by decide)]
  rfl

/-- A single word that opens and closes nothing. -/
theorem neutral_word {a : List Char} (all : ∀ c ∈ a, isWordMember c = true) (some : a ≠ [])
    (inert : wordTally (String.ofList a) = 0) : Neutral a :=
  { plain_word all with
    tally_eq := by
      have chars : ∀ t ∈ a.map charTally, t = 0 := by
        intro t listed
        obtain ⟨c, member, rfl⟩ := List.mem_map.mp listed
        exact charTally_word (all c member)
      rw [tally, words_all all some, List.sum_eq_zero chars]
      simpa using inert }

/-- The words that open or close a block consist of letters. -/
theorem wordTally_of_mem {a : List Char} {c : Char} (member : c ∈ a)
    (noLetter : c.isDigit = true ∨ c = '_') : wordTally (String.ofList a) = 0 := by
  have other : ∀ word : String, word.toList.any (fun d => d.isDigit || d == '_') = false →
      String.ofList a ≠ word := by
    rintro word letters rfl
    rw [String.toList_ofList, List.any_eq_false] at letters
    exact letters c member (by simpa using noLetter)
  have none : ∀ word : String, word.toList.any (fun d => d.isDigit || d == '_') = false →
      mark word (String.ofList a) = 0 := fun word letters => if_neg (other word letters)
  rw [wordTally, none _ (by decide), none _ (by decide), none _ (by decide), none _ (by decide),
    none _ (by decide), none _ (by decide)]
  rfl

/-! ## 2. Lines with a literal or a comment -/

theorem afterLiteral?_escaped (s rest : List Char) :
    afterLiteral? '"' (s.flatMap escapeChar ++ '"' :: rest) = some rest := by
  induction s with
  | nil => simp [afterLiteral?]
  | cons c s ih =>
    -- an escaped character is skipped as a pair, and no other one closes or breaks the literal
    rw [List.flatMap_cons, List.append_assoc, escapeChar]
    split
    · simpa [afterLiteral?] using ih
    · split
      · simpa [afterLiteral?] using ih
      · split
        · simpa [afterLiteral?] using ih
        · next backslash quote newline =>
          rw [List.singleton_append, afterLiteral?_cons (by simpa using backslash), if_neg quote,
            if_neg newline]
          exact ih

theorem toList_text (s : String) :
    (text s).toList = '"' :: (s.toList.flatMap escapeChar ++ ['"']) := by
  simp [text]

/-- A literal counts nothing, whatever it says. -/
theorem score_literal {a b : List Char} (before : Plain a) (after : Plain b) (s : String) :
    score (a ++ ((text s).toList ++ b)) = tally a + tally b := by
  have emptied : emptyLiterals ((text s).toList ++ b) = '"' :: '"' :: b := by
    have closed := afterLiteral?_escaped s.toList b
    rw [toList_text, List.cons_append, List.append_assoc, List.singleton_append, emptyLiterals,
      if_pos (by decide)]
    split
    · next found =>
      rw [closed] at found
      cases found
      have same := after.emptyLiterals_append []
      rw [List.append_nil, emptyLiterals, List.append_nil] at same
      rw [same]
    · next found =>
      rw [closed] at found
      cases found
  have kept : dropComments false b = b := by
    have same := after.uncommented []
    rwa [List.append_nil, dropComments, List.append_nil] at same
  have quote : charTally '"' = 0 := rfl
  rw [score, stripped, before.emptyLiterals_append, emptied, before.uncommented,
    dropComments_cons fun _ same => absurd same (by decide),
    dropComments_cons fun _ same => absurd same (by decide), kept,
    tally_append (delimited_cons (by decide) _), tally_cons (by decide), tally_cons (by decide),
    quote, zero_add, zero_add]

theorem newline_notMem_text (s : String) : '\n' ∉ (text s).toList := by
  have escaped : ∀ c, '\n' ∉ escapeChar c := by
    intro c
    unfold escapeChar
    split
    · decide
    · split
      · decide
      · split
        · decide
        · next newline =>
          exact fun listed => newline (beq_iff_eq.mpr (List.mem_singleton.mp listed).symm)
  rw [toList_text]
  simp only [List.mem_cons, List.mem_append, List.mem_flatMap, List.not_mem_nil, or_false, not_or,
    not_exists, not_and]
  exact ⟨by decide, fun c _ => escaped c, by decide⟩

theorem dropComments_true {b : List Char} (oneLine : '\n' ∉ b) : dropComments true b = [] := by
  induction b with
  | nil => rfl
  | cons c b ih =>
    obtain ⟨first, others⟩ := not_or.mp (List.mem_cons.not.mp oneLine)
    rw [dropComments, if_neg fun same => first (beq_iff_eq.mp same).symm, ih others]

/-- A comment counts nothing. -/
theorem score_comment {a b : List Char} (before : Plain a)
    (quoteless : ∀ c ∈ b, c ≠ '"' ∧ c ≠ '\'' ∧ c ≠ '\n') :
    score (a ++ '-' :: '-' :: b) = tally a := by
  have literals : emptyLiterals ('-' :: '-' :: b) = '-' :: '-' :: b := by
    have all : ∀ c ∈ '-' :: '-' :: b, c ≠ '"' ∧ c ≠ '\'' ∧ c ≠ '\n' :=
      List.forall_mem_cons.mpr ⟨by decide, List.forall_mem_cons.mpr ⟨by decide, quoteless⟩⟩
    have same := emptyLiterals_quoteless all []
    rwa [List.append_nil, emptyLiterals, List.append_nil] at same
  have oneLine : '\n' ∉ b := fun member => (quoteless _ member).2.2 rfl
  rw [score, stripped, before.emptyLiterals_append, literals, before.uncommented, dropComments,
    dropComments_true oneLine, List.append_nil]

/-! ## 3. Numerals -/

theorem isWordMember_of_isDigit {c : Char} (digit : c.isDigit = true) : isWordMember c = true := by
  have small : c.toNat < 128 := by
    simp only [Char.isDigit, Bool.and_eq_true, decide_eq_true_eq] at digit
    have upper : c.val.toNat ≤ 57 := digit.2
    show c.val.toNat < 128
    omega
  rw [isWordMember, if_pos small]
  simp [Char.isAlphanum, digit]

/-- Digits are a word that opens and closes nothing. -/
theorem neutral_digits {a : List Char} (digits : ∀ c ∈ a, c.isDigit = true) (some : a ≠ []) :
    Neutral a := by
  obtain ⟨c, member⟩ := List.exists_mem_of_ne_nil a some
  refine neutral_word (fun c member => isWordMember_of_isDigit (digits c member)) some ?_
  exact wordTally_of_mem member (.inl (digits c member))

/-- A neutral text behind a minus sign. -/
theorem Neutral.minus {c : Char} {a : List Char} (rest : Neutral (c :: a)) (other : c ≠ '-') :
    Neutral ('-' :: c :: a) :=
  { Plain.minus other rest.toPlain with
    tally_eq := by
      rw [tally_cons (by decide), rest.tally_eq]
      rfl }

theorem natDigits_ne_nil (n : Nat) : natDigits n ≠ [] :=
  Nat.toDigits_ne_nil

theorem neutral_natDigits (n : Nat) : Neutral (natDigits n) :=
  neutral_digits (fun _ => isDigit_of_mem_natDigits) (natDigits_ne_nil n)

/-- Some digits and nothing else. -/
structure Digits (a : List Char) : Prop where
  digits : ∀ c ∈ a, c.isDigit = true
  some : a ≠ []

namespace Digits

variable {a b : List Char}

theorem neutral (some : Digits a) : Neutral a :=
  neutral_digits some.digits some.some

theorem minus (some : Digits a) : Neutral ('-' :: a) := by
  cases a with
  | nil => exact absurd rfl some.some
  | cons c a =>
    refine some.neutral.minus ?_
    rintro rfl
    exact absurd (some.digits '-' List.mem_cons_self) (by decide)

theorem natDigits (n : Nat) : Digits (natDigits n) :=
  ⟨fun _ => isDigit_of_mem_natDigits, natDigits_ne_nil n⟩

theorem dropZeros (some : Digits a) : Digits (dropZeros a) := by
  have inside : ∀ c ∈ (a.reverse.dropWhile (· == '0')).reverse, c ∈ a := fun c member =>
    List.mem_reverse.mp ((List.dropWhile_suffix _).mem (List.mem_reverse.mp member))
  rw [Decimal.dropZeros]
  split
  · next none =>
    refine ⟨fun c member => some.digits c (List.mem_of_mem_take member), ?_⟩
    simpa using some.some
  · next kept found => exact ⟨fun c member => some.digits c (inside c member), found⟩

theorem shortestDigits (mantissa : Nat) (exponent : Int) :
    Digits (shortestDigits mantissa exponent).1 := by
  rw [Decimal.shortestDigits]
  split
  · exact ⟨by simp, by simp⟩
  · exact (natDigits _).dropZeros

theorem append_zeros (digits : ∀ c ∈ a, c.isDigit = true) (count : Nat) :
    ∀ c ∈ a ++ List.replicate count '0', c.isDigit = true := by
  refine List.forall_mem_append.mpr ⟨digits, fun c member => ?_⟩
  rw [List.eq_of_mem_replicate member]
  decide

/-- The two parts of a positional form consist of digits, and the first part is not empty. -/
theorem positional (some : Digits a) (exponent : Int) :
    Digits (positional a exponent).1 ∧ ∀ c ∈ (positional a exponent).2, c.isDigit = true := by
  rw [Decimal.positional]
  split
  · dsimp only
    refine ⟨⟨by simp, by simp⟩, List.forall_mem_append.mpr ⟨fun c member => ?_, some.digits⟩⟩
    rw [List.eq_of_mem_replicate member]
    decide
  · dsimp only
    refine ⟨⟨?_, ?_⟩, fun c member => some.digits c (List.mem_of_mem_drop member)⟩
    · exact append_zeros (fun c member => some.digits c (List.mem_of_mem_take member)) _
    · have := some.some
      simp [this]

end Digits

theorem neutral_integerText (n : Int) : Neutral (integerText n).toList := by
  rw [toList_integerText]
  split
  · exact (Digits.natDigits _).minus
  · exact neutral_natDigits _

theorem exponentText_eq (exponent : Int) :
    ∃ sign ∈ ['+', '-'], ∃ a, Digits a ∧ exponentText exponent = 'e' :: sign :: a := by
  have digits := Digits.natDigits exponent.natAbs
  rw [exponentText]
  refine ⟨_, ?_, _, ?_, rfl⟩
  · split <;> simp
  · split
    · exact ⟨List.forall_mem_cons.mpr ⟨by decide, digits.digits⟩, by simp⟩
    · exact digits

/-- Digits with an exponent: a word, a sign, and a word again. -/
theorem neutral_exponentText {a : List Char} (some : Digits a) (exponent : Int) :
    Neutral (a ++ exponentText exponent) := by
  obtain ⟨c, member⟩ := List.exists_mem_of_ne_nil a some.some
  obtain ⟨sign, isSign, b, digits, text⟩ := exponentText_eq exponent
  have base : Neutral (a ++ ['e']) := by
    refine neutral_word (List.forall_mem_append.mpr
      ⟨fun c member => isWordMember_of_isDigit (some.digits c member), ?_⟩) (by simp) ?_
    · exact List.all_eq_true.mp (by decide)
    · exact wordTally_of_mem (List.mem_append_left _ member) (.inl (some.digits c member))
  have rest : Neutral (sign :: b) ∧ isWordMember sign = false := by
    rcases List.mem_pair.mp isSign with rfl | rfl
    · have plus : Neutral ['+'] := ⟨.of_all (by decide), by decide⟩
      exact ⟨plus.append_of_ended digits.neutral (by decide), by decide⟩
    · exact ⟨digits.minus, by decide⟩
  rw [text, ← List.singleton_append, ← List.append_assoc]
  exact base.append rest.1 (delimited_cons rest.2 _)

/-- The digits of a decimal, with a point or without. -/
inductive Mantissa : List Char → Prop
  | whole {a : List Char} : Digits a → Mantissa a
  | point {a b : List Char} : Digits a → Digits b → Mantissa (a ++ '.' :: b)

/-- What follows the digits of a decimal. -/
inductive Tail : List Char → Prop
  | nil : Tail []
  | exponent (exponent : Int) : Tail (exponentText exponent)

/-- A written decimal is a mantissa, with an exponent or without. -/
theorem writtenDigits_eq {a : List Char} (some : Digits a) (exponent : Int) :
    ∃ b x, Mantissa b ∧ Tail x ∧ writtenDigits a exponent = b ++ x := by
  rw [writtenDigits]
  split
  · obtain ⟨whole, decimals⟩ := some.positional exponent
    have rest : Digits (if (positional a exponent).2.isEmpty then ['0']
        else (positional a exponent).2) := by
      split
      · exact ⟨by simp, by simp⟩
      · next full => exact ⟨decimals, by simpa using full⟩
    exact ⟨_, [], .point whole rest, .nil, (List.append_nil _).symm⟩
  · match a with
    | [] => exact absurd rfl some.some
    | [c] => exact ⟨_, _, .whole some, .exponent exponent, rfl⟩
    | c :: d :: a =>
      obtain ⟨first, others⟩ := List.forall_mem_cons.mp some.digits
      have single : Digits [c] := ⟨by simpa using first, by simp⟩
      have rest : Digits (d :: a) := ⟨others, by simp⟩
      exact ⟨[c] ++ '.' :: d :: a, _, .point single rest, .exponent exponent, rfl⟩

/-- A mantissa begins with a digit, and consists of digits and points. -/
theorem Mantissa.exists_cons {a : List Char} (mantissa : Mantissa a) :
    ∃ c rest, a = c :: rest ∧ c.isDigit = true ∧ ∀ d ∈ rest, d.isDigit = true ∨ d = '.' := by
  cases mantissa with
  | whole digits =>
    obtain ⟨c, rest, rfl⟩ := List.exists_cons_of_ne_nil digits.some
    obtain ⟨first, others⟩ := List.forall_mem_cons.mp digits.digits
    exact ⟨c, rest, rfl, first, fun d member => .inl (others d member)⟩
  | @point a b digits decimals =>
    obtain ⟨c, rest, rfl⟩ := List.exists_cons_of_ne_nil digits.some
    obtain ⟨first, others⟩ := List.forall_mem_cons.mp digits.digits
    refine ⟨c, rest ++ '.' :: b, rfl, first, List.forall_mem_append.mpr ⟨?_, ?_⟩⟩
    · exact fun d member => .inl (others d member)
    · exact List.forall_mem_cons.mpr ⟨.inr rfl, fun d member => .inl (decimals.digits d member)⟩

theorem neutral_tail {a x : List Char} (some : Digits a) (tail : Tail x) : Neutral (a ++ x) := by
  cases tail with
  | nil =>
    rw [List.append_nil]
    exact some.neutral
  | exponent exponent => exact neutral_exponentText some exponent

theorem neutral_mantissa {a x : List Char} (mantissa : Mantissa a) (tail : Tail x) :
    Neutral (a ++ x) := by
  cases mantissa with
  | whole digits => exact neutral_tail digits tail
  | @point a b digits decimals =>
    have point : Neutral ['.'] := ⟨.of_all (by decide), by decide⟩
    have joined := digits.neutral.join (neutral_tail decimals tail) point (by decide) (by decide)
    simpa using joined

theorem neutral_written {x : Float} {negative : Bool} {mantissa : Nat} {exponent : Int}
    (finite : form x = .finite negative mantissa exponent) : Neutral (written x).toList := by
  have digits := Digits.shortestDigits mantissa exponent
  obtain ⟨b, after, ofDigits, tail, text⟩ :=
    writtenDigits_eq digits (shortestDigits mantissa exponent).2
  have neutral := neutral_mantissa ofDigits tail
  obtain ⟨c, rest, rfl, digit, _⟩ := ofDigits.exists_cons
  have other : c ≠ '-' := by
    rintro rfl
    exact absurd digit (by decide)
  rw [written, finite]
  dsimp only
  rw [text, signed, String.toList_ofList]
  split
  · exact neutral.minus other
  · exact neutral

/-- A finite number is written as an integer or as a decimal. -/
theorem number_finite {x : Float} {negative : Bool} {mantissa : Nat} {exponent : Int}
    (finite : form x = .finite negative mantissa exponent) :
    (∃ n, number x = integerText n) ∨ number x = written x := by
  rw [number, finite]
  dsimp only
  split
  · next n _ =>
    split
    · exact .inl ⟨n, rfl⟩
    · exact .inr rfl
  · exact .inr rfl

theorem neutral_number (x : Float) : Neutral (number x).toList := by
  cases found : form x with
  | notANumber =>
    have quotient : Neutral "(0/0)".toList := .of_chars (by decide) (by decide)
    rw [number, found]
    exact quotient
  | infinite negative =>
    have large : Neutral "math.huge".toList := .of_chars (by decide) (by decide)
    have small : Neutral "(-math.huge)".toList :=
      ⟨.cons (by decide) (.minus (by decide) (.of_all (by decide))), by decide⟩
    rw [number, found]
    cases negative with
    | false => exact large
    | true => exact small
  | finite negative mantissa exponent =>
    rcases number_finite found with ⟨n, text⟩ | text
    · rw [text]
      exact neutral_integerText n
    · rw [text]
      exact neutral_written found

end Landform.Lua
