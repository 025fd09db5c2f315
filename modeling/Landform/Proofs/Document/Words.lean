import Landform.Document.Block
import Landform.Document.Json
import Landform.Proofs.Decimal.Reading
import Landform.Proofs.Files

/-!
# Numbers as plain words

A number that is written as a plain word is read as that number. In JSON this leaves out the
infinities and the value that is no number: their names are texts.

1. `valueIn_digits`, `magnitudeOf?_natDigits`: rows of digits.
2. `plainValue_integerText`: integers.
3. `plainValue_numeral`: numerals, which are read as numbers with decimals.
4. `plainValue_numberText`, `plainValue_number`: doubles in block layout and in JSON.
-/

namespace Landform.Document

open Decimal Text
open Lua (Digits exponentText_eq natDigits_ne_nil)

/-! ## 1. Digits -/

theorem plainValue_of_isDigit {word : String} {c : Char} (member : c ∈ word.toList)
    (digit : c.isDigit = true) : plainValue word =
      match wholeWord? word.toList with
      | some n => .int n
      | none => match decimalWord? word.toList with
        | some x => .float x
        | none => .text word := by
  have other (words : List String)
      (none : (words.all fun word => !word.toList.any Char.isDigit) = true) :
      words.contains word = false := by
    refine Bool.eq_false_iff.mpr fun listed => ?_
    have := List.all_eq_true.mp none word (List.contains_iff_mem.mp listed)
    rw [List.any_eq_true.mpr ⟨c, member, digit⟩] at this
    cases this
  have nulls := other nullWords (by decide)
  have trues := other trueWords (by decide)
  have falses := other falseWords (by decide)
  unfold plainValue
  rw [nulls, trues, falses]
  rfl

/-- The first digit of a positive number is not zero. -/
theorem natDigits_pos {n : Nat} (pos : 0 < n) : ∃ c rest, natDigits n = c :: rest ∧ c ≠ '0' := by
  induction n using Nat.strong_induction_on with
  | _ n ih =>
    unfold natDigits at *
    rcases Nat.lt_or_ge n 10 with single | several
    · rw [Nat.toDigits_of_lt_base single]
      refine ⟨_, [], rfl, ?_⟩
      interval_cases n <;> decide
    · rw [Nat.toDigits_of_base_le (by decide) several]
      obtain ⟨c, rest, first, nonzero⟩ := ih (n / 10) (by omega) (by omega)
      exact ⟨c, rest ++ _, by rw [first]; rfl, nonzero⟩

theorem digitOf_digit {c : Char} (digit : c.isDigit = true) :
    digitOf c = c.toNat - 48 ∧ digitOf c < 10 := by
  have bounds := digit
  unfold digitOf
  rw [if_pos digit]
  simp only [Char.isDigit, Bool.and_eq_true, decide_eq_true_eq, ge_iff_le] at bounds
  have high : c.toNat ≤ 57 := UInt32.le_iff_toNat_le.mp bounds.2
  exact ⟨rfl, by omega⟩

theorem valueIn_digits {digits : List Char} (all : ∀ c ∈ digits, c.isDigit = true) :
    valueIn 10 digits = digitsValue 0 digits := by
  have kept : digits.filter (· != '_') = digits := by
    refine List.filter_eq_self.mpr fun c member => ?_
    have digit := all c member
    rw [bne_iff_ne]
    rintro rfl
    exact absurd digit (by decide)
  unfold valueIn
  rw [kept]
  generalize 0 = value
  induction digits generalizing value with
  | nil => rfl
  | cons c rest ih =>
    obtain ⟨digit, others⟩ := List.forall_mem_cons.mp all
    rw [List.foldl_cons, (digitOf_digit digit).1]
    refine ih others ?_ _
    exact List.filter_eq_self.mpr fun c member =>
      List.filter_eq_self.mp kept c (List.mem_cons_of_mem _ member)

theorem numberIn?_digits {digits : List Char} (row : Digits digits) :
    numberIn? 10 digits = some (digitsValue 0 digits) := by
  have all : digits.all (isDigitOf 10) = true := by
    refine List.all_eq_true.mpr fun c member => ?_
    simp [isDigitOf, (digitOf_digit (row.digits c member)).2]
  rw [numberIn?, all, valueIn_digits row.digits]
  simp [row.some]

/-- The digits of a natural number are read as that number. -/
theorem magnitudeOf?_natDigits (n : Nat) : magnitudeOf? (natDigits n) = some n := by
  rcases Nat.eq_zero_or_pos n with rfl | pos
  · decide
  have row := Digits.natDigits n
  have read : numberIn? 10 (natDigits n) = some n := by
    rw [numberIn?_digits row, digitsValue_natDigits]
  have colon : ':' ∉ natDigits n := fun member => absurd (row.digits _ member) (by decide)
  obtain ⟨c, rest, text, nonzero⟩ := natDigits_pos pos
  have digit := row.digits c (by rw [text]; exact List.mem_cons_self)
  rw [text] at read colon ⊢
  unfold magnitudeOf?
  split
  · next same => exact absurd (List.cons.inj same).1 nonzero
  · next same => exact absurd (List.cons.inj same).1 nonzero
  · next same => exact absurd (List.cons.inj same).1 nonzero
  · next same => exact absurd (List.cons.inj same).1 nonzero
  · rw [partsAt_of_notMem colon]
    simp [digit, read]

theorem splitSign_of_isDigit {c : Char} (digit : c.isDigit = true) (rest : List Char) :
    splitSign (c :: rest) = (false, c :: rest) := by
  unfold splitSign
  split
  · next same =>
    obtain ⟨rfl, -⟩ := List.cons.inj same
    exact absurd digit (by decide)
  · next same =>
    obtain ⟨rfl, -⟩ := List.cons.inj same
    exact absurd digit (by decide)
  · rfl

/-- An unsigned text that begins with a digit, with a minus sign or without, has its sign split
off. -/
theorem splitSign_signed {text : List Char} (first : ∃ c rest, text = c :: rest ∧ c.isDigit = true)
    (negative : Bool) : splitSign (signed negative text).toList = (negative, text) := by
  obtain ⟨c, rest, rfl, digit⟩ := first
  cases negative with
  | false => simpa [signed] using splitSign_of_isDigit digit rest
  | true => simp [signed, splitSign]

/-! ## 2. Integers -/

theorem integerText_eq_signed (n : Int) : integerText n = signed (n < 0) (natDigits n.natAbs) := by
  unfold integerText signed
  by_cases negative : n < 0 <;> simp [negative]

theorem exists_first {digits : List Char} (row : Digits digits) :
    ∃ c rest, digits = c :: rest ∧ c.isDigit = true := by
  obtain ⟨c, rest, rfl⟩ := List.exists_cons_of_ne_nil row.some
  exact ⟨c, rest, rfl, row.digits c List.mem_cons_self⟩

/-- An integer is read back. -/
theorem plainValue_integerText (n : Int) : plainValue (integerText n) = .int n := by
  obtain ⟨c, rest, text, digit⟩ := exists_first (Digits.natDigits n.natAbs)
  have member : c ∈ (integerText n).toList := by
    rw [toList_integerText, text]
    simp
  have whole : wholeWord? (integerText n).toList = some n := by
    rw [wholeWord?, integerText_eq_signed, splitSign_signed ⟨c, rest, text, digit⟩]
    dsimp only
    rw [magnitudeOf?_natDigits]
    refine congrArg some ?_
    dsimp only
    split
    · next negative =>
      have := of_decide_eq_true negative
      omega
    · next positive =>
      have := of_decide_eq_false (Bool.eq_false_iff.mpr positive)
      omega
  rw [plainValue_of_isDigit member digit, whole]

/-! ## 3. Numerals -/

section

variable {n : Numeral}

theorem mem_tail {c : Char} (member : c ∈ n.tail) : c.isDigit = true ∨ c ∈ ['e', '+', '-'] := by
  unfold Numeral.tail at member
  cases exponent : n.exponent with
  | none =>
    rw [exponent] at member
    cases member
  | some e =>
    obtain ⟨sign, signs, digits, row, text⟩ := exponentText_eq e
    rw [exponent, Option.elim_some, text, List.mem_cons, List.mem_cons] at member
    rcases member with rfl | rfl | digit
    · exact .inr List.mem_cons_self
    · exact .inr (List.mem_cons_of_mem _ signs)
    · exact .inl (row.digits c digit)

theorem mem_text (formed : n.WellFormed) {c : Char} (member : c ∈ n.text) :
    c.isDigit = true ∨ c ∈ ['.', 'e', '+', '-'] := by
  unfold Numeral.text Numeral.point at member
  rcases List.mem_append.mp member with whole | rest
  · exact .inl (formed.whole.digits c whole)
  rcases List.mem_append.mp rest with point | tail
  · cases decimals : n.decimals with
    | none =>
      rw [decimals] at point
      cases point
    | some digits =>
      rw [decimals, Option.elim_some] at point
      rcases List.mem_cons.mp point with rfl | digit
      · exact .inr List.mem_cons_self
      · exact .inl ((formed.decimals digits decimals).digits c digit)
  · exact (mem_tail tail).imp_right (List.mem_cons_of_mem _)

theorem notMem_text (formed : n.WellFormed) {c : Char} (digit : c.isDigit = false)
    (other : c ∉ ['.', 'e', '+', '-']) : c ∉ n.text := fun member =>
  (mem_text formed member).elim (by simp [digit]) other

theorem first_text (formed : n.WellFormed) : ∃ c rest, n.text = c :: rest ∧ c.isDigit = true := by
  obtain ⟨c, rest, whole, digit⟩ := exists_first formed.whole
  exact ⟨c, rest ++ (n.point ++ n.tail), by rw [Numeral.text, whole]; rfl, digit⟩

/-- A numeral holds a point or the letter of an exponent, which no integer holds. -/
theorem mark_mem_text (formed : n.WellFormed) : '.' ∈ n.text ∨ 'e' ∈ n.text := by
  unfold Numeral.text Numeral.point Numeral.tail
  rcases formed.some with decimals | exponent
  · obtain ⟨digits, given⟩ := Option.isSome_iff_exists.mp decimals
    simp [given]
  · obtain ⟨e, given⟩ := Option.isSome_iff_exists.mp exponent
    simp [given, exponentText]

theorem numberIn?_of_mem {base : Nat} (low : base ≤ 10) {digits : List Char}
    (mark : '.' ∈ digits ∨ 'e' ∈ digits) : numberIn? base digits = none := by
  have other : ∀ c ∈ ['.', 'e'], isDigitOf base c = false := by
    intro c member
    have high : (c == '_') = false ∧ 10 ≤ digitOf c := by
      rcases List.mem_pair.mp member with rfl | rfl <;> exact ⟨rfl, by decide⟩
    rw [isDigitOf, high.1, Bool.false_or, decide_eq_false_iff_not]
    have := high.2
    omega
  have fails : digits.all (isDigitOf base) = false := by
    refine List.all_eq_false.mpr ?_
    rcases mark with point | letter
    · exact ⟨_, point, by simp [other]⟩
    · exact ⟨_, letter, by simp [other]⟩
  rw [numberIn?, fails]
  simp

/-- A numeral is no integer. -/
theorem magnitudeOf?_text (formed : n.WellFormed) : magnitudeOf? n.text = none := by
  have mark := mark_mem_text formed
  have colon : ':' ∉ n.text := notMem_text formed (by decide) (by decide)
  have letterB : 'b' ∉ n.text := notMem_text formed (by decide) (by decide)
  have letterX : 'x' ∉ n.text := notMem_text formed (by decide) (by decide)
  generalize n.text = text at *
  unfold magnitudeOf?
  split
  · simp at letterB
  · simp at letterX
  · simp at mark
  · exact numberIn?_of_mem (by decide) (by simpa using mark)
  · rw [partsAt_of_notMem colon]
    dsimp only
    rw [numberIn?_of_mem (by decide) mark]
    simp

theorem isExponent_tail (n : Numeral) : isExponent true n.tail = true := by
  unfold Numeral.tail
  cases n.exponent with
  | none => rfl
  | some e =>
    obtain ⟨sign, signs, digits, row, text⟩ := exponentText_eq e
    have split : splitSign (sign :: digits) = (sign == '-', digits) := by
      rcases List.mem_pair.mp signs with rfl | rfl <;> rfl
    have all : digits.all Char.isDigit = true := List.all_eq_true.mpr row.digits
    simp [text, isExponent, split, all, row.some]

/-- Digits end before anything that is none and no underscore. -/
theorem dropWhile_digits {digits : List Char} (row : Digits digits) (rest : List Char)
    (ends : ∀ c ∈ rest.head?, (c.isDigit || c == '_') = false) :
    (digits ++ rest).dropWhile (fun c => c.isDigit || c == '_') = rest := by
  rw [List.dropWhile_append_of_pos fun c member => by simp [row.digits c member]]
  cases rest with
  | nil => rfl
  | cons c rest => rw [List.dropWhile_cons, ends c rfl]; rfl

theorem isDecimal_text (formed : n.WellFormed) : isDecimal n.text = true := by
  obtain ⟨-, head⟩ := n.tail_eq
  have ends : ∀ c ∈ n.tail.head?, (c.isDigit || c == '_') = false := fun c first => by
    rw [head c first]
    decide
  obtain ⟨c, rest, text, digit⟩ := first_text formed
  have start : (n.text.headD '_').isDigit = true := by rwa [text]
  have exponent := isExponent_tail n
  unfold isDecimal
  dsimp only
  rw [start, Bool.true_and]
  unfold Numeral.text Numeral.point
  cases decimals : n.decimals with
  | none =>
    obtain ⟨e, given⟩ := Option.isSome_iff_exists.mp
      (formed.some.resolve_left (by simp [decimals]))
    obtain ⟨rest, text⟩ : ∃ rest, n.tail = 'e' :: rest := ⟨_, by rw [Numeral.tail, given]; rfl⟩
    rw [Option.elim_none, List.nil_append, dropWhile_digits formed.whole n.tail ends]
    rw [text] at exponent ⊢
    simpa using exponent
  | some digits =>
    rw [Option.elim_some, List.cons_append,
      dropWhile_digits formed.whole _ (by rintro _ ⟨⟩; decide)]
    show isExponent true ((digits ++ n.tail).dropWhile fun c => c.isDigit || c == '_') = true
    rw [dropWhile_digits (formed.decimals digits decimals) n.tail ends, exponent]

/-- A signed numeral is read as the double that is nearest to it. -/
theorem plainValue_numeral (formed : n.WellFormed) {negative : Bool} {x : Float}
    (read : readDecimal? negative n.text = some x) :
    plainValue (signed negative n.text) = .float x := by
  have first := first_text formed
  have split := splitSign_signed first negative
  obtain ⟨c, rest, text, digit⟩ := first
  have member : c ∈ (signed negative n.text).toList := by
    rw [text]
    cases negative <;> simp [signed]
  have kept : n.text.filter (· != '_') = n.text := by
    refine List.filter_eq_self.mpr fun c member => ?_
    rw [bne_iff_ne]
    rintro rfl
    exact notMem_text formed (by decide) (by decide) member
  have whole : wholeWord? (signed negative n.text).toList = none := by
    rw [wholeWord?, split]
    dsimp only
    rw [magnitudeOf?_text formed]
    rfl
  have decimal : decimalWord? (signed negative n.text).toList = some x := by
    rw [decimalWord?, split]
    dsimp only
    rw [isDecimal_text formed, Bool.true_or, if_pos rfl, kept, read]
  rw [plainValue_of_isDigit member digit, whole, decimal]

end

/-! ## 4. Doubles -/

/-- A double as JSON has it: the infinities and the value that is no number become texts. -/
def wordOf (x : Float) : Value :=
  if isFinite x then .float x else .text (Json.number x)

theorem exists_written {x : Float} {negative : Bool} {mantissa : Nat} {exponent : Int}
    (finite : form x = .finite negative mantissa exponent) : ∃ n : Numeral, n.WellFormed ∧
      written x = signed negative n.text ∧ ∀ m : Numeral, m.WellFormed → m.value = n.value →
        plainValue (signed negative m.text) = .float x := by
  obtain ⟨n, formed, text, value⟩ :=
    exists_numeral (Digits.shortestDigits mantissa exponent) (shortestDigits mantissa exponent).2
  refine ⟨n, formed, ?_, fun m formed' same => ?_⟩
  · rw [written, finite, ← text]
  · exact plainValue_numeral formed' (readDecimal?_numeral finite formed' (same.trans value))

/-- A finite double in JSON. -/
theorem exists_number {x : Float} {negative : Bool} {mantissa : Nat} {exponent : Int}
    (finite : form x = .finite negative mantissa exponent) : ∃ n : Numeral, n.WellFormed ∧
      Json.number x = signed negative n.text ∧ plainValue (signed negative n.text) = .float x := by
  obtain ⟨n, formed, text, read⟩ := exists_written finite
  refine ⟨n, formed, ?_, read n formed rfl⟩
  rw [Json.number, finite]
  exact text

/-- A double in JSON is read back, or else its name is read as a text. -/
theorem plainValue_number (x : Float) : plainValue (Json.number x) = wordOf x := by
  unfold wordOf isFinite
  cases parts : form x with
  | notANumber =>
    rw [Json.number, parts]
    exact (by cbv : plainValue "NaN" = .text "NaN")
  | infinite negative =>
    rw [Json.number, parts]
    cases negative with
    | false => exact (by cbv : plainValue "Infinity" = .text "Infinity")
    | true => exact (by cbv : plainValue "-Infinity" = .text "-Infinity")
  | finite negative mantissa exponent =>
    obtain ⟨n, formed, text, read⟩ := exists_number parts
    rw [text, read]
    rfl

/-- The text of a number with a point before its exponent. -/
def withPoint (text : List Char) : List Char :=
  if text.contains '.' then text
  else text.flatMap fun c => if c == 'e' then ['.', '0', 'e'] else [c]

theorem numberText_finite {x : Float} {negative : Bool} {mantissa : Nat} {exponent : Int}
    (finite : form x = .finite negative mantissa exponent) :
    numberText x = withPoint (written x).toList := by
  rw [numberText, finite]
  rfl

theorem withPoint_exponent {a b : List Char} (before : ∀ c ∈ a, c ∉ ['.', 'e'])
    (after : ∀ c ∈ b, c ∉ ['.', 'e']) :
    withPoint (a ++ 'e' :: b) = a ++ '.' :: '0' :: 'e' :: b := by
  have unchanged {part : List Char} (all : ∀ c ∈ part, c ∉ ['.', 'e']) :
      (part.flatMap fun c => if c == 'e' then ['.', '0', 'e'] else [c]) = part := by
    induction part with
    | nil => rfl
    | cons c rest ih =>
      obtain ⟨first, others⟩ := List.forall_mem_cons.mp all
      rw [List.flatMap_cons, if_neg (by simpa using fun same => first (by simp [same])), ih others]
      rfl
  have point : (a ++ 'e' :: b).contains '.' = false := by
    refine Bool.eq_false_iff.mpr fun found => ?_
    rcases List.mem_append.mp (List.contains_iff_mem.mp found) with member | member
    · exact before _ member List.mem_cons_self
    · exact after _ (List.mem_of_ne_of_mem (by decide) member) List.mem_cons_self
  rw [withPoint, point, if_neg Bool.false_ne_true, List.flatMap_append, List.flatMap_cons,
    unchanged before, unchanged after]
  rfl

/-- The point before an exponent leaves the number as it is. -/
theorem exists_withPoint {n : Numeral} (formed : n.WellFormed) : ∃ m : Numeral, m.WellFormed ∧
    m.value = n.value ∧
      ∀ negative, withPoint (signed negative n.text).toList = (signed negative m.text).toList := by
  have toList (negative : Bool) (text : List Char) :
      (signed negative text).toList = (if negative then ['-'] else []) ++ text := by
    cases negative <;> simp [signed]
  cases decimals : n.decimals with
  | some digits =>
    refine ⟨n, formed, rfl, fun negative => if_pos ?_⟩
    rw [toList, Numeral.text, Numeral.point, decimals]
    simp
  | none =>
    obtain ⟨e, exponent⟩ := Option.isSome_iff_exists.mp
      (formed.some.resolve_left (by simp [decimals]))
    refine ⟨{ n with decimals := some ['0'] }, ⟨formed.whole, ?_, .inl rfl⟩, ?_, fun negative => ?_⟩
    · rintro _ ⟨⟩
      exact ⟨by simp, by simp⟩
    · rw [Numeral.value, Numeral.value, Numeral.digits, Numeral.digits, Numeral.last, Numeral.last,
        decimals]
      simpa using value_append_zeros n.whole 1 (n.exponent.getD 0)
    · obtain ⟨sign, signs, digits, row, tail⟩ := exponentText_eq e
      have digit {c : Char} (digit : c.isDigit = true) : c ∉ ['.', 'e'] := by
        rintro mark
        rcases List.mem_pair.mp mark with rfl | rfl <;> exact absurd digit (by decide)
      have before : ∀ c ∈ (if negative then ['-'] else []) ++ n.whole, c ∉ ['.', 'e'] :=
        List.forall_mem_append.mpr
          ⟨by cases negative <;> simp, fun c member => digit (formed.whole.digits c member)⟩
      have after : ∀ c ∈ sign :: digits, c ∉ ['.', 'e'] := by
        refine List.forall_mem_cons.mpr ⟨?_, fun c member => digit (row.digits c member)⟩
        rcases List.mem_pair.mp signs with rfl | rfl <;> decide
      have split := withPoint_exponent before after
      rw [toList, toList]
      simpa [Numeral.text, Numeral.point, Numeral.tail, decimals, exponent, tail] using split

/-- A finite double in block layout. -/
theorem exists_numberText {x : Float} {negative : Bool} {mantissa : Nat} {exponent : Int}
    (finite : form x = .finite negative mantissa exponent) : ∃ n : Numeral, n.WellFormed ∧
      numberText x = (signed negative n.text).toList ∧
        plainValue (signed negative n.text) = .float x := by
  obtain ⟨n, formed, text, read⟩ := exists_written finite
  obtain ⟨m, formed', value', pointed⟩ := exists_withPoint formed
  exact ⟨m, formed', by rw [numberText_finite finite, text, pointed], read m formed' value'⟩

/-- A double in block layout is read back. -/
theorem plainValue_numberText (x : Float) :
    plainValue (String.ofList (numberText x)) = .float x := by
  cases parts : form x with
  | notANumber =>
    rw [numberText, parts, eq_of_notANumber parts]
    have same : (0 / 0 : Float) = notANumber := eq_of_toBits (by decide +kernel)
    rw [same]
    exact (by cbv : plainValue ".nan" = .float notANumber)
  | infinite negative =>
    rw [numberText, parts, eq_of_infinite parts]
    cases negative with
    | false => exact (by cbv : plainValue ".inf" = .float infinity)
    | true => exact (by cbv : plainValue "-.inf" = .float (-infinity))
  | finite negative mantissa exponent =>
    obtain ⟨n, formed, text, read⟩ := exists_numberText parts
    rw [text, String.ofList_toList, read]

end Landform.Document
