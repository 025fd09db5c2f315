import Landform.Proofs.Decimal.Shortest
import Landform.Proofs.Lua.Tokens

/-!
# Written doubles read back

A written double falls into digits, digits after a point and an exponent (`Numeral`). The number
that these parts tell is the number of the shortest decimal of the double, which rounds to the
double again.

1. `digitsValue_eq`, `exists_dropZeros`: the number of a row of digits.
2. `Numeral.readDecimal?_text`: what a numeral is read as.
3. `exists_numeral`: a written decimal is a numeral, and tells the number it was written for.
4. `readDecimal?_numeral`: whatever tells the shortest decimal of a double is read as the double.
-/

namespace Landform.Decimal

open Lua (Digits exponentText_eq Tail)

-- Powers are those of the core library, whatever other instances are around.
attribute [local instance (5000)] instPowNat

/-! ## 1. Rows of digits -/

theorem digitsValue_eq (value : Nat) (digits : List Char) :
    digitsValue value digits = Nat.ofDigitChars 10 digits value := by
  induction digits generalizing value with
  | nil => rfl
  | cons c digits ih =>
    refine (ih _).trans ?_
    rw [Nat.ofDigitChars_cons, Nat.mul_comm]
    rfl

theorem digitsValue_natDigits (n : Nat) : digitsValue 0 (natDigits n) = n := by
  rw [digitsValue_eq]
  simp [natDigits]

theorem digitsValue_append_zeros (digits : List Char) (count : Nat) :
    digitsValue 0 (digits ++ List.replicate count '0') = digitsValue 0 digits * 10 ^ count := by
  simp only [digitsValue_eq, Nat.ofDigitChars_append, Nat.ofDigitChars_replicate_zero]
  rw [Nat.mul_comm]

theorem digitsValue_zeros_append (digits : List Char) (count : Nat) :
    digitsValue 0 (List.replicate count '0' ++ digits) = digitsValue 0 digits := by
  simp [digitsValue_eq, Nat.ofDigitChars_append, Nat.ofDigitChars_replicate_zero]

theorem exists_dropZeros (digits : List Char) :
    ∃ count, digits = dropZeros digits ++ List.replicate count '0' := by
  have zeros : digits.reverse.takeWhile (· == '0') =
      List.replicate (digits.reverse.takeWhile (· == '0')).length '0' :=
    List.eq_replicate_of_mem fun c member => by simpa using List.mem_takeWhile_imp member
  have parts : digits = (digits.reverse.dropWhile (· == '0')).reverse ++
      (digits.reverse.takeWhile (· == '0')).reverse := by
    rw [← List.reverse_append, List.takeWhile_append_dropWhile, List.reverse_reverse]
  rw [zeros, List.reverse_replicate] at parts
  unfold dropZeros
  split
  · next none =>
    rw [none, List.nil_append] at parts
    rw [parts, List.take_replicate]
    generalize (digits.reverse.takeWhile (· == '0')).length = length
    refine ⟨length - min 1 length, ?_⟩
    rw [← List.replicate_add]
    exact congrArg (List.replicate · '0') (by omega)
  · exact ⟨_, parts⟩

/-! ## 2. Numerals -/

/-- A decimal in parts: digits, further digits after a point, and an exponent. -/
structure Numeral where
  whole : List Char
  decimals : Option (List Char)
  exponent : Option Int

namespace Numeral

variable {n : Numeral}

/-- What follows the digits before the point. -/
def point (n : Numeral) : List Char :=
  n.decimals.elim [] ('.' :: ·)

/-- What follows all digits. -/
def tail (n : Numeral) : List Char :=
  n.exponent.elim [] exponentText

def text (n : Numeral) : List Char :=
  n.whole ++ (n.point ++ n.tail)

def digits (n : Numeral) : List Char :=
  n.whole ++ n.decimals.getD []

/-- The exponent of the last digit. -/
def last (n : Numeral) : Int :=
  n.exponent.getD 0 - (n.decimals.getD []).length

/-- The number that a numeral tells. -/
def value (n : Numeral) : Rat :=
  digitsValue 0 n.digits * 10 ^ n.last

/-- A numeral as it is written: digits before the point and after it, and no mere digits. -/
structure WellFormed (n : Numeral) : Prop where
  whole : Digits n.whole
  decimals : ∀ digits ∈ n.decimals, Digits digits
  some : n.decimals.isSome = true ∨ n.exponent.isSome = true

theorem exponentOf?_exponentText (exponent : Int) :
    exponentOf? (exponentText exponent) = some exponent := by
  have digits : ∃ count, exponentText exponent = 'e' :: (if exponent < 0 then '-' else '+') ::
      (List.replicate count '0' ++ natDigits exponent.natAbs) := by
    unfold exponentText
    by_cases short : (natDigits exponent.natAbs).length < 2
    · exact ⟨1, by simp [short]⟩
    · exact ⟨0, by simp [short]⟩
  obtain ⟨count, text⟩ := digits
  have all : (List.replicate count '0' ++ natDigits exponent.natAbs).all Char.isDigit = true := by
    refine List.all_eq_true.mpr (List.forall_mem_append.mpr
      ⟨fun c member => ?_, fun c => isDigit_of_mem_natDigits⟩)
    rw [List.eq_of_mem_replicate member]
    decide
  have split : splitSign ((if exponent < 0 then '-' else '+') ::
      (List.replicate count '0' ++ natDigits exponent.natAbs)) =
      (decide (exponent < 0), List.replicate count '0' ++ natDigits exponent.natAbs) := by
    by_cases negative : exponent < 0 <;> simp [negative, splitSign]
  have filled : (List.replicate count '0' ++ natDigits exponent.natAbs).isEmpty = false := by
    simp [Lua.natDigits_ne_nil]
  rw [text, exponentOf?]
  simp only [beq_self_eq_true, Bool.true_or, if_true, split, filled, all, Bool.not_true,
    Bool.or_self, Bool.false_eq_true, if_false]
  rw [digitsValue_zeros_append, digitsValue_natDigits]
  refine congrArg some ?_
  split
  · next negative =>
    have := of_decide_eq_true negative
    omega
  · next positive =>
    have := of_decide_eq_false (Bool.eq_false_iff.mpr positive)
    omega

theorem tail_eq (n : Numeral) : exponentOf? n.tail = some (n.exponent.getD 0) ∧
    ∀ c ∈ n.tail.head?, c = 'e' := by
  unfold tail
  cases n.exponent with
  | none => exact ⟨rfl, by rintro _ ⟨⟩⟩
  | some exponent => exact ⟨exponentOf?_exponentText exponent, (Tail.exponent exponent).head⟩

/-- A numeral is read as the double nearest to its number. -/
theorem readDecimal?_text (formed : n.WellFormed) (negative : Bool) :
    readDecimal? negative n.text = some (ofDecimal negative (digitsValue 0 n.digits) n.last) := by
  obtain ⟨read, head⟩ := n.tail_eq
  have ends : ∀ c ∈ n.tail.head?, c.isDigit = false := fun c first => by
    rw [head c first]
    decide
  unfold text point digits last readDecimal?
  cases decimals : n.decimals with
  | none =>
    obtain ⟨exponent, given⟩ : ∃ exponent, n.exponent = some exponent :=
      Option.isSome_iff_exists.mp (formed.some.resolve_left (by simp [decimals]))
    obtain ⟨rest, text⟩ : ∃ rest, n.tail = 'e' :: rest := ⟨_, by rw [tail, given]; rfl⟩
    obtain ⟨taken, left⟩ := formed.whole.span n.tail ends
    simp only [Option.elim_none, List.nil_append, Option.getD_none, List.append_nil, taken, left]
    rw [text] at read ⊢
    simp [formed.whole.some, read]
  | some decimal =>
    have digits := formed.decimals decimal decimals
    obtain ⟨taken, left⟩ := formed.whole.span ('.' :: (decimal ++ n.tail)) (by rintro _ ⟨⟩; decide)
    obtain ⟨taken', left'⟩ := digits.span n.tail ends
    simp only [Option.elim_some, List.cons_append, Option.getD_some, taken, left, taken', left']
    simp [formed.whole.some, read]

end Numeral

/-! ## 3. Written decimals -/

theorem value_append_zeros (digits : List Char) (count : Nat) (exponent : Int) :
    (digitsValue 0 (digits ++ List.replicate count '0') : Rat) * 10 ^ (exponent - count) =
      digitsValue 0 digits * 10 ^ exponent := by
  rw [digitsValue_append_zeros, zpow_sub₀ (by norm_num)]
  push_cast
  field_simp
  rw [zpow_natCast]

/-- Digits around a point tell the number whose first digit has the given exponent. -/
theorem positional_value (digits : List Char) (exponent : Int) :
    (digitsValue 0 ((positional digits exponent).1 ++ (positional digits exponent).2) : Rat) *
        10 ^ (-((positional digits exponent).2.length : Int)) =
      digitsValue 0 digits * 10 ^ (exponent + 1 - digits.length) := by
  unfold positional
  split
  · next small =>
    dsimp only
    have zeros : ['0'] ++ (List.replicate (-exponent - 1).toNat '0' ++ digits) =
        List.replicate ((-exponent - 1).toNat + 1) '0' ++ digits := rfl
    rw [zeros, digitsValue_zeros_append, List.length_append, List.length_replicate]
    congr 2
    push_cast
    omega
  · next large =>
    dsimp only
    rcases Nat.lt_or_ge (exponent.toNat + 1) digits.length with longer | shorter
    · rw [show exponent.toNat + 1 - digits.length = 0 by omega, List.replicate_zero,
        List.append_nil, List.take_append_drop, List.length_drop]
      congr 2
      omega
    · rw [List.take_of_length_le shorter, List.drop_of_length_le shorter, List.append_nil,
        List.length_nil, ← value_append_zeros digits (exponent.toNat + 1 - digits.length)]
      congr 2
      omega

/-- A written decimal is a numeral, and tells the number whose first digit has the given
exponent. -/
theorem exists_numeral {digits : List Char} (row : Digits digits) (exponent : Int) :
    ∃ n : Numeral, n.WellFormed ∧ writtenDigits digits exponent = n.text ∧
      n.value = digitsValue 0 digits * 10 ^ (exponent + 1 - digits.length) := by
  unfold writtenDigits
  split
  · obtain ⟨whole, decimals⟩ := row.positional exponent
    have value := positional_value digits exponent
    dsimp only
    generalize (positional digits exponent).1 = whole' at *
    generalize (positional digits exponent).2 = decimals' at *
    cases decimals' with
    | nil =>
      refine ⟨⟨whole', some ['0'], none⟩, ⟨whole, ?_, .inl rfl⟩, ?_, ?_⟩
      · rintro _ ⟨⟩
        exact ⟨by simp, by simp⟩
      · simp [Numeral.text, Numeral.point, Numeral.tail]
      · rw [← value, List.append_nil, ← value_append_zeros whole' 1]
        rfl
    | cons d rest =>
      refine ⟨⟨whole', some (d :: rest), none⟩, ⟨whole, ?_, .inl rfl⟩, ?_, ?_⟩
      · rintro _ ⟨⟩
        exact ⟨decimals, by simp⟩
      · simp [Numeral.text, Numeral.point, Numeral.tail]
      · rw [← value]
        simp [Numeral.value, Numeral.digits, Numeral.last]
  · rcases digits with _ | ⟨c, _ | ⟨d, rest⟩⟩
    · exact absurd rfl row.some
    · refine ⟨⟨[c], none, some exponent⟩, ⟨row, ?_, .inr rfl⟩, rfl, ?_⟩
      · rintro _ ⟨⟩
      · simp [Numeral.value, Numeral.digits, Numeral.last]
    · obtain ⟨first, others⟩ := List.forall_mem_cons.mp row.digits
      refine ⟨⟨[c], some (d :: rest), some exponent⟩,
        ⟨⟨by simpa using first, by simp⟩, ?_, .inl rfl⟩, rfl, ?_⟩
      · rintro _ ⟨⟩
        exact ⟨others, by simp⟩
      · simp only [Numeral.value, Numeral.digits, Numeral.last, Option.getD_some,
          List.singleton_append, List.length_cons]
        congr 2
        push_cast
        omega

/-! ## 4. Doubles -/

theorem shortestDigits_value {mantissa : Nat} (pos : 0 < mantissa) (exponent : Int) :
    (digitsValue 0 (shortestDigits mantissa exponent).1 : Rat) *
        10 ^ ((shortestDigits mantissa exponent).2 + 1 -
          (shortestDigits mantissa exponent).1.length) =
      (shortest mantissa exponent).value := by
  unfold shortestDigits
  rw [if_neg (by simpa using pos.ne')]
  dsimp only
  generalize shortest mantissa exponent = s
  obtain ⟨count, parts⟩ := exists_dropZeros (natDigits s.digits)
  have length := congrArg List.length parts
  rw [List.length_append, List.length_replicate] at length
  rw [← value_append_zeros _ count, ← parts, digitsValue_natDigits, Scientific.value, length]
  congr 2
  push_cast
  omega

/-- A numeral that tells the shortest decimal of a double is read as the double. -/
theorem readDecimal?_numeral {x : Float} {negative : Bool} {mantissa : Nat} {exponent : Int}
    (finite : form x = .finite negative mantissa exponent) {n : Numeral} (formed : n.WellFormed)
    (value : n.value = digitsValue 0 (shortestDigits mantissa exponent).1 *
      10 ^ ((shortestDigits mantissa exponent).2 + 1 -
        (shortestDigits mantissa exponent).1.length)) :
    readDecimal? negative n.text = some x := by
  obtain ⟨canonical, same⟩ := eq_of_finite finite
  rw [n.readDecimal?_text formed, same]
  refine congrArg _ ?_
  rcases Nat.eq_zero_or_pos mantissa with rfl | pos
  · have none : digitsValue 0 (shortestDigits 0 exponent).1 = 0 := rfl
    rw [none, Nat.cast_zero, zero_mul, Numeral.value] at value
    have zero : digitsValue 0 n.digits = 0 := by
      exact_mod_cast (mul_eq_zero.mp value).resolve_right (by positivity)
    rw [zero]
    rfl
  · refine ofDecimal_of_near pos canonical ?_
    have near := near_shortest pos canonical
    rwa [← shortestDigits_value pos, ← value] at near

end Landform.Decimal
