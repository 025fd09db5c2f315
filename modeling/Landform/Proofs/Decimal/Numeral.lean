import Landform.Decimal.Written

/-!
# Numerals of integers

The text of an integer consists of digits after an optional minus sign, and different integers have
different texts.
-/

namespace Landform.Decimal

theorem natDigits_injective {m n : Nat} (same : natDigits m = natDigits n) : m = n := by
  have value := congrArg (Nat.ofDigitChars 10 · 0) same
  simpa [natDigits] using value

theorem isDigit_of_mem_natDigits {n : Nat} {c : Char} (member : c ∈ natDigits n) :
    c.isDigit = true :=
  Nat.isDigit_of_mem_toDigits (by decide) (by decide) member

theorem toList_integerText (n : Int) :
    (integerText n).toList = (if n < 0 then ['-'] else []) ++ natDigits n.natAbs := by
  unfold integerText
  split <;> simp

theorem mem_integerText {n : Int} {c : Char} (member : c ∈ (integerText n).toList) :
    c = '-' ∨ c.isDigit = true := by
  rw [toList_integerText, List.mem_append] at member
  rcases member with sign | digit
  · split at sign
    · exact .inl (List.mem_singleton.mp sign)
    · exact absurd sign List.not_mem_nil
  · exact .inr (isDigit_of_mem_natDigits digit)

/-- No digit is a minus sign, so the sign can be told from the text. -/
theorem minus_mem_integerText {n : Int} : '-' ∈ (integerText n).toList ↔ n < 0 := by
  have noDigit : '-' ∉ natDigits n.natAbs := fun member =>
    absurd (isDigit_of_mem_natDigits member) (by decide)
  rw [toList_integerText, List.mem_append]
  by_cases negative : n < 0
  · simp [negative]
  · simp [negative, noDigit]

theorem integerText_injective {m n : Int} (same : integerText m = integerText n) : m = n := by
  have signs : m < 0 ↔ n < 0 := by
    rw [← minus_mem_integerText, ← minus_mem_integerText, same]
  have digits : natDigits m.natAbs = natDigits n.natAbs := by
    have lists := congrArg String.toList same
    rw [toList_integerText, toList_integerText] at lists
    simpa only [signs, List.append_cancel_left_eq] using lists
  have := natDigits_injective digits
  omega

end Landform.Decimal
