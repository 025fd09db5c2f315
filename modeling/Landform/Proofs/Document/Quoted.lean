import Landform.Document.Block
import Landform.Document.Json
import Mathlib.Data.Nat.Basic
import Mathlib.Tactic.IntervalCases

/-!
# Texts between quotes

A text between double quotes, as JSON writes it, and a text between single quotes, as block layout
writes it, are read back by what reads quoted texts, whatever follows them.

1. `hexadecimal?_hex`: hexadecimal digits.
2. `doubleQuoted?_escapeChar`, `quotedText?_jsonText`: double quotes.
3. `quotedText?_single`: single quotes.
-/

namespace Landform.Document

open Text

/-! ## 1. Hexadecimal digits -/

theorem digitOf_digitChar {d : Nat} (small : d < 16) :
    digitOf d.digitChar = d ∧ (d.digitChar != '_') = true := by
  interval_cases d <;> decide

theorem valueIn_append_singleton {base : Nat} (digits : List Char) {c : Char}
    (digit : (c != '_') = true) :
    valueIn base (digits ++ [c]) = valueIn base digits * base + digitOf c := by
  simp [valueIn, List.filter_append, digit, List.foldl_append]

theorem toDigits_sixteen (n : Nat) : valueIn 16 (Nat.toDigits 16 n) = n ∧
    ∀ c ∈ Nat.toDigits 16 n, digitOf c < 16 := by
  induction n using Nat.strong_induction_on with
  | _ n ih =>
    rcases Nat.lt_or_ge n 16 with single | several
    · obtain ⟨value, digit⟩ := digitOf_digitChar single
      rw [Nat.toDigits_of_lt_base single]
      refine ⟨?_, List.forall_mem_singleton.mpr (by rwa [value])⟩
      rw [← List.nil_append [n.digitChar], valueIn_append_singleton [] digit, value]
      simp [valueIn]
    · obtain ⟨value, digits⟩ := ih (n / 16) (by omega)
      obtain ⟨last, digit⟩ := digitOf_digitChar (Nat.mod_lt n (by decide : 0 < 16))
      rw [Nat.toDigits_of_base_le (by decide) several]
      refine ⟨?_, List.forall_mem_append.mpr ⟨digits, List.forall_mem_singleton.mpr ?_⟩⟩
      · rw [valueIn_append_singleton _ digit, value, last]
        omega
      · rw [last]
        omega

/-- A number below `16 ^ 4` is written in four digits and read back from them. -/
theorem hexadecimal?_hex {n : Nat} (small : n < 65536) :
    ∃ a b c d, hex 4 n = [a, b, c, d] ∧ hexadecimal? [a, b, c, d] = some n := by
  obtain ⟨value, digits⟩ := toDigits_sixteen n
  have short : (Nat.toDigits 16 n).length ≤ 4 :=
    (Nat.length_toDigits_le_iff (by decide) (by decide)).mpr small
  have read : hexadecimal? (hex 4 n) = some n := by
    have zeros (count : Nat) : valueIn 16 (List.replicate count '0' ++ Nat.toDigits 16 n) = n := by
      induction count with
      | zero => exact value
      | succ count ih => exact ih
    unfold hexadecimal? hex
    rw [if_pos, zeros]
    refine List.all_eq_true.mpr
      (List.forall_mem_append.mpr ⟨fun c member => ?_, fun c member => ?_⟩)
    · rw [List.eq_of_mem_replicate member]
      decide
    · exact decide_eq_true (digits c member)
  have length : (hex 4 n).length = 4 := by
    simp only [hex, List.length_append, List.length_replicate]
    omega
  generalize hex 4 n = text at read length
  rcases text with _ | ⟨a, _ | ⟨b, _ | ⟨c, _ | ⟨d, _ | ⟨e, rest⟩⟩⟩⟩⟩ <;> cases length
  exact ⟨a, b, c, d, rfl, read⟩

/-! ## 2. Double quotes -/

theorem ofUnits_toNat (text : List Char) : ofUnits (text.map Char.toNat) = text := by
  induction text with
  | nil => rfl
  | cons c rest ih =>
    cases rest with
    | nil => simp [ofUnits]
    | cons d rest =>
      have valid : ¬ (55296 ≤ c.toNat ∧ c.toNat < 56320) := by
        have := c.valid
        show ¬ (55296 ≤ c.val.toNat ∧ c.val.toNat < 56320)
        rcases this with low | high
        · have : c.val.toNat < 55296 := low
          omega
        · have : 57343 < c.val.toNat := high.1
          omega
      rw [List.map_cons, List.map_cons, ofUnits, if_neg (by simp; omega), Char.ofNat_toNat]
      rw [List.map_cons] at ih
      rw [ih]

/-- A letter after a backslash. -/
theorem doubleQuoted?_letter {letter : Char} {unit : Nat}
    (short : escapes.find? (·.1 == letter) = some (letter, unit))
    (other : letter ∉ ['x', 'u', 'U']) (rest : List Char) :
    doubleQuoted? ('\\' :: letter :: rest) =
      (doubleQuoted? rest).map fun read => (unit :: read.1, read.2) := by
  rw [doubleQuoted?, short]
  · cases doubleQuoted? rest <;> rfl
  · rintro _ _ _ rfl
    simp at other
  · rintro _ _ _ _ _ rfl
    simp at other
  · rintro _ _ _ _ _ _ _ _ _ rfl
    simp at other

/-- A character that stands for itself. -/
theorem doubleQuoted?_plain {c : Char} (plain : c ∉ ['"', '\\', '\n']) (rest : List Char) :
    doubleQuoted? (c :: rest) =
      (doubleQuoted? rest).map fun read => (c.toNat :: read.1, read.2) := by
  simp only [List.mem_cons, List.not_mem_nil, or_false, not_or] at plain
  rw [doubleQuoted?]
  · cases doubleQuoted? rest <;> rfl
  all_goals simp [plain]

/-- A UTF-16 unit in hexadecimal digits. -/
theorem doubleQuoted?_unit {unit : Nat} (small : unit < 65536) (rest : List Char) :
    doubleQuoted? (Json.unitEscape unit ++ rest) =
      (doubleQuoted? rest).map fun read => (unit :: read.1, read.2) := by
  obtain ⟨a, b, c, d, text, read⟩ := hexadecimal?_hex small
  have shape : Json.unitEscape unit ++ rest = '\\' :: 'u' :: a :: b :: c :: d :: rest := by
    rw [Json.unitEscape, text]
    rfl
  rw [shape, doubleQuoted?, read]
  cases doubleQuoted? rest <;> rfl

/-- A character of a JSON text is read as its code. -/
theorem doubleQuoted?_escapeChar {c : Char} (small : c.toNat < 65536) (rest : List Char) :
    doubleQuoted? (Json.escapeChar c ++ rest) =
      (doubleQuoted? rest).map fun read => (c.toNat :: read.1, read.2) := by
  have eq_of_code {code : Nat} (same : (c.toNat == code) = true) : c = Char.ofNat code := by
    rw [← beq_iff_eq.mp same, Char.ofNat_toNat]
  unfold Json.escapeChar
  split
  · next quote =>
    rcases (by simpa using quote : c = '"' ∨ c = '\\') with rfl | rfl <;>
      exact doubleQuoted?_letter (by decide) (by decide) rest
  · next noQuote =>
    split
    · next same =>
      obtain rfl := beq_iff_eq.mp same
      exact doubleQuoted?_letter (by decide) (by decide) rest
    · next noFeed =>
      split
      · next same =>
        obtain rfl := beq_iff_eq.mp same
        exact doubleQuoted?_letter (by decide) (by decide) rest
      split
      · next same =>
        obtain rfl := beq_iff_eq.mp same
        exact doubleQuoted?_letter (by decide) (by decide) rest
      split
      · next same =>
        obtain rfl := eq_of_code same
        exact doubleQuoted?_letter (by decide) (by decide) rest
      split
      · next same =>
        obtain rfl := eq_of_code same
        exact doubleQuoted?_letter (by decide) (by decide) rest
      split
      · rw [Bool.or_eq_true, beq_iff_eq, beq_iff_eq, not_or] at noQuote
        rw [beq_iff_eq] at noFeed
        exact doubleQuoted?_plain (by simp [noQuote, noFeed]) rest
      · exact doubleQuoted?_unit small rest

/-- A JSON text is read back. -/
theorem quotedText?_jsonText {s : String} (small : ∀ c ∈ s.toList, c.toNat < 65536)
    (rest : List Char) : quotedText? ((Json.text s).toList ++ rest) = some (s, rest) := by
  have body (text : List Char) (small : ∀ c ∈ text, c.toNat < 65536) :
      doubleQuoted? (text.flatMap Json.escapeChar ++ '"' :: rest) =
        some (text.map Char.toNat, rest) := by
    induction text with
    | nil => rfl
    | cons c text ih =>
      obtain ⟨first, others⟩ := List.forall_mem_cons.mp small
      rw [List.flatMap_cons, List.append_assoc, doubleQuoted?_escapeChar first, ih others]
      rfl
  have text : (Json.text s).toList ++ rest =
      '"' :: (s.toList.flatMap Json.escapeChar ++ '"' :: rest) := by
    simp [Json.text]
  rw [text, quotedText?, body s.toList small]
  simp [ofUnits_toNat]

/-! ## 3. Single quotes -/

/-- A text between single quotes is read back. -/
theorem quotedText?_single {text : List Char} (oneLine : '\n' ∉ text) {rest : List Char}
    (ends : rest.head? ≠ some '\'') :
    quotedText? ('\'' :: (text.flatMap (fun c => if c == '\'' then ['\'', '\''] else [c]) ++
      '\'' :: rest)) = some (String.ofList text, rest) := by
  have body : singleQuoted? (text.flatMap (fun c => if c == '\'' then ['\'', '\''] else [c]) ++
      '\'' :: rest) = some (text, rest) := by
    induction text with
    | nil =>
      cases rest with
      | nil => rfl
      | cons d rest =>
        have other : d ≠ '\'' := fun same => ends (congrArg some same)
        rw [List.flatMap_nil, List.nil_append, singleQuoted?]
        rintro _ same
        exact other (List.cons.inj same).1
    | cons c text ih =>
      obtain ⟨first, others⟩ := List.ne_and_not_mem_of_not_mem_cons oneLine
      rw [List.flatMap_cons, List.append_assoc]
      by_cases quote : c = '\''
      · subst quote
        simp only [beq_self_eq_true, if_true, List.cons_append, List.nil_append]
        rw [singleQuoted?, ih others]
        rfl
      · rw [if_neg (by simpa using quote), List.singleton_append, singleQuoted?, ih others]
        · rfl
        all_goals simp [quote, Ne.symm first]
  rw [quotedText?, body]
  rfl

end Landform.Document
