import Landform.Proofs.Lua.Neutral

/-!
# Reading the literal of a text

A literal of Lua stands between double quotes. A backslash gives the character behind it another
meaning, a quote without one ends the literal, and a line feed or a carriage return that stands in
it as it is makes it no literal at all. What is written for a text reads as this text, with nothing
left over, unless it has a carriage return: this one is written as it is, so that no reader takes
the literal.

1. `readInside`, `readText?`: reading a literal.
2. `readInside_escapeChar`: one character.
3. `readText?_text`: all that is written.
4. `text_injective`: different texts have different literals.
5. `text_eq_replaced`: the characters replaced one after the other.
-/

namespace Landform.Lua

/-! ## 1. Reading -/

/-- What a character stands for behind a backslash. -/
def unescape? : Char → Option Char
  | '\\' => some '\\'
  | '"' => some '"'
  | 'n' => some '\n'
  | _ => none

/-- Whether a character may not stand in a literal as it is. -/
def isLineBreak (c : Char) : Bool :=
  c == '\n' || c == '\r'

/-- A character in front of what has been read. -/
def prepend (c : Char) (read : List Char × List Char) : List Char × List Char :=
  (c :: read.1, read.2)

/-- Reads from behind the opening quote: what the literal stands for, and what follows the quote
that closes it. -/
def readInside : List Char → Option (List Char × List Char)
  | [] => none
  | '"' :: rest => some ([], rest)
  | '\\' :: c :: rest => (unescape? c).bind fun meant => (readInside rest).map (prepend meant)
  | c :: rest => if isLineBreak c then none else (readInside rest).map (prepend c)

/-- What a text stands for that is one literal and nothing else. -/
def readText? (literal : String) : Option String :=
  match literal.toList with
  | '"' :: inside =>
    match readInside inside with
    | some (meant, []) => some (String.ofList meant)
    | _ => none
  | _ => none

/-! ## 2. One character -/

/-- A character that has a meaning to the reader is read as it is. -/
theorem readInside_plain {c : Char} (quote : c ≠ '"') (backslash : c ≠ '\\') (rest : List Char) :
    readInside (c :: rest) = if isLineBreak c then none else (readInside rest).map (prepend c) := by
  rw [readInside]
  · exact quote
  · rintro _ _ rfl
    exact absurd rfl backslash

/-- What is written for a character is read as this character; only a carriage return is not. -/
theorem readInside_escapeChar (c : Char) (rest : List Char) :
    readInside (escapeChar c ++ rest) =
      if c = '\r' then none else (readInside rest).map (prepend c) := by
  by_cases backslash : c = '\\'
  · subst backslash
    rfl
  by_cases quote : c = '"'
  · subst quote
    rfl
  by_cases feed : c = '\n'
  · subst feed
    rfl
  have plain : escapeChar c = [c] := by simp [escapeChar, backslash, quote, feed]
  rw [plain, List.singleton_append, readInside_plain quote backslash]
  simp [isLineBreak, feed]

theorem escapeChar_ne_nil (c : Char) : escapeChar c ≠ [] := by
  unfold escapeChar
  split_ifs <;> exact List.cons_ne_nil _ _

/-- What is written for a character tells it, whatever follows. -/
theorem escapeChar_append_inj {c d : Char} {rest rest' : List Char}
    (same : escapeChar c ++ rest = escapeChar d ++ rest') : c = d ∧ rest = rest' := by
  unfold escapeChar at same
  split_ifs at same <;> grind

/-! ## 3. All that is written -/

/-- What is written for a text ends at the quote behind it, whatever follows. -/
theorem readInside_written (s rest : List Char) :
    readInside (s.flatMap escapeChar ++ '"' :: rest) =
      if '\r' ∈ s then none else some (s, rest) := by
  induction s with
  | nil => rfl
  | cons c s ih =>
    rw [List.flatMap_cons, List.append_assoc, readInside_escapeChar, ih]
    by_cases first : c = '\r'
    · simp [first]
    · by_cases later : '\r' ∈ s
      · simp [later]
      · simp [first, later, Ne.symm first, prepend]

/-- The literal of a text reads as this text, as a whole, exactly if the text has no carriage
return; with one it is no literal. -/
theorem readText?_text (s : String) :
    readText? (text s) = if '\r' ∈ s.toList then none else some s := by
  simp only [readText?, toList_text, readInside_written]
  by_cases carriage : '\r' ∈ s.toList
  · simp [carriage]
  · simp [carriage]

/-- A line feed, and a backslash before the letter n. -/
example : text "\n\\n" = "\"\\n\\\\n\"" ∧ readText? "\"\\n\\\\n\"" = some "\n\\n" := by
  decide +kernel

/-- A carriage return is written as it is, and what is written for its text is no literal. -/
theorem carriageReturn_unread :
    text "a\rb" = "\"a\rb\"" ∧ readText? (text "a\rb") = none ∧
      readText? (text "a\rb") ≠ some "a\rb" := by
  decide +kernel

/-! ## 4. Different texts -/

theorem written_injective {s t : List Char} (same : s.flatMap escapeChar = t.flatMap escapeChar) :
    s = t := by
  induction s generalizing t with
  | nil =>
    cases t with
    | nil => rfl
    | cons d t => exact absurd (List.append_eq_nil_iff.mp same.symm).1 (escapeChar_ne_nil d)
  | cons c s ih =>
    cases t with
    | nil => exact absurd (List.append_eq_nil_iff.mp same).1 (escapeChar_ne_nil c)
    | cons d t =>
      rw [List.flatMap_cons, List.flatMap_cons] at same
      obtain ⟨rfl, others⟩ := escapeChar_append_inj same
      rw [ih others]

/-- Different texts have different literals, also where these cannot be read. -/
theorem text_injective {s t : String} (same : text s = text t) : s = t := by
  have lists := congrArg String.toList same
  simp only [toList_text, List.cons.injEq, List.append_cancel_right_eq, true_and] at lists
  exact String.toList_inj.mp (written_injective lists)

/-! ## 5. Replacements -/

/-- A text with each occurrence of one character replaced. -/
def replaced (c : Char) (replacement : String) (s : String) : String :=
  String.ofList (s.toList.flatMap fun d => if d = c then replacement.toList else [d])

/-- Escaping is three replacements, of which the backslashes come first: the later ones put in
backslashes of their own, and none of them puts in what the next one replaces. -/
theorem text_eq_replaced (s : String) :
    text s =
      "\"" ++ replaced '\n' "\\n" (replaced '"' "\\\"" (replaced '\\' "\\\\" s)) ++ "\"" := by
  have each (c : Char) : escapeChar c =
      ((if c = '\\' then ['\\', '\\'] else [c]).flatMap fun d =>
        if d = '"' then ['\\', '"'] else [d]).flatMap fun d =>
          if d = '\n' then ['\\', 'n'] else [d] := by
    by_cases backslash : c = '\\'
    · subst backslash
      rfl
    by_cases quote : c = '"'
    · subst quote
      rfl
    simp [escapeChar, backslash, quote]
  have all : s.toList.flatMap escapeChar = (replaced '\n' "\\n" (replaced '"' "\\\""
      (replaced '\\' "\\\\" s))).toList := by
    simp only [replaced, String.toList_ofList, List.flatMap_assoc]
    exact List.flatMap_congr fun c _ => (each c).trans (List.flatMap_assoc ..)
  rw [← String.toList_inj, toList_text, all]
  simp

end Landform.Lua
