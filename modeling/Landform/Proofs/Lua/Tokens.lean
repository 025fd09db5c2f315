import Landform.Decimal.Read
import Landform.Proofs.Lua.Grammar
import Landform.Proofs.Lua.Neutral

/-!
# From text to tokens

A text is cut into tokens from left to right, each as long as it can be. A numeral takes in digits
and points, a mark of an exponent with its sign, and any word characters behind it, and has to read
as a decimal as a whole. Two points and two minus signs in a row are tokens that no number
expression has: the second one begins a comment.

1. `Lexeme`, `scan`, `parse?`: cutting a text.
2. `Lexes.append`, `Lexes.sign`: texts put together.
3. `Name.lexes`, `Name.field`: names.
4. `Numeral`, `numeral_writtenDigits`: numerals.
-/

namespace Landform.Lua

open Decimal

/-! ## 1. Cutting a text -/

/-- The words that are no names. -/
def keywords : List String :=
  ["and", "break", "do", "else", "elseif", "end", "false", "for", "function", "goto", "if", "in",
    "local", "nil", "not", "or", "repeat", "return", "then", "true", "until", "while"]

/-- Whether a character can stand in a name. -/
def isNameChar (c : Char) : Bool :=
  c.isAlphanum || c == '_'

/-- Whether a text reads as a decimal. -/
def isDecimal (text : List Char) : Bool :=
  (readDecimal? false text).isSome

/-- A token whose end has not been seen yet, with its text. -/
inductive Lexeme where
  | blank
  | word (text : List Char)
  /-- The digits and points of a numeral. -/
  | digits (text : List Char)
  /-- A numeral up to the mark of its exponent. -/
  | mark (text : List Char)
  /-- A numeral with what follows the mark. -/
  | exponent (text : List Char)
  | sign (c : Char)
  /-- No token of a number expression. -/
  | foreign
deriving DecidableEq

namespace Lexeme

/-- What a character begins. -/
def begin (c : Char) : Lexeme :=
  if c.isWhitespace then blank
  else if c.isDigit then digits [c]
  else if isNameChar c then word [c]
  else if "+-*/^().,".toList.contains c then sign c
  else foreign

/-- Takes a further character in, if it belongs to the token. -/
def extend? : Lexeme → Char → Option Lexeme
  | word text, c => if isNameChar c then some (word (text ++ [c])) else none
  | digits text, c =>
    if c.isDigit || c == '.' then some (digits (text ++ [c]))
    else if c == 'e' || c == 'E' then some (mark (text ++ [c]))
    else if isNameChar c then some (exponent (text ++ [c]))
    else none
  | mark text, c =>
    if c == '+' || c == '-' || isNameChar c then some (exponent (text ++ [c])) else none
  | exponent text, c => if isNameChar c then some (exponent (text ++ [c])) else none
  | sign '.', c =>
    if c.isDigit then some (digits ['.', c]) else if c == '.' then some foreign else none
  | sign '-', c => if c == '-' then some foreign else none
  | _, _ => none

/-- The token that has been read; a blank is none. -/
def tokens? : Lexeme → Option (List Token)
  | blank => some []
  | word text =>
    if keywords.contains (String.ofList text) then none else some [.word (String.ofList text)]
  | digits text | mark text | exponent text =>
    if isDecimal text then some [.numeral (String.ofList text)] else none
  | sign c => some [.sign c]
  | foreign => none

end Lexeme

/-- The tokens of a text behind the beginning of a token. -/
def scan (l : Lexeme) : List Char → Option (List Token)
  | [] => l.tokens?
  | c :: rest =>
    match l.extend? c with
    | some longer => scan longer rest
    | none => do
      let first ← l.tokens?
      let others ← scan (.begin c) rest
      return first ++ others

/-- The tokens of a text. -/
def tokens? (text : String) : Option (List Token) :=
  scan .blank text.toList

/-- The tree of a text that is one expression. -/
def parse? (text : String) : Option Tree :=
  (tokens? text).bind treeOf?

/-- A text is parsed as the tree that fits and has its tokens. -/
theorem parse?_eq_some {text : String} {t : Tree} :
    parse? text = some t ↔ t.Fits ∧ tokens? text = some t.tokens := by
  constructor
  · intro parsed
    obtain ⟨tokens, cut, read⟩ := Option.bind_eq_some_iff.mp parsed
    obtain ⟨fits, rfl⟩ := treeOf?_eq_some.mp read
    exact ⟨fits, cut⟩
  · rintro ⟨fits, cut⟩
    rw [parse?, cut]
    exact treeOf?_eq_some.mpr ⟨fits, rfl⟩

/-- A power binds more tightly than the sign before it, and the sign than a product. -/
example : parse? "a - -b^2 * 3" = some (.binary (.arithmetic .subtract) (.name "a")
    (.binary (.arithmetic .multiply) (.negate (.binary .power (.name "b") (.numeral "2")))
      (.numeral "3"))) := by
  rfl

theorem scan_extend {l longer : Lexeme} {c : Char} (taken : l.extend? c = some longer)
    (rest : List Char) : scan l (c :: rest) = scan longer rest := by
  rw [scan, taken]

theorem scan_blank_cons (c : Char) (rest : List Char) :
    scan .blank (c :: rest) = scan (.begin c) rest := by
  have step : scan .blank (c :: rest) = (scan (.begin c) rest).bind some := rfl
  rw [step, Option.bind_fun_some]

/-- Where nothing more belongs to a token, it is complete. -/
theorem scan_complete {l : Lexeme} {ts : List Token} (complete : l.tokens? = some ts)
    {rest : List Char} (ends : ∀ c ∈ rest.head?, l.extend? c = none) :
    scan l rest = (scan .blank rest).map (ts ++ ·) := by
  cases rest with
  | nil =>
    rw [scan, scan, complete]
    simp [Lexeme.tokens?]
  | cons c rest =>
    rw [scan_blank_cons, scan, ends c rfl, complete]
    cases scan (.begin c) rest <;> rfl

/-- Takes in one character after the other. -/
def Lexeme.extendAll? (l : Lexeme) (text : List Char) : Option Lexeme :=
  text.foldlM extend? l

theorem scan_extendAll {l longer : Lexeme} {a : List Char} (taken : l.extendAll? a = some longer)
    (rest : List Char) : scan l (a ++ rest) = scan longer rest := by
  induction a generalizing l with
  | nil =>
    cases taken
    rfl
  | cons c a ih =>
    obtain ⟨next, first, others⟩ := Option.bind_eq_some_iff.mp taken
    rw [List.cons_append, scan_extend first, ih others]

/-- A kind of token takes in the characters that belong to it. -/
theorem extendAll?_of_forall (kind : List Char → Lexeme) {belongs : Char → Prop}
    (step : ∀ text c, belongs c → (kind text).extend? c = some (kind (text ++ [c])))
    {a : List Char} (all : ∀ c ∈ a, belongs c) (text : List Char) :
    (kind text).extendAll? a = some (kind (text ++ a)) := by
  induction a generalizing text with
  | nil => rw [List.append_nil]; rfl
  | cons c a ih =>
    obtain ⟨first, others⟩ := List.forall_mem_cons.mp all
    rw [Lexeme.extendAll?, List.foldlM_cons, step text c first]
    refine (ih others (text ++ [c])).trans ?_
    rw [List.append_assoc, List.singleton_append]

/-! ## 2. Texts put together -/

/-- A text begins with nothing that continues a name or a numeral. -/
def Detached (text : List Char) : Prop :=
  ∀ c ∈ text.head?, isNameChar c = false ∧ c ≠ '.'

theorem detached_cons {c : Char} (other : isNameChar c = false ∧ c ≠ '.') (rest : List Char) :
    Detached (c :: rest) := by
  rintro _ ⟨⟩
  exact other

theorem Detached.append {a b : List Char} (first : Detached a) (second : Detached b) :
    Detached (a ++ b) := by
  cases a with
  | nil => exact second
  | cons c a => exact first

theorem map_append_map (ts us : List Token) (others : Option (List Token)) :
    (others.map (us ++ ·)).map (ts ++ ·) = others.map (ts ++ us ++ ·) := by
  cases others with
  | none => rfl
  | some vs => exact congrArg some (List.append_assoc ts us vs).symm

/-- A text has the given tokens, whatever follows that is detached from it. -/
def Lexes (a : List Char) (ts : List Token) : Prop :=
  ∀ rest, Detached rest → scan .blank (a ++ rest) = (scan .blank rest).map (ts ++ ·)

namespace Lexes

variable {a b : List Char} {ts us : List Token}

theorem tokens?_eq {text : String} (lexes : Lexes text.toList ts) : tokens? text = some ts := by
  have read := lexes [] (by rintro _ ⟨⟩)
  rw [List.append_nil] at read
  simpa [tokens?, scan, Lexeme.tokens?] using read

theorem nil : Lexes [] [] := by
  intro rest _
  simp

theorem append (first : Lexes a ts) (second : Lexes b us) (gap : Detached b) :
    Lexes (a ++ b) (ts ++ us) := by
  intro rest detached
  rw [List.append_assoc, first _ (gap.append detached), second rest detached, map_append_map]

theorem blank (rest : Lexes b us) : Lexes (' ' :: b) us := by
  intro more detached
  rw [List.cons_append, scan_blank_cons]
  exact rest more detached

/-- A sign is a token where nothing behind it belongs to it. -/
theorem of_sign {c : Char} (begins : Lexeme.begin c = .sign c)
    (ends : ∀ more, ∀ d ∈ (b ++ more).head?, (Lexeme.sign c).extend? d = none)
    (rest : Lexes b us) : Lexes (c :: b) (.sign c :: us) := by
  intro more detached
  rw [List.cons_append, scan_blank_cons, begins, scan_complete rfl (ends more), rest more detached,
    map_append_map]
  rfl

/-- The signs that are tokens whatever follows them. -/
theorem sign {c : Char} (plain : c ∈ ['+', '*', '/', '^', '(', ')', ',']) (rest : Lexes b us) :
    Lexes (c :: b) (.sign c :: us) := by
  have known : Lexeme.begin c = .sign c ∧ ∀ d, (Lexeme.sign c).extend? d = none := by
    simp only [List.mem_cons, List.not_mem_nil, or_false] at plain
    rcases plain with rfl | rfl | rfl | rfl | rfl | rfl | rfl <;> exact ⟨by decide, fun _ => rfl⟩
  exact rest.of_sign known.1 fun _ d _ => known.2 d

/-- A minus sign is a token unless another one follows. -/
theorem minus {d : Char} (other : d ≠ '-') (rest : Lexes (d :: b) us) :
    Lexes ('-' :: d :: b) (.sign '-' :: us) := by
  refine rest.of_sign (by decide) ?_
  rintro more _ ⟨⟩
  exact if_neg (by simpa using other)

end Lexes

/-! ## 3. Names -/

/-- The text of a name. -/
structure Name (a : List Char) : Prop where
  letters : a.all isNameChar = true
  start : a.head?.any (fun c => !c.isDigit) = true
  free : keywords.contains (String.ofList a) = false

theorem not_isWhitespace {c : Char} (letter : isNameChar c = true) : c.isWhitespace = false := by
  refine Bool.eq_false_iff.mpr fun blank => ?_
  simp only [Char.isWhitespace, Bool.or_eq_true, decide_eq_true_eq] at blank
  rcases blank with ((rfl | rfl) | rfl) | rfl <;> exact absurd letter (by decide)

namespace Name

variable {a b : List Char}

theorem exists_cons (name : Name a) :
    ∃ c rest, a = c :: rest ∧ isNameChar c = true ∧ c.isDigit = false := by
  obtain ⟨letters, start, _⟩ := name
  cases a with
  | nil => cases start
  | cons c rest =>
    exact ⟨c, rest, rfl, List.all_eq_true.mp letters c List.mem_cons_self, by simpa using start⟩

theorem scan_eq (name : Name a) (rest : List Char) :
    scan .blank (a ++ rest) = scan (.word a) rest := by
  obtain ⟨c, more, rfl, first, start⟩ := name.exists_cons
  have begins : Lexeme.begin c = .word [c] := by
    rw [Lexeme.begin, if_neg (by simp [not_isWhitespace first]), if_neg (by simp [start]),
      if_pos first]
  have others : ∀ d ∈ more, isNameChar d = true := fun d member =>
    List.all_eq_true.mp name.letters d (List.mem_cons_of_mem _ member)
  have taken : (Lexeme.word [c]).extendAll? more = some (.word (c :: more)) :=
    extendAll?_of_forall .word (fun _ _ letter => if_pos letter) others [c]
  rw [List.cons_append, scan_blank_cons, begins, scan_extendAll taken]

theorem tokens?_word (name : Name a) :
    (Lexeme.word a).tokens? = some [.word (String.ofList a)] :=
  if_neg (ne_true_of_eq_false name.free)

theorem lexes (name : Name a) : Lexes a [.word (String.ofList a)] := by
  intro rest detached
  rw [name.scan_eq]
  exact scan_complete name.tokens?_word fun c head =>
    if_neg (ne_true_of_eq_false (detached c head).1)

/-- A field of a name. The point is a token of its own, since no digit follows. -/
theorem field (name : Name a) (member : Name b) :
    Lexes (a ++ '.' :: b) [.word (String.ofList a), .sign '.', .word (String.ofList b)] := by
  obtain ⟨c, more, same, first, start⟩ := member.exists_cons
  have other : c ≠ '.' := by
    rintro rfl
    exact absurd first (by decide)
  -- a digit behind the point would begin a numeral with it
  have tail : Lexes ('.' :: b) [.sign '.', .word (String.ofList b)] := by
    refine member.lexes.of_sign (by decide) fun rest d head => ?_
    rw [same] at head
    cases head
    rw [Lexeme.extend?, if_neg (ne_true_of_eq_false start), if_neg (by simpa using other)]
  intro rest detached
  have ends : ∀ d ∈ ('.' :: b ++ rest).head?, (Lexeme.word a).extend? d = none := by
    rintro _ ⟨⟩
    rfl
  rw [List.append_assoc, name.scan_eq, scan_complete name.tokens?_word ends, tail rest detached,
    map_append_map]
  rfl

end Name

/-! ## 4. Numerals -/

/-- The text of an unsigned numeral. -/
structure Numeral (a : List Char) : Prop where
  head : a.head?.any Char.isDigit = true
  lexes : Lexes a [.numeral (String.ofList a)]

theorem isNameChar_of_isDigit {c : Char} (digit : c.isDigit = true) : isNameChar c = true := by
  simp [isNameChar, Char.isAlphanum, digit]

/-- Nothing that is detached from a numeral belongs to it. -/
theorem extend?_detached {c : Char} (other : isNameChar c = false ∧ c ≠ '.') (a : List Char) :
    (Lexeme.digits a).extend? c = none ∧ (Lexeme.exponent a).extend? c = none := by
  have digit : c.isDigit = false := Bool.eq_false_iff.mpr fun digit => by
    rw [isNameChar_of_isDigit digit] at other
    cases other.1
  have mark : c ≠ 'e' ∧ c ≠ 'E' := by
    constructor <;>
      · rintro rfl
        exact absurd other.1 (by decide)
  constructor
  · rw [Lexeme.extend?, if_neg (by simp [digit, other.2]), if_neg (by simp [mark]),
      if_neg (by simp [other.1])]
  · exact if_neg (by simp [other.1])

theorem Tail.head {a : List Char} (tail : Tail a) : ∀ c ∈ a.head?, c = 'e' := by
  cases tail with
  | nil =>
    rintro _ ⟨⟩
  | exponent exponent =>
    rintro _ ⟨⟩
    rfl

theorem Tail.exponentOf? {a : List Char} (tail : Tail a) : (exponentOf? a).isSome = true := by
  cases tail with
  | nil => rfl
  | exponent exponent =>
    obtain ⟨sign, signs, a, digits, text⟩ := exponentText_eq exponent
    have split : splitSign (sign :: a) = (sign == '-', a) := by
      rcases List.mem_pair.mp signs with rfl | rfl <;> rfl
    have all : a.all Char.isDigit = true := List.all_eq_true.mpr digits.digits
    simp [text, Decimal.exponentOf?, split, all, digits.some]

/-- Characters of a kind end before anything that is not of it. -/
theorem span_append {p : Char → Bool} {a : List Char} (all : ∀ c ∈ a, p c = true)
    (rest : List Char) (ends : ∀ c ∈ rest.head?, p c = false) :
    (a ++ rest).takeWhile p = a ∧ (a ++ rest).dropWhile p = rest := by
  rw [List.takeWhile_append_of_pos all, List.dropWhile_append_of_pos all]
  cases rest with
  | nil => simp
  | cons c rest =>
    have other := ends c rfl
    simp [other]

theorem Digits.span {a : List Char} (digits : Digits a) (rest : List Char)
    (ends : ∀ c ∈ rest.head?, c.isDigit = false) :
    (a ++ rest).takeWhile Char.isDigit = a ∧ (a ++ rest).dropWhile Char.isDigit = rest :=
  span_append digits.digits rest ends

theorem isDecimal_append {a x : List Char} (mantissa : Mantissa a) (tail : Tail x) :
    isDecimal (a ++ x) = true := by
  have ends : ∀ c ∈ x.head?, c.isDigit = false := fun c head => by
    rw [tail.head c head]
    decide
  obtain ⟨exponent, found⟩ := Option.isSome_iff_exists.mp tail.exponentOf?
  cases mantissa with
  | whole digits =>
    obtain ⟨taken, left⟩ := digits.span x ends
    rw [isDecimal, readDecimal?, taken, left]
    cases x with
    | nil => simp [found, digits.some]
    | cons c x =>
      cases tail.head c rfl
      simp [found, digits.some]
  | @point a b first second =>
    obtain ⟨taken, left⟩ := first.span ('.' :: (b ++ x)) (by rintro _ ⟨⟩; decide)
    obtain ⟨taken', left'⟩ := second.span x ends
    rw [isDecimal, readDecimal?, List.append_assoc, List.cons_append, taken, left]
    simp [taken', left', found, first.some]

theorem extendAll?_append {l longer : Lexeme} {a : List Char}
    (taken : l.extendAll? a = some longer) (b : List Char) :
    l.extendAll? (a ++ b) = longer.extendAll? b := by
  unfold Lexeme.extendAll? at taken ⊢
  rw [List.foldlM_append, taken]
  rfl

/-- A numeral ends as digits or as an exponent. -/
theorem extendAll?_tail {x : List Char} (tail : Tail x) (a : List Char) :
    (Lexeme.digits a).extendAll? x = some (.digits (a ++ x)) ∨
      (Lexeme.digits a).extendAll? x = some (.exponent (a ++ x)) := by
  cases tail with
  | nil =>
    left
    rw [List.append_nil]
    rfl
  | exponent exponent =>
    right
    obtain ⟨sign, signs, b, digits, text⟩ := exponentText_eq exponent
    -- the sign is taken in only right behind the mark
    have marked : (Lexeme.digits a).extendAll? ['e', sign] =
        some (.exponent (a ++ ['e', sign])) := by
      rcases List.mem_pair.mp signs with rfl | rfl <;> simp [Lexeme.extendAll?, Lexeme.extend?]
    have taken : (Lexeme.exponent (a ++ ['e', sign])).extendAll? b =
        some (.exponent (a ++ ['e', sign] ++ b)) :=
      extendAll?_of_forall .exponent (fun _ _ digit => if_pos (isNameChar_of_isDigit digit))
        digits.digits _
    have whole := (extendAll?_append marked b).trans taken
    rw [List.append_assoc] at whole
    rw [text]
    exact whole

/-- A mantissa with what follows it is one numeral. -/
theorem numeral_append {a x : List Char} (mantissa : Mantissa a) (tail : Tail x) :
    Numeral (a ++ x) := by
  have decimal := isDecimal_append mantissa tail
  obtain ⟨c, rest, rfl, digit, others⟩ := mantissa.exists_cons
  have begins : Lexeme.begin c = .digits [c] := by
    rw [Lexeme.begin, if_neg (by simp [not_isWhitespace (isNameChar_of_isDigit digit)]),
      if_pos digit]
  have taken : (Lexeme.digits [c]).extendAll? rest = some (.digits (c :: rest)) :=
    extendAll?_of_forall .digits (fun _ _ part => if_pos (by simpa using part)) others [c]
  refine ⟨digit, fun more detached => ?_⟩
  rw [List.append_assoc, List.cons_append, scan_blank_cons, begins, scan_extendAll taken]
  rcases extendAll?_tail tail (c :: rest) with whole | whole
  · have complete : (Lexeme.digits (c :: rest ++ x)).tokens? = _ := if_pos decimal
    rw [scan_extendAll whole]
    exact scan_complete complete fun d head => (extend?_detached (detached d head) _).1
  · have complete : (Lexeme.exponent (c :: rest ++ x)).tokens? = _ := if_pos decimal
    rw [scan_extendAll whole]
    exact scan_complete complete fun d head => (extend?_detached (detached d head) _).2

theorem Digits.numeral {a : List Char} (digits : Digits a) : Numeral a := by
  have numeral := numeral_append (.whole digits) .nil
  rwa [List.append_nil] at numeral

theorem numeral_writtenDigits {a : List Char} (some : Digits a) (exponent : Int) :
    Numeral (writtenDigits a exponent) := by
  obtain ⟨b, x, mantissa, tail, text⟩ := writtenDigits_eq some exponent
  rw [text]
  exact numeral_append mantissa tail

end Landform.Lua
