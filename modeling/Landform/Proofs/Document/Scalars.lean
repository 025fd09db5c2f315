import Landform.Proofs.Document.Quoted
import Landform.Proofs.Document.Words

/-!
# Values without lines of their own

A text whose characters are those of plain words is written without quotes or between single quotes,
and is read back as that text, as a value and as the name of a field. Every other value that needs
no line of its own is written as one word or as a pair of brackets.

1. `IsWord`: texts made of plain words.
2. `Unquoted`: texts that stand without quotes.
3. `Atom`, `Title`: the content of a line with a value, and the name of a field before its colon.
4. `atom_textOf`, `title_textOf`: texts as they are written.
5. `Simple`: words without marks.
6. `simple_number`, `simple_numberText`: numbers.
7. `Plain`, `atom_scalarOf`: values on one line.
-/

namespace Landform.Document

open Decimal Text

/-! ## 1. Plain words -/

/-- A character of a plain word: one that is written as it is and has a single UTF-16 unit. The two
characters that stand for references and gaps in settings are left out. -/
def isWordChar (c : Char) : Bool :=
  !needsEscape c && c.toNat < 65536 && c != '$' && c != '?'

/-- A text that consists of plain words. -/
def IsWord (s : String) : Prop :=
  ∀ c ∈ s.toList, isWordChar c = true

instance (s : String) : Decidable (IsWord s) :=
  decidable_of_iff (s.toList.all isWordChar = true) List.all_eq_true

namespace IsWord

variable {s : String}

theorem needsEscape_eq (word : IsWord s) : s.toList.any needsEscape = false := by
  refine List.any_eq_false.mpr fun c member => ?_
  have := word c member
  simp only [isWordChar, Bool.and_eq_true, Bool.not_eq_true'] at this
  simp [this.1.1.1]

theorem toNat_lt (word : IsWord s) : ∀ c ∈ s.toList, c.toNat < 65536 := by
  intro c member
  have := word c member
  simp only [isWordChar, Bool.and_eq_true, decide_eq_true_eq] at this
  exact this.1.1.2

theorem oneLine (word : IsWord s) : '\n' ∉ s.toList :=
  fun member => absurd (word _ member) (by decide)

end IsWord

/-! ## 2. Texts without quotes -/

theorem trimEnd_eq_self {text : List Char} (last : text.getLast?.any isSpace = false) :
    trimEnd text = text := by
  unfold trimEnd
  rw [← List.head?_reverse] at last
  generalize back : text.reverse = reversed at last ⊢
  have same : text = reversed.reverse := by rw [← back, List.reverse_reverse]
  rw [same]
  cases reversed with
  | nil => rfl
  | cons c rest =>
    have other : isSpace c = false := last
    rw [List.dropWhile_cons, other]
    rfl

theorem skipSpace_eq_self {text : List Char} (first : text.head?.any isSpace = false) :
    skipSpace text = text := by
  cases text with
  | nil => rfl
  | cons c rest =>
    have other : isSpace c = false := first
    rw [skipSpace, List.dropWhile_cons, other]
    rfl

theorem quotedText?_eq_none {text : List Char} (head : text.head?.any isIndicator = false) :
    quotedText? text = none := by
  unfold quotedText?
  split
  · cases head
  · cases head
  · rfl

/-- A text that is read as one plain word. -/
structure Unquoted (text : List Char) : Prop where
  filled : text ≠ []
  head : text.head?.any isIndicator = false
  first : text.head?.any isSpace = false
  last : text.getLast?.any isSpace = false
  unmarked : hasMark true text = false
  oneLine : '\n' ∉ text

/-- What a plain word ends at: the end of the line, or the colon after a name. -/
def Closes (rest : List Char) : Prop :=
  rest = [] ∨ ∃ after, rest = ':' :: after ∧ isBreak after = true

/-- A text without marks is taken as a whole. -/
theorem wordSplit_append {rest : List Char} (closes : Closes rest) (text : List Char)
    (afterSpace : Bool) (unmarked : hasMark afterSpace text = false) (oneLine : '\n' ∉ text) :
    wordSplit false afterSpace (text ++ rest) = (text, rest) := by
  induction text generalizing afterSpace with
  | nil =>
    rcases closes with rfl | ⟨after, rfl, gap⟩
    · rfl
    · rw [List.nil_append, wordSplit, if_pos (by simp [gap])]
  | cons c text ih =>
    obtain ⟨first, others⟩ := List.ne_and_not_mem_of_not_mem_cons oneLine
    rw [hasMark, Bool.or_eq_false_iff, Bool.or_eq_false_iff] at unmarked
    obtain ⟨⟨colon, comment⟩, later⟩ := unmarked
    -- what follows a colon is no break, also when the text ends there
    have colon' : (c == ':' && isBreak (text ++ rest)) = false := by
      cases text with
      | nil =>
        have other : (c == ':') = false := by simpa [isBreak] using colon
        rw [other, Bool.false_and]
      | cons d text => exact colon
    rw [List.cons_append, wordSplit, if_neg (by simp [Ne.symm first, comment, colon']),
      ih _ later others]

namespace Unquoted

variable {text : List Char}

theorem head_append (unquoted : Unquoted text) (rest : List Char) :
    (text ++ rest).head? = text.head? := by
  cases text with
  | nil => exact absurd rfl unquoted.filled
  | cons c text => rfl

theorem key?_append (unquoted : Unquoted text) {rest : List Char} (closes : Closes rest) :
    key? false (text ++ rest) = some (String.ofList text, rest) := by
  have head := unquoted.head
  rw [← unquoted.head_append rest] at head
  unfold key? plainWord?
  rw [quotedText?_eq_none head, head,
    wordSplit_append closes text true unquoted.unmarked unquoted.oneLine]
  simp only [Bool.false_and, Bool.false_eq_true, if_false, trimEnd_eq_self unquoted.last]
  rfl

theorem valueOf?_eq (unquoted : Unquoted text) :
    valueOf? text = some (plainValue (String.ofList text)) := by
  have head := unquoted.head
  have split := wordSplit_append (.inl rfl) text true unquoted.unmarked unquoted.oneLine
  rw [List.append_nil] at split
  unfold valueOf?
  rw [skipSpace_eq_self unquoted.first]
  split
  · cases head
  · cases head
  · unfold plainWord?
    rw [quotedText?_eq_none head, head, split]
    simp only [Bool.false_and, Bool.false_eq_true, if_false, trimEnd_eq_self unquoted.last]
    rfl

end Unquoted

/-! ## 3. Contents of lines -/

/-- The content of a line as it is written: without spaces at its ends, and no comment. -/
structure Settled (content : List Char) : Prop where
  filled : content ≠ []
  first : content.head?.any (fun c => isSpace c || c == '#') = false
  last : content.getLast?.any isSpace = false
  oneLine : '\n' ∉ content

/-- A content that starts no item. -/
def NoItem (content : List Char) : Prop :=
  content.head? = some '-' → isBreak (content.drop 1) = false

theorem Line.isItem_eq_false {line : Line} (noItem : NoItem line.content) :
    line.isItem = false := by
  unfold Line.isItem
  split
  · next rest content =>
    rw [NoItem, content] at noItem
    exact noItem rfl
  · rfl

theorem NoItem.append {a : List Char} (filled : a ≠ []) (noItem : NoItem a) (b : List Char) :
    NoItem (a ++ b) := by
  rcases a with _ | ⟨c, _ | ⟨d, a⟩⟩
  · exact absurd rfl filled
  · intro dash
    exact absurd (noItem dash) (by simp [isBreak])
  · exact noItem

/-- The content of a line that holds a value and nothing else. -/
structure Atom (content : List Char) (value : Value) : Prop extends Settled content where
  noItem : NoItem content
  noField : ∀ indent, (Line.mk indent content).field? = none
  read : valueOf? content = some value

/-- A text before the colon that ends the name of a field. -/
structure Title (content : List Char) (name : String) : Prop extends Settled content where
  noItem : NoItem content
  noBracket : ∀ c ∈ content.head?, c ≠ '[' ∧ c ≠ '\x7b'
  read : ∀ rest, isBreak rest = true →
    key? false (content ++ ':' :: rest) = some (name, ':' :: rest)

namespace Unquoted

variable {text : List Char}

theorem noBracket (unquoted : Unquoted text) : ∀ c ∈ text.head?, c ≠ '[' ∧ c ≠ '\x7b' := by
  intro c head
  have indicator := unquoted.head
  rw [Option.mem_def.mp head] at indicator
  constructor <;> rintro rfl <;> cases indicator

theorem settled (unquoted : Unquoted text) : Settled text where
  filled := unquoted.filled
  first := by
    have first := unquoted.first
    have unmarked := unquoted.unmarked
    cases text with
    | nil => rfl
    | cons c text =>
      rw [hasMark, Bool.or_eq_false_iff, Bool.or_eq_false_iff] at unmarked
      have comment : (c == '#') = false := by simpa using unmarked.1.2
      have space : isSpace c = false := first
      simp [space, comment]
  last := unquoted.last
  oneLine := unquoted.oneLine

/-- No name ends within a text without marks. -/
theorem noField (unquoted : Unquoted text) (indent : Nat) :
    (Line.mk indent text).field? = none := by
  have key := unquoted.key?_append (.inl rfl)
  rw [List.append_nil] at key
  unfold Line.field?
  dsimp only
  split
  · rfl
  · rfl
  · rw [key]
    rfl

theorem atom (unquoted : Unquoted text) (noItem : NoItem text) :
    Atom text (plainValue (String.ofList text)) :=
  { unquoted.settled with
    noItem := noItem
    noField := unquoted.noField
    read := unquoted.valueOf?_eq }

theorem title (unquoted : Unquoted text) (noItem : NoItem text) :
    Title text (String.ofList text) :=
  { unquoted.settled with
    noItem := noItem
    noBracket := unquoted.noBracket
    read := fun rest gap => unquoted.key?_append (.inr ⟨rest, rfl, gap⟩) }

end Unquoted

/-! ## 4. Texts -/

/-- A text between single quotes. -/
def singleQuotes (text : List Char) : List Char :=
  '\'' :: (text.flatMap (fun c => if c == '\'' then ['\'', '\''] else [c]) ++ ['\''])

theorem settled_singleQuotes {text : List Char} (oneLine : '\n' ∉ text) :
    Settled (singleQuotes text) where
  filled := List.cons_ne_nil _ _
  first := rfl
  last := by
    rw [singleQuotes, ← List.cons_append, List.getLast?_concat]
    rfl
  oneLine := by
    have inner : '\n' ∉ text.flatMap fun c => if c == '\'' then ['\'', '\''] else [c] := by
      intro member
      obtain ⟨c, listed, inside⟩ := List.mem_flatMap.mp member
      split at inside
      · simp at inside
      · exact oneLine (List.mem_singleton.mp inside ▸ listed)
    intro member
    rcases List.mem_append.mp (List.mem_of_ne_of_mem (by decide) member) with inside | closing
    · exact inner inside
    · simp at closing

theorem quotedText?_singleQuotes {text : List Char} (oneLine : '\n' ∉ text) (rest : List Char)
    (ends : rest.head? ≠ some '\'') :
    quotedText? (singleQuotes text ++ rest) = some (String.ofList text, rest) := by
  have shape : singleQuotes text ++ rest =
      '\'' :: (text.flatMap (fun c => if c == '\'' then ['\'', '\''] else [c]) ++
        '\'' :: rest) := by
    simp [singleQuotes]
  rw [shape, quotedText?_single oneLine ends]

theorem atom_singleQuotes {text : List Char} (oneLine : '\n' ∉ text) :
    Atom (singleQuotes text) (.text (String.ofList text)) := by
  have quoted := quotedText?_singleQuotes oneLine [] (by simp)
  rw [List.append_nil] at quoted
  refine { settled_singleQuotes oneLine with noItem := ?_, noField := fun indent => ?_, read := ?_ }
  · rintro ⟨⟩
  · have key : key? false (singleQuotes text) = some (String.ofList text, []) := by
      rw [key?, quoted]
      rfl
    unfold Line.field?
    dsimp only
    split
    · rfl
    · rfl
    · rw [key]
      rfl
  · unfold valueOf?
    rw [skipSpace_eq_self (by rfl)]
    split
    · next same => cases same
    · next same => cases same
    · rw [quoted]
      rfl

theorem title_singleQuotes {text : List Char} (oneLine : '\n' ∉ text) :
    Title (singleQuotes text) (String.ofList text) := by
  refine { settled_singleQuotes oneLine with
    noItem := ?_, noBracket := ?_, read := fun rest gap => ?_ }
  · rintro ⟨⟩
  · rintro c ⟨⟩
    decide
  · rw [key?, quotedText?_singleQuotes oneLine _ (by simp)]
    rfl

theorem eq_of_plainValue {word s : String} (text : plainValue word = .text s) : s = word := by
  unfold plainValue at text
  split at text
  · cases text
  split at text
  · cases text
  split at text
  · cases text
  split at text
  · cases text
  split at text
  · cases text
  · cases text
    rfl

theorem plainValue_of_clear {s : String} (clear : isAmbiguous s = false) :
    plainValue s = .text s := by
  simp only [isAmbiguous, Bool.or_eq_false_iff] at clear
  obtain ⟨⟨⟨⟨text, -⟩, -⟩, -⟩, -⟩ := clear
  split at text
  · next t value => rw [value, eq_of_plainValue value]
  · cases text

/-- A plain text stands between single quotes, or without quotes if it is read as that text. -/
theorem textOf_cases {s : String} (word : IsWord s) : textOf s = singleQuotes s.toList ∨
    textOf s = s.toList ∧ Unquoted s.toList ∧ NoItem s.toList ∧ plainValue s = .text s := by
  unfold textOf
  dsimp only
  rw [if_neg (by simp [word.needsEscape_eq])]
  split
  · exact .inl rfl
  · next unmarked =>
    right
    rw [Bool.or_eq_true, not_or, Bool.not_eq_true, Bool.not_eq_true] at unmarked
    obtain ⟨unmarked, clear⟩ := unmarked
    have plain := plainValue_of_clear clear
    unfold isMarked at unmarked
    simp only [Bool.or_eq_false_iff] at unmarked
    obtain ⟨⟨⟨⟨⟨-, head⟩, first⟩, last⟩, item⟩, marks⟩ := unmarked
    refine ⟨rfl, ⟨?_, head, first, last, marks, word.oneLine⟩, fun dash => ?_, plain⟩
    · intro none
      rw [String.toList_eq_nil_iff.mp none] at plain
      cases plain
    · rw [dash] at item
      simpa using item

/-- A plain text is read back as a value. -/
theorem atom_textOf {s : String} (word : IsWord s) : Atom (textOf s) (.text s) := by
  rcases textOf_cases word with text | ⟨text, unquoted, noItem, plain⟩
  · have atom := atom_singleQuotes word.oneLine
    rwa [← text, String.ofList_toList] at atom
  · have atom := unquoted.atom noItem
    rwa [String.ofList_toList, plain, ← text] at atom

/-- A plain text is read back as the name of a field. -/
theorem title_textOf {s : String} (word : IsWord s) : Title (textOf s) s := by
  rcases textOf_cases word with text | ⟨text, unquoted, noItem, plain⟩
  · have title := title_singleQuotes word.oneLine
    rwa [← text, String.ofList_toList] at title
  · have title := unquoted.title noItem
    rwa [String.ofList_toList, ← text] at title

/-! ## 5. Words without marks -/

/-- A character without a meaning of its own, wherever it stands. -/
def isSimple (c : Char) : Bool :=
  !isSpace c && !isIndicator c && c != ':' && c != '#'

/-- A word of simple characters that is no hyphen. -/
structure Simple (text : List Char) : Prop where
  filled : text ≠ []
  chars : ∀ c ∈ text, isSimple c = true
  dash : text ≠ ['-']

instance (text : List Char) : Decidable (Simple text) :=
  decidable_of_iff (text ≠ [] ∧ text.all isSimple = true ∧ text ≠ ['-'])
    ⟨fun ⟨filled, chars, dash⟩ => ⟨filled, List.all_eq_true.mp chars, dash⟩,
      fun simple => ⟨simple.filled, List.all_eq_true.mpr simple.chars, simple.dash⟩⟩

theorem ne_of_isSimple {c d : Char} (simple : isSimple c = true) (other : isSimple d = false) :
    c ≠ d := by
  rintro rfl
  rw [simple] at other
  cases other

theorem isSimple_of_isDigit {c : Char} (digit : c.isDigit = true) : isSimple c = true := by
  have other {d : Char} (none : d.isDigit = false) : c ≠ d := by
    rintro rfl
    rw [digit] at none
    cases none
  have space : isSpace c = false := by simp [isSpace, other]
  have indicator : isIndicator c = false := by
    unfold isIndicator
    refine Bool.eq_false_iff.mpr fun found => ?_
    have none : (",[]\x7b\x7d&*!|>'\"%@`".toList.all fun d => !d.isDigit) = true := by decide
    have := List.all_eq_true.mp none c (List.contains_iff_mem.mp found)
    rw [digit] at this
    cases this
  rw [isSimple, space, indicator]
  simp [other]

namespace Simple

variable {text : List Char}

theorem isSpace_eq (simple : Simple text) {c : Char} (member : c ∈ text) : isSpace c = false := by
  have := simple.chars c member
  simp only [isSimple, Bool.and_eq_true, Bool.not_eq_true'] at this
  exact this.1.1.1

theorem hasMark_eq (all : ∀ c ∈ text, isSimple c = true) (afterSpace : Bool) :
    hasMark afterSpace text = false := by
  induction text generalizing afterSpace with
  | nil => rfl
  | cons c text ih =>
    obtain ⟨first, others⟩ := List.forall_mem_cons.mp all
    rw [hasMark, ih others]
    simp [ne_of_isSimple first (d := ':') (by decide), ne_of_isSimple first (d := '#') (by decide)]

theorem unquoted (simple : Simple text) : Unquoted text where
  filled := simple.filled
  head := by
    cases text with
    | nil => rfl
    | cons c text =>
      have := simple.chars c List.mem_cons_self
      simp only [isSimple, Bool.and_eq_true, Bool.not_eq_true'] at this
      exact this.1.1.2
  first := by
    cases text with
    | nil => rfl
    | cons c text => exact simple.isSpace_eq List.mem_cons_self
  last := by
    cases found : text.getLast? with
    | none => rfl
    | some c => exact simple.isSpace_eq (List.mem_of_getLast? found)
  unmarked := hasMark_eq simple.chars true
  oneLine := fun member => ne_of_isSimple (simple.chars _ member) (by decide) rfl

theorem noItem (simple : Simple text) : NoItem text := by
  intro dash
  rcases text with _ | ⟨c, _ | ⟨d, text⟩⟩
  · cases dash
  · exact absurd (by rw [Option.some.inj dash]) simple.dash
  · exact simple.isSpace_eq (List.mem_cons_of_mem _ List.mem_cons_self)

theorem atom (simple : Simple text) : Atom text (plainValue (String.ofList text)) :=
  simple.unquoted.atom simple.noItem

/-- Within brackets, a word ends at a comma and at the end of its line. -/
theorem wordSplit_append (all : ∀ c ∈ text, isSimple c = true) {rest : List Char}
    (ends : ∀ c ∈ rest.head?, c = ',' ∨ c = '\n') (afterSpace : Bool) :
    wordSplit true afterSpace (text ++ rest) = (text, rest) := by
  induction text generalizing afterSpace with
  | nil =>
    cases rest with
    | nil => rfl
    | cons c rest =>
      rw [List.nil_append, wordSplit, if_pos]
      rcases ends c rfl with rfl | rfl
      · simp [isBracket]
      · simp
  | cons c text ih =>
    obtain ⟨first, others⟩ := List.forall_mem_cons.mp all
    have other {d : Char} (special : isSimple d = false) : (c == d) = false :=
      beq_eq_false_iff_ne.mpr (ne_of_isSimple first special)
    have bracket : isBracket c = false := by
      rw [isBracket, other (by decide), other (by decide), other (by decide), other (by decide),
        other (by decide)]
      rfl
    rw [List.cons_append, wordSplit, if_neg, ih others]
    rw [other (d := '\n') (by decide), other (d := '#') (by decide), other (d := ':') (by decide),
      bracket]
    simp

theorem plainWord?_append (simple : Simple text) {rest : List Char}
    (ends : ∀ c ∈ rest.head?, c = ',' ∨ c = '\n') :
    plainWord? true (text ++ rest) = some (String.ofList text, rest) := by
  have head := simple.unquoted.head
  rw [← simple.unquoted.head_append rest] at head
  unfold plainWord?
  rw [head, wordSplit_append simple.chars ends]
  simp only [Bool.false_and, Bool.false_eq_true, if_false,
    trimEnd_eq_self simple.unquoted.last]

end Simple

/-! ## 6. Numbers -/

theorem simple_signed {text : List Char} (first : ∃ c rest, text = c :: rest ∧ c.isDigit = true)
    (all : ∀ c ∈ text, isSimple c = true) (negative : Bool) :
    Simple (signed negative text).toList := by
  obtain ⟨c, rest, rfl, digit⟩ := first
  cases negative with
  | false =>
    rw [signed, if_neg (by decide), String.toList_ofList]
    refine ⟨List.cons_ne_nil _ _, all, ?_⟩
    rintro ⟨⟩
    cases digit
  | true =>
    rw [signed, if_pos rfl, String.toList_ofList]
    exact ⟨List.cons_ne_nil _ _, List.forall_mem_cons.mpr ⟨by decide, all⟩, by simp⟩

theorem simple_integerText (n : Int) : Simple (integerText n).toList := by
  rw [integerText_eq_signed]
  have row := Lua.Digits.natDigits n.natAbs
  exact simple_signed (exists_first row)
    (fun c member => isSimple_of_isDigit (row.digits c member)) _

theorem simple_numeral {n : Numeral} (formed : n.WellFormed) (negative : Bool) :
    Simple (signed negative n.text).toList := by
  refine simple_signed (first_text formed) (fun c member => ?_) negative
  rcases mem_text formed member with digit | mark
  · exact isSimple_of_isDigit digit
  · have all : ['.', 'e', '+', '-'].all isSimple = true := by decide
    exact List.all_eq_true.mp all c mark

theorem simple_numberText (x : Float) : Simple (numberText x) := by
  cases parts : form x with
  | notANumber =>
    rw [numberText, parts]
    exact (by decide : Simple ".nan".toList)
  | infinite negative =>
    rw [numberText, parts]
    cases negative with
    | false => exact (by decide : Simple ".inf".toList)
    | true => exact (by decide : Simple "-.inf".toList)
  | finite negative mantissa exponent =>
    obtain ⟨n, formed, text, -⟩ := exists_numberText parts
    exact text ▸ simple_numeral formed negative

theorem simple_number (x : Float) : Simple (Json.number x).toList := by
  cases parts : form x with
  | notANumber =>
    rw [Json.number, parts]
    exact (by decide : Simple "NaN".toList)
  | infinite negative =>
    rw [Json.number, parts]
    cases negative with
    | false => exact (by decide : Simple "Infinity".toList)
    | true => exact (by decide : Simple "-Infinity".toList)
  | finite negative mantissa exponent =>
    obtain ⟨n, formed, text, -⟩ := exists_number parts
    exact text ▸ simple_numeral formed negative

/-! ## 7. Values on one line -/

/-- Data like that of JSON whose texts are all plain. -/
inductive Plain : Value → Prop
  | null : Plain .null
  | bool (b : Bool) : Plain (.bool b)
  | int (n : Int) : Plain (.int n)
  | float (x : Float) : Plain (.float x)
  | text {s : String} : IsWord s → Plain (.text s)
  | list {items : List Value} : (∀ item ∈ items, Plain item) → Plain (.list items)
  | object {fields : List (String × Value)} : (fields.map (·.1)).Nodup →
      (∀ field ∈ fields, IsWord field.1) → (∀ field ∈ fields, Plain field.2) →
      Plain (.object fields)

/-- A value without items and fields. -/
def isFlat : Value → Bool
  | .list items => items.isEmpty
  | .object fields => fields.isEmpty
  | _ => true

theorem atom_word (word : String) (simple : Simple word.toList) :
    Atom word.toList (plainValue word) := by
  have atom := simple.atom
  rwa [String.ofList_toList] at atom

theorem atom_brackets : Atom ['[', ']'] (.list []) ∧ Atom ['\x7b', '\x7d'] (.object []) :=
  ⟨⟨⟨by decide, by decide, by decide, by decide⟩, nofun, fun _ => rfl, by cbv⟩,
    ⟨⟨by decide, by decide, by decide, by decide⟩, nofun, fun _ => rfl, by cbv⟩⟩

/-- A value on one line is read back. -/
theorem atom_scalarOf {value : Value} (plain : Plain value) (flat : isFlat value = true) :
    Atom (scalarOf value) value := by
  cases plain with
  | null => exact atom_word "null" (by decide)
  | bool b =>
    cases b with
    | false => exact atom_word "false" (by decide)
    | true => exact atom_word "true" (by decide)
  | int n =>
    have atom := atom_word _ (simple_integerText n)
    rwa [plainValue_integerText] at atom
  | float x =>
    have atom := (simple_numberText x).atom
    rwa [plainValue_numberText] at atom
  | text word => exact atom_textOf word
  | list _ =>
    obtain rfl := List.isEmpty_iff.mp flat
    exact atom_brackets.1
  | object _ _ _ =>
    obtain rfl := List.isEmpty_iff.mp flat
    exact atom_brackets.2

end Landform.Document
