import Landform.Proofs.Document.Scalars
import Mathlib.Algebra.BigOperators.Group.List.Basic

/-!
# Block layout reads back

Plain data in block layout is read as that data. The lines of a value are read wherever they stand:
moved to the right by any number of spaces, and within any number of nested values that their
characters allow for.

1. `filledLines_render`: the lines of a text.
2. `entriesOf_flatMap`: lines fall into the entries they were put together from.
3. `ofLines?_items`, `ofLines?_fields`: one step of reading.
4. `Laid`, `laid_items`, `laid_fields`: lines that are read as a value.
5. `Plain.laid_level`, `Plain.ofText_block`: whole documents.
-/

namespace Landform.Document

open Decimal Text

/-! ## 1. The lines of a text -/

theorem cutLines_append {line : List Char} (oneLine : '\n' ∉ line) (start rest : List Char) :
    cutLines start (line ++ '\n' :: rest) = (start.reverse ++ line) :: cutLines [] rest := by
  induction line generalizing start with
  | nil => simp [cutLines]
  | cons c line ih =>
    obtain ⟨first, others⟩ := List.ne_and_not_mem_of_not_mem_cons oneLine
    rw [List.cons_append, cutLines, if_neg (by simpa using Ne.symm first), ih others]
    simp

namespace Settled

variable {content : List Char}

theorem head_ne (settled : Settled content) :
    content.head? ≠ some ' ' ∧ content.head? ≠ some '#' := by
  have first := settled.first
  constructor <;> intro same <;> rw [same] at first <;> cases first

theorem skipSpace_eq (settled : Settled content) : skipSpace (' ' :: content) = content := by
  have first := settled.first
  refine (skipSpace_eq_self ?_ : skipSpace content = content)
  cases content with
  | nil => rfl
  | cons c content =>
    have other : (isSpace c || c == '#') = false := first
    exact (Bool.or_eq_false_iff.mp other).1

theorem takeWhile_eq (settled : Settled content) :
    content.takeWhile (· == ' ') = [] ∧ content.dropWhile (· == ' ') = content := by
  have first := settled.head_ne.1
  cases content with
  | nil => exact ⟨rfl, rfl⟩
  | cons c content =>
    have other : (c == ' ') = false := by simpa using first
    rw [List.takeWhile_cons, List.dropWhile_cons, other]
    exact ⟨rfl, rfl⟩

theorem ofText_eq (settled : Settled content) (indent : Nat) :
    Line.ofText (List.replicate indent ' ' ++ content) = ⟨indent, content⟩ := by
  have spaces : ∀ c ∈ List.replicate indent ' ', (c == ' ') = true := by
    intro c member
    rw [List.eq_of_mem_replicate member]
    rfl
  unfold Line.ofText
  rw [List.takeWhile_append_of_pos spaces, List.dropWhile_append_of_pos spaces,
    settled.takeWhile_eq.1, settled.takeWhile_eq.2, trimEnd_eq_self settled.last]
  simp

theorem isFilled (settled : Settled content) (indent : Nat) :
    (Line.mk indent content).isFilled = true := by
  simp [Line.isFilled, settled.filled, settled.head_ne.2]

theorem append {a b : List Char} (before : Settled a) (filled : b ≠ [])
    (last : b.getLast?.any isSpace = false) (oneLine : '\n' ∉ b) : Settled (a ++ b) where
  filled := by simp [before.filled]
  first := by
    have first := before.first
    cases a with
    | nil => exact absurd rfl before.filled
    | cons c a => exact first
  last := by rwa [List.getLast?_append_of_ne_nil _ filled]
  oneLine := by simp [before.oneLine, oneLine]

end Settled

/-- Lines that are written out are found again. -/
theorem filledLines_render {lines : List Line} (settled : ∀ line ∈ lines, Settled line.content) :
    filledLines (lines.flatMap Line.render) = lines := by
  induction lines with
  | nil => decide
  | cons line rest ih =>
    obtain ⟨first, others⟩ := List.forall_mem_cons.mp settled
    have oneLine : '\n' ∉ List.replicate line.indent ' ' ++ line.content := by
      simp [first.oneLine]
    have text : Line.render line ++ rest.flatMap Line.render =
        (List.replicate line.indent ' ' ++ line.content) ++ '\n' :: rest.flatMap Line.render := by
      simp [Line.render]
    have ih := ih others
    unfold filledLines at ih ⊢
    rw [List.flatMap_cons, text, cutLines_append oneLine, List.reverse_nil, List.nil_append,
      List.map_cons, first.ofText_eq, List.filter_cons, if_pos (first.isFilled _), ih]

/-! ## 2. Entries -/

/-- The lines of an entry. -/
def entryLines (entry : Line × List Line) : List Line :=
  entry.1 :: entry.2

theorem entriesOf_append {starts : Line → Bool} {lines : List Line}
    (none : ∀ line ∈ lines, starts line = false) (rest : List Line) :
    entriesOf starts (lines ++ rest) =
      (lines ++ (entriesOf starts rest).1, (entriesOf starts rest).2) := by
  induction lines with
  | nil => rfl
  | cons line lines ih =>
    obtain ⟨first, others⟩ := List.forall_mem_cons.mp none
    have step : entriesOf starts (line :: (lines ++ rest)) =
        if starts line then ([], (line, (entriesOf starts (lines ++ rest)).1) ::
          (entriesOf starts (lines ++ rest)).2)
        else (line :: (entriesOf starts (lines ++ rest)).1, (entriesOf starts (lines ++ rest)).2) :=
      rfl
    rw [List.cons_append, step, first, ih others]
    rfl

/-- Lines fall into the entries that they were put together from. -/
theorem entriesOf_flatMap {starts : Line → Bool} {entries : List (Line × List Line)}
    (apart : ∀ entry ∈ entries, starts entry.1 = true ∧ ∀ line ∈ entry.2, starts line = false) :
    entriesOf starts (entries.flatMap entryLines) = ([], entries) := by
  induction entries with
  | nil => rfl
  | cons entry rest ih =>
    obtain ⟨⟨start, inner⟩, others⟩ := List.forall_mem_cons.mp apart
    have step (lines : List Line) : entriesOf starts (entry.1 :: lines) =
        if starts entry.1 then ([], (entry.1, (entriesOf starts lines).1) ::
          (entriesOf starts lines).2)
        else (entry.1 :: (entriesOf starts lines).1, (entriesOf starts lines).2) :=
      rfl
    rw [List.flatMap_cons, entryLines, List.cons_append, step, start, entriesOf_append inner,
      ih others]
    simp

theorem mapM_map_eq_some {α β γ : Type} {f : β → Option γ} {g : α → β} {h : α → γ} {l : List α}
    (each : ∀ a ∈ l, f (g a) = some (h a)) : (l.map g).mapM f = some (l.map h) := by
  induction l with
  | nil => rfl
  | cons a rest ih =>
    obtain ⟨first, others⟩ := List.forall_mem_cons.mp each
    rw [List.map_cons, List.mapM_cons, first, ih others]
    rfl

/-! ## 3. One step of reading -/

section Steps

variable {depth : Nat} {first : Line} {rest : List Line}

theorem any_indent_eq_false (level : ∀ line ∈ first :: rest, first.indent ≤ line.indent) :
    (first :: rest).any (·.indent < first.indent) = false :=
  List.any_eq_false.mpr fun line listed => by simpa using level line listed

/-- A single line that holds a value. -/
theorem ofLines?_atom {content : List Char} {value : Value} (atom : Atom content value)
    (indent depth : Nat) : ofLines? (depth + 1) [⟨indent, content⟩] = some value := by
  rw [ofLines?]
  dsimp only
  rw [any_indent_eq_false (by simp), Line.isItem_eq_false atom.noItem, atom.noField, atom.read]
  rfl

/-- Lines of items. -/
theorem ofLines?_items (level : ∀ line ∈ first :: rest, first.indent ≤ line.indent)
    {items : List Value} {entry : Value → Line × List Line} (filled : items ≠ [])
    (parts : first :: rest = (items.map entry).flatMap entryLines)
    (apart : ∀ item ∈ items, (entry item).1.indent = first.indent ∧
      ∀ line ∈ (entry item).2, line.indent ≠ first.indent)
    (each : ∀ item ∈ items, (entry item).1.isItem = true ∧
      ofLines? depth ((entry item).1.ofItem ++ (entry item).2) = some item) :
    ofLines? (depth + 1) (first :: rest) = some (.list items) := by
  have isItem : first.isItem = true := by
    obtain ⟨item, others, rfl⟩ := List.exists_cons_of_ne_nil filled
    rw [List.map_cons, List.flatMap_cons, entryLines, List.cons_append] at parts
    rw [(List.cons.inj parts).1]
    exact (each item List.mem_cons_self).1
  have entries : entriesOf (·.indent == first.indent) (first :: rest) = ([], items.map entry) := by
    rw [parts]
    refine entriesOf_flatMap (List.forall_mem_map.mpr fun item listed => ?_)
    obtain ⟨same, other⟩ := apart item listed
    exact ⟨beq_iff_eq.mpr same, fun line inside => beq_eq_false_iff_ne.mpr (other line inside)⟩
  have all : (items.map entry).all (·.1.isItem) = true :=
    List.all_eq_true.mpr (List.forall_mem_map.mpr fun item listed => (each item listed).1)
  rw [ofLines?]
  dsimp only
  rw [any_indent_eq_false level, isItem, entries]
  simp only [all, Bool.not_true, Bool.false_eq_true, if_false, if_true]
  rw [@mapM_map_eq_some _ _ _ _ entry id items fun item listed => (each item listed).2]
  simp

/-- An entry is read as a field: the value follows the name on its line, or else it stands on the
lines below. -/
def ReadsField (depth : Nat) (entry : Line × List Line) (field : String × Value) : Prop :=
  (entry.1.field? = some (field.1, []) ∧ ofLines? depth entry.2 = some field.2) ∨
    ∃ inline, entry.1.field? = some (field.1, inline) ∧ Settled inline ∧ entry.2 = [] ∧
      valueOf? inline = some field.2

theorem ReadsField.isSome {entry : Line × List Line} {field : String × Value}
    (reads : ReadsField depth entry field) : entry.1.field?.isSome = true := by
  rcases reads with ⟨found, -⟩ | ⟨_, found, -⟩ <;> rw [found] <;> rfl

/-- Lines of fields. -/
theorem ofLines?_fields (level : ∀ line ∈ first :: rest, first.indent ≤ line.indent)
    {fields : Fields} {entry : String × Value → Line × List Line} (filled : fields ≠ [])
    (distinct : (fields.map (·.1)).Nodup)
    (parts : first :: rest = (fields.map entry).flatMap entryLines)
    (apart : ∀ field ∈ fields, ((entry field).1.indent = first.indent ∧
      (entry field).1.isItem = false) ∧
      ∀ line ∈ (entry field).2, line.indent = first.indent → line.isItem = true)
    (each : ∀ field ∈ fields, ReadsField depth (entry field) field) :
    ofLines? (depth + 1) (first :: rest) = some (.object fields) := by
  have start : first.isItem = false ∧ first.field?.isSome = true := by
    obtain ⟨field, others, rfl⟩ := List.exists_cons_of_ne_nil filled
    rw [List.map_cons, List.flatMap_cons, entryLines, List.cons_append] at parts
    rw [(List.cons.inj parts).1]
    exact ⟨(apart field List.mem_cons_self).1.2, (each field List.mem_cons_self).isSome⟩
  have entries : entriesOf (fun line => line.indent == first.indent && !line.isItem)
      (first :: rest) = ([], fields.map entry) := by
    rw [parts]
    refine entriesOf_flatMap (List.forall_mem_map.mpr fun field listed => ?_)
    obtain ⟨⟨same, noItem⟩, other⟩ := apart field listed
    refine ⟨by simp [same, noItem], fun line inside => ?_⟩
    by_cases level : line.indent = first.indent
    · simp [other line inside level]
    · simp [level]
  rw [ofLines?]
  dsimp only
  rw [any_indent_eq_false level, start.1, start.2, entries]
  simp only [Bool.false_eq_true, if_false, if_true]
  rw [@mapM_map_eq_some _ _ _ _ entry id fields fun field listed => ?_]
  · simp [distinct]
  · rcases each field listed with ⟨found, read⟩ | ⟨inline, found, settled, none, read⟩
    · rw [found]
      simp [read]
    · rw [found, none]
      simp [settled.filled, settled.head_ne.2, read]

end Steps

/-! ## 4. Lines that are read as a value -/

/-- The number of characters of lines. -/
def weight (lines : List Line) : Nat :=
  (lines.map (·.content.length)).sum

/-- Lines as they are written, that are read as a value wherever they stand. -/
structure Laid (lines : List Line) (value : Value) : Prop where
  settled : ∀ line ∈ lines, Settled line.content
  first : ∃ content rest, lines = ⟨0, content⟩ :: rest
  read : ∀ base depth, weight lines < depth →
    ofLines? depth (lines.map (Line.shift base)) = some value

theorem shift_shift (a b : Nat) (lines : List Line) :
    (lines.map (Line.shift a)).map (Line.shift b) = lines.map (Line.shift (a + b)) := by
  rw [List.map_map]
  refine List.map_congr_left fun line _ => ?_
  simp [Line.shift, Nat.add_assoc]

theorem Atom.laid {content : List Char} {value : Value} (atom : Atom content value) :
    Laid [⟨0, content⟩] value where
  settled := by simpa using atom.toSettled
  first := ⟨content, [], rfl⟩
  read base depth enough := by
    obtain ⟨depth, rfl⟩ := Nat.exists_eq_add_one_of_ne_zero (Nat.ne_zero_of_lt enough)
    exact ofLines?_atom atom _ depth

/-! ### Items -/

/-- The entry of an item, from the lines of its value. -/
def itemEntry (lines : List Line) : Line × List Line :=
  (⟨0, '-' :: ' ' :: (lines.headD ⟨0, []⟩).content⟩, (lines.drop 1).map (Line.shift 2))

/-- An entry that is moved to the right. -/
def shiftEntry (base : Nat) (entry : Line × List Line) : Line × List Line :=
  (entry.1.shift base, entry.2.map (Line.shift base))

theorem Laid.itemOf_eq {lines : List Line} {value : Value} (laid : Laid lines value) :
    itemOf lines = entryLines (itemEntry lines) := by
  obtain ⟨content, rest, rfl⟩ := laid.first
  rfl

theorem Laid.ofItem_eq {lines : List Line} {value : Value} (laid : Laid lines value) (base : Nat) :
    (shiftEntry base (itemEntry lines)).1.ofItem ++ (shiftEntry base (itemEntry lines)).2 =
      lines.map (Line.shift (base + 2)) := by
  obtain ⟨content, rest, rfl⟩ := laid.first
  have settled := laid.settled _ List.mem_cons_self
  have first : Line.ofItem ⟨base, '-' :: ' ' :: content⟩ = [⟨base + 2, content⟩] := by
    unfold Line.ofItem
    simp [settled.takeWhile_eq.1, settled.filled]
  have moved : (itemEntry (⟨0, content⟩ :: rest)).2.map (Line.shift base) =
      rest.map (Line.shift (base + 2)) := by
    rw [Nat.add_comm, ← shift_shift]
    rfl
  have start : (itemEntry (⟨0, content⟩ :: rest)).1.shift base = ⟨base, '-' :: ' ' :: content⟩ := by
    simp [itemEntry, Line.shift]
  rw [shiftEntry, moved, start, first, List.map_cons, List.singleton_append]
  simp [Line.shift]

theorem weight_entryLines (entry : Line × List Line) :
    weight (entryLines entry) = entry.1.content.length + weight entry.2 := rfl

theorem weight_shift (base : Nat) (lines : List Line) :
    weight (lines.map (Line.shift base)) = weight lines := by
  rw [weight, List.map_map]
  rfl

/-- No entry has more characters than all entries have together. -/
theorem weight_le_of_mem {entries : List (Line × List Line)} {entry : Line × List Line}
    (listed : entry ∈ entries) :
    weight (entryLines entry) ≤ weight (entries.flatMap entryLines) := by
  have split (a b : List Line) : weight (a ++ b) = weight a + weight b := by
    rw [weight, List.map_append, List.sum_append]
    rfl
  induction entries with
  | nil => cases listed
  | cons other rest ih =>
    rw [List.flatMap_cons, split]
    rcases List.mem_cons.mp listed with rfl | listed
    · exact Nat.le_add_right _ _
    · exact (ih listed).trans (Nat.le_add_left _ _)

theorem Settled.item {content : List Char} (settled : Settled content) :
    Settled ('-' :: ' ' :: content) := by
  refine Settled.append (a := ['-']) ⟨by decide, by decide, by decide, by decide⟩
    (b := ' ' :: content) (by simp) ?_ ?_
  · have last := settled.last
    rwa [← List.singleton_append, List.getLast?_append_of_ne_nil _ settled.filled]
  · simp [settled.oneLine]

/-- An item has more characters than its value. -/
theorem Laid.weight_lt {lines : List Line} {value : Value} (laid : Laid lines value) :
    weight lines < weight (entryLines (itemEntry lines)) := by
  obtain ⟨content, rest, rfl⟩ := laid.first
  have item : weight (entryLines (itemEntry (⟨0, content⟩ :: rest))) =
      content.length + 2 + weight (rest.map (Line.shift 2)) := rfl
  have value : weight (⟨0, content⟩ :: rest) = content.length + weight rest := rfl
  rw [item, value, weight_shift]
  omega

theorem itemLines_eq {items : List Value} (each : ∀ item ∈ items, Laid (linesOf item) item) :
    itemLines items = (items.map fun item => itemEntry (linesOf item)).flatMap entryLines := by
  induction items with
  | nil => rfl
  | cons item rest ih =>
    obtain ⟨first, others⟩ := List.forall_mem_cons.mp each
    rw [itemLines, first.itemOf_eq, ih others]
    rfl

theorem settled_entryLines {entry : Line × List Line} (first : Settled entry.1.content)
    (rest : ∀ line ∈ entry.2, Settled line.content) :
    ∀ line ∈ entryLines entry, Settled line.content :=
  List.forall_mem_cons.mpr ⟨first, rest⟩

theorem settled_shift {lines : List Line} (settled : ∀ line ∈ lines, Settled line.content)
    (base : Nat) : ∀ line ∈ lines.map (Line.shift base), Settled line.content :=
  List.forall_mem_map.mpr settled

theorem map_flatMap_entryLines (base : Nat) (entries : List (Line × List Line)) :
    (entries.flatMap entryLines).map (Line.shift base) =
      (entries.map (shiftEntry base)).flatMap entryLines := by
  rw [List.map_flatMap, List.flatMap_map]
  rfl

/-- The first of lines that are moved to the right is as far to the right as they are moved, and
none is less. -/
theorem exists_shifted {lines : List Line} (first : ∃ content rest, lines = ⟨0, content⟩ :: rest)
    (base : Nat) : ∃ first rest, lines.map (Line.shift base) = first :: rest ∧ first.indent = base ∧
      ∀ line ∈ first :: rest, first.indent ≤ line.indent := by
  obtain ⟨content, rest, rfl⟩ := first
  refine ⟨_, _, List.map_cons, Nat.zero_add base, ?_⟩
  rw [← List.map_cons]
  exact List.forall_mem_map.mpr fun line _ => by simp [Line.shift]

/-- The lines of a list are read as the list. -/
theorem laid_items {items : List Value} (filled : items ≠ [])
    (each : ∀ item ∈ items, Laid (linesOf item) item) : Laid (itemLines items) (.list items) := by
  have shape := itemLines_eq each
  have first : ∃ content rest, itemLines items = ⟨0, content⟩ :: rest := by
    obtain ⟨item, others, rfl⟩ := List.exists_cons_of_ne_nil filled
    rw [shape]
    exact ⟨_, _, rfl⟩
  refine ⟨?_, first, fun base depth enough => ?_⟩
  · rw [shape]
    intro line listed
    obtain ⟨entry, found, inside⟩ := List.mem_flatMap.mp listed
    obtain ⟨item, member, rfl⟩ := List.mem_map.mp found
    have laid := each item member
    obtain ⟨content, rest, lines⟩ := laid.first
    have settled := laid.settled
    rw [lines] at settled inside
    obtain ⟨head, others⟩ := List.forall_mem_cons.mp settled
    exact settled_entryLines head.item (settled_shift others 2) line inside
  · obtain ⟨depth, rfl⟩ := Nat.exists_eq_add_one_of_ne_zero (Nat.ne_zero_of_lt enough)
    obtain ⟨first, rest, lines, level, above⟩ := exists_shifted first base
    have parts : first :: rest =
        (items.map fun item => shiftEntry base (itemEntry (linesOf item))).flatMap entryLines := by
      rw [← lines, shape, map_flatMap_entryLines, List.map_map]
      rfl
    rw [lines]
    refine ofLines?_items above filled parts (fun item listed => ⟨?_, ?_⟩)
      fun item listed => ⟨rfl, ?_⟩
    · rw [level]
      exact Nat.zero_add base
    · refine List.forall_mem_map.mpr (List.forall_mem_map.mpr fun line _ => ?_)
      simp [Line.shift, level]
    · rw [(each item listed).ofItem_eq]
      refine (each item listed).read _ _ ?_
      have total := weight_le_of_mem
        (List.mem_map_of_mem (f := fun item => itemEntry (linesOf item)) listed)
      rw [← shape] at total
      have more := (each item listed).weight_lt
      omega

/-- In the lines of a list, a line that is not indented starts an item. -/
theorem isItem_of_mem_itemLines {items : List Value}
    (each : ∀ item ∈ items, Laid (linesOf item) item) {line : Line}
    (listed : line ∈ itemLines items) (level : line.indent = 0) : line.isItem = true := by
  rw [itemLines_eq each] at listed
  obtain ⟨entry, found, inside⟩ := List.mem_flatMap.mp listed
  obtain ⟨item, _, rfl⟩ := List.mem_map.mp found
  rcases List.mem_cons.mp inside with rfl | inside
  · rfl
  · obtain ⟨inner, _, rfl⟩ := List.mem_map.mp inside
    simp [Line.shift] at level

/-! ### Fields -/

/-- How far the lines of a value are moved to the right below the name of its field. -/
def inset : Value → Nat
  | .object _ => 2
  | _ => 0

/-- The entry of a field. -/
def fieldEntry (field : String × Value) : Line × List Line :=
  if isFlat field.2 then (⟨0, textOf field.1 ++ ':' :: ' ' :: scalarOf field.2⟩, [])
  else (⟨0, textOf field.1 ++ [':']⟩, (linesOf field.2).map (Line.shift (inset field.2)))

theorem fieldOf_eq (name : String) (value : Value) :
    fieldOf name value (linesOf value) = entryLines (fieldEntry (name, value)) := by
  have unmoved (lines : List Line) : lines.map (Line.shift 0) = lines := List.map_id lines
  rcases value with _ | _ | _ | _ | _ | ⟨_ | _⟩ | ⟨_ | _⟩ <;>
    simp [fieldOf, fieldEntry, entryLines, isFlat, inset, unmoved]

theorem fieldLines_eq (fields : Fields) :
    fieldLines fields = (fields.map fieldEntry).flatMap entryLines := by
  induction fields with
  | nil => rfl
  | cons field rest ih => rw [fieldLines, fieldOf_eq, ih]; rfl

namespace Title

variable {content : List Char} {name : String}

theorem field?_eq (title : Title content name) (indent : Nat) {rest : List Char}
    (gap : isBreak rest = true) :
    (Line.mk indent (content ++ ':' :: rest)).field? = some (name, skipSpace rest) := by
  have head : (content ++ ':' :: rest).head? = content.head? := by
    cases content with
    | nil => exact absurd rfl title.filled
    | cons c content => rfl
  unfold Line.field?
  dsimp only
  split
  · next same =>
    rw [same] at head
    exact absurd rfl (title.noBracket _ (Option.mem_def.mpr head.symm)).1
  · next same =>
    rw [same] at head
    exact absurd rfl (title.noBracket _ (Option.mem_def.mpr head.symm)).2
  · rw [title.read rest gap]
    simp only [Option.bind_eq_bind, Option.bind_some]
    rw [skipSpace_eq_self (by rfl)]
    simp [gap]

end Title

/-- What the lines of a field need: a plain name, and a value on one line or on lines of its own. -/
structure Fieldable (field : String × Value) : Prop where
  title : Title (textOf field.1) field.1
  flat : isFlat field.2 = true → Atom (scalarOf field.2) field.2
  nested : isFlat field.2 = false → Laid (linesOf field.2) field.2 ∧
    ∀ line ∈ linesOf field.2, inset field.2 = 0 → line.indent = 0 → line.isItem = true

namespace Fieldable

variable {field : String × Value} (fieldable : Fieldable field)

include fieldable

theorem settled : ∀ line ∈ entryLines (fieldEntry field), Settled line.content := by
  have title := fieldable.title.toSettled
  unfold fieldEntry
  cases flat : isFlat field.2 with
  | true =>
    have atom := fieldable.flat flat
    rw [if_pos rfl]
    refine settled_entryLines (title.append (by simp) ?_ ?_) (by simp)
    · have split : ':' :: ' ' :: scalarOf field.2 = [':', ' '] ++ scalarOf field.2 := rfl
      rw [split, List.getLast?_append_of_ne_nil _ atom.filled]
      exact atom.last
    · simp [atom.oneLine]
  | false =>
    rw [if_neg Bool.false_ne_true]
    refine settled_entryLines (title.append (by simp) (by decide) (by decide)) ?_
    exact settled_shift (fieldable.nested flat).1.settled _

theorem isItem_eq (base : Nat) : (shiftEntry base (fieldEntry field)).1.isItem = false := by
  have noItem (rest : List Char) : NoItem (textOf field.1 ++ rest) :=
    NoItem.append fieldable.title.filled fieldable.title.noItem rest
  refine Line.isItem_eq_false ?_
  unfold fieldEntry
  cases isFlat field.2 with
  | true => exact noItem _
  | false => exact noItem _

theorem isItem_of_level (base : Nat) : ∀ line ∈ (shiftEntry base (fieldEntry field)).2,
    line.indent = base → line.isItem = true := by
  unfold shiftEntry fieldEntry
  cases flat : isFlat field.2 with
  | true => simp
  | false =>
    rw [if_neg Bool.false_ne_true]
    dsimp only
    rw [shift_shift]
    refine List.forall_mem_map.mpr fun line listed level => ?_
    have level : line.indent + (inset field.2 + base) = base := level
    exact (fieldable.nested flat).2 line listed (by omega) (by omega)

theorem reads {base depth : Nat} (enough : weight (entryLines (fieldEntry field)) ≤ depth) :
    ReadsField depth (shiftEntry base (fieldEntry field)) field := by
  have title := fieldable.title
  unfold shiftEntry fieldEntry at *
  cases flat : isFlat field.2 with
  | true =>
    have atom := fieldable.flat flat
    have inline : skipSpace (' ' :: scalarOf field.2) = scalarOf field.2 :=
      atom.skipSpace_eq
    right
    rw [if_pos rfl]
    exact ⟨scalarOf field.2, (title.field?_eq _ rfl).trans (by rw [inline]),
      atom.toSettled, rfl, atom.read⟩
  | false =>
    left
    rw [flat, if_neg Bool.false_ne_true] at enough
    rw [if_neg Bool.false_ne_true]
    refine ⟨title.field?_eq _ rfl, ?_⟩
    dsimp only
    rw [shift_shift]
    refine (fieldable.nested flat).1.read _ _ ?_
    rw [weight_entryLines, weight_shift] at enough
    have : 0 < (textOf field.1 ++ [':']).length := by simp
    dsimp only at enough
    omega

end Fieldable

/-- The lines of an object are read as the object. -/
theorem laid_fields {fields : Fields} (filled : fields ≠ [])
    (distinct : (fields.map (·.1)).Nodup) (each : ∀ field ∈ fields, Fieldable field) :
    Laid (fieldLines fields) (.object fields) := by
  have shape := fieldLines_eq fields
  have first : ∃ content rest, fieldLines fields = ⟨0, content⟩ :: rest := by
    obtain ⟨field, others, rfl⟩ := List.exists_cons_of_ne_nil filled
    rw [shape, List.map_cons, List.flatMap_cons, fieldEntry]
    cases isFlat field.2 <;> exact ⟨_, _, rfl⟩
  refine ⟨?_, first, fun base depth enough => ?_⟩
  · rw [shape]
    intro line listed
    obtain ⟨entry, found, inside⟩ := List.mem_flatMap.mp listed
    obtain ⟨field, member, rfl⟩ := List.mem_map.mp found
    exact (each field member).settled line inside
  · obtain ⟨depth, rfl⟩ := Nat.exists_eq_add_one_of_ne_zero (Nat.ne_zero_of_lt enough)
    obtain ⟨first, rest, lines, level, above⟩ := exists_shifted first base
    have parts : first :: rest =
        (fields.map fun field => shiftEntry base (fieldEntry field)).flatMap entryLines := by
      rw [← lines, shape, map_flatMap_entryLines, List.map_map]
      rfl
    rw [lines]
    refine ofLines?_fields above filled distinct parts (fun field listed => ⟨⟨?_, ?_⟩, ?_⟩)
      fun field listed => (each field listed).reads ?_
    · rw [level]
      unfold shiftEntry fieldEntry
      cases isFlat field.2 <;> exact Nat.zero_add base
    · exact (each field listed).isItem_eq base
    · rw [level]
      exact (each field listed).isItem_of_level base
    · have total := weight_le_of_mem (List.mem_map_of_mem (f := fieldEntry) listed)
      rw [← shape] at total
      omega

/-! ## 5. Whole documents -/

/-- The lines of plain data are read as the data, and those of a list that are not indented start
its items. -/
theorem Plain.laid_level {value : Value} (plain : Plain value) : Laid (linesOf value) value ∧
    (isFlat value = false → inset value = 0 →
      ∀ line ∈ linesOf value, line.indent = 0 → line.isItem = true) := by
  induction plain with
  | null => exact ⟨(atom_scalarOf .null rfl).laid, nofun⟩
  | bool b => exact ⟨(atom_scalarOf (.bool b) rfl).laid, nofun⟩
  | int n => exact ⟨(atom_scalarOf (.int n) rfl).laid, nofun⟩
  | float x => exact ⟨(atom_scalarOf (.float x) rfl).laid, nofun⟩
  | text word => exact ⟨(atom_scalarOf (.text word) rfl).laid, nofun⟩
  | @list items each ih =>
    cases items with
    | nil => exact ⟨(atom_scalarOf (.list each) rfl).laid, nofun⟩
    | cons item others =>
      have laid := fun item listed => (ih item listed).1
      exact ⟨laid_items (List.cons_ne_nil _ _) laid,
        fun _ _ line listed => isItem_of_mem_itemLines laid listed⟩
  | @object fields distinct words each ih =>
    refine ⟨?_, fun _ unmoved => nomatch unmoved⟩
    cases fields with
    | nil => exact (atom_scalarOf (.object distinct words each) rfl).laid
    | cons field others =>
      refine laid_fields (List.cons_ne_nil _ _) distinct fun field listed =>
        ⟨title_textOf (words field listed), atom_scalarOf (each field listed), fun nested => ?_⟩
      obtain ⟨laid, level⟩ := ih field listed
      exact ⟨laid, fun line inside unmoved => level nested unmoved line inside⟩

theorem weight_le_length (lines : List Line) :
    weight lines ≤ (lines.flatMap Line.render).length := by
  induction lines with
  | nil => exact Nat.le_refl 0
  | cons line rest ih =>
    have split : weight (line :: rest) = line.content.length + weight rest := rfl
    rw [split, List.flatMap_cons, List.length_append, Line.render]
    simp only [List.length_append]
    omega

/-- An object in block layout begins with the name of its first field. -/
theorem exists_start (field : String × Value) (others : Fields) : ∃ rest,
    (linesOf (.object (field :: others))).flatMap Line.render = textOf field.1 ++ rest := by
  obtain ⟨inline, entry⟩ :
      ∃ inline, (fieldEntry field).1 = ⟨0, textOf field.1 ++ ':' :: inline⟩ := by
    unfold fieldEntry
    cases isFlat field.2 <;> exact ⟨_, rfl⟩
  refine ⟨':' :: inline ++ '\n' :: ((fieldEntry field).2 ++
    (others.map fieldEntry).flatMap entryLines).flatMap Line.render, ?_⟩
  rw [linesOf, fieldLines_eq, List.map_cons, List.flatMap_cons, entryLines, List.cons_append,
    List.flatMap_cons, entry]
  simp [Line.render]

/-- What begins with the name of a field begins with neither a space nor a bracket. -/
theorem Title.skipSpace_append {content : List Char} {name : String} (title : Title content name)
    (rest : List Char) : skipSpace (content ++ rest) = content ++ rest ∧
      ∀ c ∈ (content ++ rest).head?, c ≠ '[' ∧ c ≠ '\x7b' := by
  have first := title.first
  have noBracket := title.noBracket
  cases content with
  | nil => exact absurd rfl title.filled
  | cons c content =>
    have other : (isSpace c || c == '#') = false := first
    exact ⟨skipSpace_eq_self (Bool.or_eq_false_iff.mp other).1, noBracket⟩

/-- A plain object in block layout is read as the object. -/
theorem Plain.ofText_block {fields : Fields} (plain : Plain (.object fields)) :
    ofText (block (.object fields)) = .ok (.object fields) := by
  obtain ⟨laid, -⟩ := plain.laid_level
  have text : (block (.object fields)).toList = (linesOf (.object fields)).flatMap Line.render := by
    rw [block, String.toList_ofList]
  have lines : ofLines? ((block (.object fields)).length + 2)
      (filledLines (block (.object fields)).toList) = some (.object fields) := by
    have enough := weight_le_length (linesOf (.object fields))
    rw [← text, String.length_toList] at enough
    have read := laid.read 0 ((block (.object fields)).length + 2) (by omega)
    rw [text, filledLines_render laid.settled]
    rwa [show (linesOf (.object fields)).map (Line.shift 0) = linesOf (.object fields) from
      List.map_id _] at read
  have document : read? (block (.object fields)) = some (.object fields) := by
    cases fields with
    | nil => cbv
    | cons field others =>
      have title : Title (textOf field.1) field.1 := by
        cases plain with
        | object _ words _ => exact title_textOf (words field List.mem_cons_self)
      obtain ⟨rest, start⟩ := exists_start field others
      rw [← text] at start
      obtain ⟨same, noBracket⟩ := title.skipSpace_append rest
      unfold read?
      rw [start, same]
      split
      · next bracket => exact absurd rfl (noBracket '[' (by rw [bracket]; rfl)).1
      · next brace => exact absurd rfl (noBracket '\x7b' (by rw [brace]; rfl)).2
      · rwa [start] at lines
  rw [ofText, document]

end Landform.Document
