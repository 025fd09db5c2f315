import Landform.Proofs.Document.Scalars
import Landform.Proofs.Table

/-!
# JSON text reads back

JSON text that is laid out with one item or field a line is read as the data it was written for,
except that a double that is not finite is read as the text of its name.

1. `worded`: data as it comes back from JSON.
2. `Rereads`: a text between brackets is read as a value, in as many steps as it has characters.
3. `items?_indentedItems`, `fields?_indentedFields`: lists and objects.
4. `Plain.rereads`, `Plain.ofText_indented`: whole texts.
-/

namespace Landform.Document

open Decimal Text

/-! ## 1. What JSON keeps -/

mutual

/-- Data with the names of the doubles that are not finite in place of these. -/
def worded : Value → Value
  | .float x => wordOf x
  | .list items => .list (wordedItems items)
  | .object fields => .object (wordedFields fields)
  | value => value

/-- The items of a list with names in place of doubles that are not finite. -/
def wordedItems : List Value → List Value
  | [] => []
  | item :: rest => worded item :: wordedItems rest

/-- The fields of an object with names in place of doubles that are not finite. -/
def wordedFields : Fields → Fields
  | [] => []
  | (name, value) :: rest => (name, worded value) :: wordedFields rest

end

theorem wordedItems_eq (items : List Value) : wordedItems items = items.map worded := by
  induction items with
  | nil => rfl
  | cons item rest ih => rw [wordedItems, ih, List.map_cons]

theorem wordedFields_eq (fields : Fields) :
    wordedFields fields = fields.map fun field => (field.1, worded field.2) := by
  induction fields with
  | nil => rfl
  | cons field rest ih => rw [wordedFields, ih, List.map_cons]

theorem names_wordedFields (fields : Fields) :
    Table.names (wordedFields fields) = Table.names fields := by
  rw [wordedFields_eq, Table.names, Table.names, List.map_map]
  rfl

/-! ## 2. Values between brackets -/

theorem skipSpace_append {gap : List Char} (spaces : ∀ c ∈ gap, isSpace c = true)
    (text : List Char) : skipSpace (gap ++ text) = skipSpace text :=
  List.dropWhile_append_of_pos spaces

/-- Spaces before a value are skipped, and so they are before items and fields. -/
theorem value?_skip {gap : List Char} (spaces : ∀ c ∈ gap, isSpace c = true) (fuel : Nat)
    (text : List Char) : value? fuel (gap ++ text) = value? fuel text ∧
      items? fuel (gap ++ text) = items? fuel text ∧
        fields? fuel (gap ++ text) = fields? fuel text := by
  cases fuel with
  | zero => exact ⟨rfl, rfl, rfl⟩
  | succ fuel =>
    rw [value?, value?, items?, items?, fields?, fields?, skipSpace_append spaces]
    exact ⟨rfl, rfl, rfl⟩

/-- What may follow a value on its line. -/
def Ends (rest : List Char) : Prop :=
  ∀ c ∈ rest.head?, c = ',' ∨ c = '\n'

/-- A text begins with neither a space nor a closing bracket. -/
def Starts (text : List Char) : Prop :=
  ∃ c rest, text = c :: rest ∧ isSpace c = false ∧ c ≠ ']' ∧ c ≠ '\x7d'

theorem Starts.skipSpace_eq {text : List Char} (starts : Starts text) : skipSpace text = text := by
  obtain ⟨c, _, rfl, space, -, -⟩ := starts
  exact skipSpace_eq_self space

theorem Starts.append {text : List Char} (starts : Starts text) (rest : List Char) :
    Starts (text ++ rest) := by
  obtain ⟨c, tail, rfl, other⟩ := starts
  exact ⟨c, tail ++ rest, rfl, other⟩

theorem Starts.ne {c : Char} {rest : List Char} (starts : Starts (c :: rest)) :
    c ≠ ']' ∧ c ≠ '\x7d' := by
  obtain ⟨_, _, same, -, other⟩ := starts
  exact (List.cons.inj same).1 ▸ other

/-- A text is read as a value, in as many steps as it has characters. -/
structure Rereads (text : List Char) (value : Value) : Prop where
  start : Starts text
  read : ∀ fuel rest, text.length < fuel → Ends rest →
    value? fuel (text ++ rest) = some (value, rest)

theorem Simple.rereads {text : List Char} (simple : Simple text) :
    Rereads text (plainValue (String.ofList text)) := by
  obtain ⟨c, tail, rfl⟩ := List.exists_cons_of_ne_nil simple.filled
  have first := simple.chars c List.mem_cons_self
  refine ⟨⟨c, tail, rfl, simple.isSpace_eq List.mem_cons_self, ne_of_isSimple first (by decide),
    ne_of_isSimple first (by decide)⟩, fun fuel rest enough ends => ?_⟩
  obtain ⟨fuel, rfl⟩ := Nat.exists_eq_add_one_of_ne_zero (Nat.ne_zero_of_lt enough)
  have head : (c :: tail ++ rest).head?.any isIndicator = false := simple.unquoted.head
  have first : (c :: tail ++ rest).head?.any isSpace = false := simple.unquoted.first
  rw [value?, skipSpace_eq_self first]
  split
  · next same =>
    obtain ⟨rfl, -⟩ := List.cons.inj same
    cases head
  · next same =>
    obtain ⟨rfl, -⟩ := List.cons.inj same
    cases head
  · rw [quotedText?_eq_none head]
    dsimp only
    rw [simple.plainWord?_append ends]
    rfl

theorem rereads_text {s : String} (word : IsWord s) : Rereads (Json.text s).toList (.text s) := by
  obtain ⟨tail, text⟩ : ∃ tail, (Json.text s).toList = '"' :: tail := ⟨_, by simp [Json.text]; rfl⟩
  refine ⟨⟨'"', tail, text, by decide, by decide, by decide⟩, fun fuel rest enough _ => ?_⟩
  obtain ⟨fuel, rfl⟩ := Nat.exists_eq_add_one_of_ne_zero (Nat.ne_zero_of_lt enough)
  have quoted := quotedText?_jsonText word.toNat_lt rest
  rw [text] at quoted ⊢
  rw [value?, skipSpace_eq_self (by rfl)]
  split
  · next same => cases same
  · next same => cases same
  · rw [quoted]

/-! ## 3. Lists and objects -/

/-- A data value between brackets at a depth of nesting is read as what JSON keeps of it. -/
abbrev Returns (depth : Nat) (value : Value) : Prop :=
  Rereads (Json.indented depth value).toList (worded value)

theorem toList_comma : ",".toList = [','] := rfl

theorem toList_colon : ": ".toList = [':', ' '] := rfl

theorem isSpace_newline (depth : Nat) : ∀ c ∈ (Json.newline depth).toList, isSpace c = true := by
  rw [Json.newline, String.toList_ofList]
  refine List.forall_mem_cons.mpr ⟨by decide, fun c member => ?_⟩
  rw [List.eq_of_mem_replicate member]
  decide

theorem ends_newline (depth : Nat) (rest : List Char) :
    Ends ((Json.newline depth).toList ++ rest) := by
  rw [Json.newline, String.toList_ofList]
  rintro c ⟨⟩
  exact .inr rfl

theorem ends_comma (rest : List Char) : Ends (',' :: rest) := by
  rintro c ⟨⟩
  exact .inl rfl

theorem skipSpace_newline (depth : Nat) {c : Char} (other : isSpace c = false) (rest : List Char) :
    skipSpace ((Json.newline depth).toList ++ c :: rest) = c :: rest := by
  rw [skipSpace_append (isSpace_newline depth)]
  exact skipSpace_eq_self other

section Steps

variable {fuel : Nat} {text : List Char} (starts : Starts text)

include starts

/-- The last item of a list. -/
theorem items?_last {item : Value} {rest after : List Char}
    (read : value? fuel text = some (item, rest)) (closing : skipSpace rest = ']' :: after) :
    items? (fuel + 1) text = some ([item], after) := by
  rw [items?, starts.skipSpace_eq]
  split
  · exact absurd rfl starts.ne.1
  · rw [read]
    dsimp only [Option.bind_eq_bind, Option.bind_some]
    rw [closing]
    rfl

/-- An item of a list before further items. -/
theorem items?_next {item : Value} {items : List Value} {rest after left : List Char}
    (read : value? fuel text = some (item, rest)) (comma : skipSpace rest = ',' :: after)
    (others : items? fuel after = some (items, left)) :
    items? (fuel + 1) text = some (item :: items, left) := by
  rw [items?, starts.skipSpace_eq]
  split
  · exact absurd rfl starts.ne.1
  · rw [read]
    dsimp only [Option.bind_eq_bind, Option.bind_some]
    rw [comma]
    simp only []
    rw [others]
    rfl

/-- The last field of an object. -/
theorem fields?_last {name : String} {value : Value} {given rest after : List Char}
    (key : quotedText? text = some (name, ':' :: given))
    (read : value? fuel given = some (value, rest)) (closing : skipSpace rest = '\x7d' :: after) :
    fields? (fuel + 1) text = some ([(name, value)], after) := by
  rw [fields?, starts.skipSpace_eq]
  split
  · exact absurd rfl starts.ne.2
  · rw [key?, key]
    dsimp only [Option.bind_eq_bind, Option.bind_some, Option.orElse_eq_orElse, Option.orElse_some]
    rw [skipSpace_eq_self (by rfl)]
    simp only []
    rw [read]
    dsimp only [Option.bind_eq_bind, Option.bind_some]
    rw [closing]
    rfl

/-- A field of an object before further fields, of which none has its name. -/
theorem fields?_next {name : String} {value : Value} {fields : Fields}
    {given rest after left : List Char} (key : quotedText? text = some (name, ':' :: given))
    (read : value? fuel given = some (value, rest)) (comma : skipSpace rest = ',' :: after)
    (others : fields? fuel after = some (fields, left)) (fresh : Table.get? fields name = none) :
    fields? (fuel + 1) text = some ((name, value) :: fields, left) := by
  rw [fields?, starts.skipSpace_eq]
  split
  · exact absurd rfl starts.ne.2
  · rw [key?, key]
    dsimp only [Option.bind_eq_bind, Option.bind_some, Option.orElse_eq_orElse, Option.orElse_some]
    rw [skipSpace_eq_self (by rfl)]
    simp only []
    rw [read]
    dsimp only [Option.bind_eq_bind, Option.bind_some]
    rw [comma]
    simp only []
    rw [others]
    dsimp only [Option.bind_eq_bind, Option.bind_some]
    rw [fresh]
    rfl

end Steps

/-- The items of a list are read one after the other, up to the closing bracket on a line of its
own. -/
theorem items?_indentedItems {depth outer : Nat} {items : List Value} (filled : items ≠ [])
    (each : ∀ item ∈ items, Returns depth item) (rest : List Char) (fuel : Nat)
    (enough : (Json.indentedItems depth items).toList.length + 1 < fuel) :
    items? fuel ((Json.indentedItems depth items).toList ++
      ((Json.newline outer).toList ++ ']' :: rest)) = some (wordedItems items, rest) := by
  induction items generalizing fuel with
  | nil => exact absurd rfl filled
  | cons item others ih =>
    obtain ⟨first, later⟩ := List.forall_mem_cons.mp each
    obtain ⟨fuel, rfl⟩ := Nat.exists_eq_add_one_of_ne_zero (Nat.ne_zero_of_lt enough)
    cases others with
    | nil =>
      rw [Json.indentedItems] at enough ⊢
      exact items?_last (first.start.append _)
        (first.read fuel _ (by omega) (ends_newline outer _))
        (skipSpace_newline outer (by decide) rest)
    | cons next others =>
      simp only [Json.indentedItems, String.toList_append, List.length_append, List.append_assoc,
        toList_comma, List.cons_append, List.nil_append, List.length_cons] at enough ⊢
      refine items?_next (first.start.append _) (first.read fuel _ (by omega) (ends_comma _)) rfl ?_
      rw [(value?_skip (isSpace_newline depth) fuel _).2.1]
      exact ih (by simp) later fuel (by omega)

/-- The fields of an object are read one after the other, up to the closing brace on a line of its
own. -/
theorem fields?_indentedFields {depth outer : Nat} {fields : Fields} (filled : fields ≠ [])
    (distinct : (fields.map (·.1)).Nodup) (words : ∀ field ∈ fields, IsWord field.1)
    (each : ∀ field ∈ fields, Returns depth field.2) (rest : List Char) (fuel : Nat)
    (enough : (Json.indentedFields depth fields).toList.length + 1 < fuel) :
    fields? fuel ((Json.indentedFields depth fields).toList ++
      ((Json.newline outer).toList ++ '\x7d' :: rest)) = some (wordedFields fields, rest) := by
  induction fields generalizing fuel with
  | nil => exact absurd rfl filled
  | cons field others ih =>
    obtain ⟨name, value⟩ := field
    obtain ⟨fresh, distinct⟩ := List.nodup_cons.mp distinct
    obtain ⟨word, words⟩ := List.forall_mem_cons.mp words
    obtain ⟨first, later⟩ := List.forall_mem_cons.mp each
    obtain ⟨fuel, rfl⟩ := Nat.exists_eq_add_one_of_ne_zero (Nat.ne_zero_of_lt enough)
    have first : Returns depth value := first
    have starts := (rereads_text word).start
    -- the space after the colon is skipped
    have read (fuel : Nat) (text : List Char) : value? fuel ([' '] ++ text) = value? fuel text :=
      (value?_skip (by simp [isSpace]) fuel text).1
    cases others with
    | nil =>
      simp only [Json.indentedFields, String.toList_append, List.length_append, List.append_assoc,
        toList_colon, List.cons_append, List.nil_append, List.length_cons] at enough ⊢
      refine fields?_last (starts.append _) (quotedText?_jsonText word.toNat_lt _) ?_
        (skipSpace_newline outer (by decide) rest)
      exact (read fuel _).trans (first.read fuel _ (by omega) (ends_newline outer _))
    | cons next others =>
      simp only [Json.indentedFields, String.toList_append, List.length_append, List.append_assoc,
        toList_colon, toList_comma, List.cons_append, List.nil_append, List.length_cons] at enough ⊢
      refine fields?_next (starts.append _) (quotedText?_jsonText word.toNat_lt _)
        ((read fuel _).trans (first.read fuel _ (by omega) (ends_comma _))) rfl ?_
        (Table.get?_eq_none (by rw [names_wordedFields]; exact fresh))
      rw [(value?_skip (isSpace_newline depth) fuel _).2.2]
      exact ih (by simp) distinct words later fuel (by omega)

/-- A list from what is read after its opening bracket. -/
theorem rereads_list {text : List Char} {items : List Value}
    (read : ∀ fuel rest, text.length < fuel → items? fuel (text ++ rest) = some (items, rest)) :
    Rereads ('[' :: text) (.list items) := by
  refine ⟨⟨'[', text, rfl, by decide, by decide, by decide⟩, fun fuel rest enough _ => ?_⟩
  obtain ⟨fuel, rfl⟩ := Nat.exists_eq_add_one_of_ne_zero (Nat.ne_zero_of_lt enough)
  rw [List.cons_append, value?, skipSpace_eq_self (by rfl)]
  simp only []
  rw [read fuel rest (Nat.lt_of_succ_lt_succ enough)]
  rfl

/-- An object from what is read after its opening brace. -/
theorem rereads_object {text : List Char} {fields : Fields}
    (read : ∀ fuel rest, text.length < fuel → fields? fuel (text ++ rest) = some (fields, rest)) :
    Rereads ('\x7b' :: text) (.object fields) := by
  refine ⟨⟨'\x7b', text, rfl, by decide, by decide, by decide⟩, fun fuel rest enough _ => ?_⟩
  obtain ⟨fuel, rfl⟩ := Nat.exists_eq_add_one_of_ne_zero (Nat.ne_zero_of_lt enough)
  rw [List.cons_append, value?, skipSpace_eq_self (by rfl)]
  simp only []
  rw [read fuel rest (Nat.lt_of_succ_lt_succ enough)]
  rfl

/-! ## 4. Whole texts -/

theorem toList_indented_list (depth : Nat) (item : Value) (rest : List Value) :
    (Json.indented depth (.list (item :: rest))).toList =
      '[' :: ((Json.newline (depth + 1)).toList ++
        ((Json.indentedItems (depth + 1) (item :: rest)).toList ++
          ((Json.newline depth).toList ++ [']']))) := by
  simp only [Json.indented, String.toList_append, List.append_assoc]
  rfl

theorem toList_indented_object (depth : Nat) (field : String × Value) (rest : Fields) :
    (Json.indented depth (.object (field :: rest))).toList =
      '\x7b' :: ((Json.newline (depth + 1)).toList ++
        ((Json.indentedFields (depth + 1) (field :: rest)).toList ++
          ((Json.newline depth).toList ++ ['\x7d']))) := by
  simp only [Json.indented, String.toList_append, List.append_assoc]
  rfl

theorem rereads_word (word : String) (simple : Simple word.toList) :
    Rereads word.toList (plainValue word) := by
  have reads := simple.rereads
  rwa [String.ofList_toList] at reads

theorem returns_list {items : List Value} (each : ∀ item ∈ items, ∀ depth, Returns depth item)
    (depth : Nat) : Returns depth (.list items) := by
  cases items with
  | nil =>
    have read (fuel : Nat) (rest : List Char) (enough : 1 < fuel) :
        items? fuel ([']'] ++ rest) = some ([], rest) := by
      obtain ⟨fuel, rfl⟩ := Nat.exists_eq_add_one_of_ne_zero (Nat.ne_zero_of_lt enough)
      rfl
    have text : (Json.indented depth (.list [])).toList = ['[', ']'] := by
      rw [Json.indented]
      rfl
    rw [Returns, text]
    exact @rereads_list [']'] [] read
  | cons item others =>
    rw [Returns, toList_indented_list]
    refine rereads_list fun fuel rest enough => ?_
    simp only [List.length_append, List.length_cons] at enough
    rw [List.append_assoc, (value?_skip (isSpace_newline (depth + 1)) fuel _).2.1,
      List.append_assoc, List.append_assoc]
    exact items?_indentedItems (List.cons_ne_nil _ _) (fun item listed => each item listed _) rest
      fuel (by omega)

theorem returns_object {fields : Fields} (distinct : (fields.map (·.1)).Nodup)
    (words : ∀ field ∈ fields, IsWord field.1)
    (each : ∀ field ∈ fields, ∀ depth, Returns depth field.2) (depth : Nat) :
    Returns depth (.object fields) := by
  cases fields with
  | nil =>
    have read (fuel : Nat) (rest : List Char) (enough : 1 < fuel) :
        fields? fuel (['\x7d'] ++ rest) = some ([], rest) := by
      obtain ⟨fuel, rfl⟩ := Nat.exists_eq_add_one_of_ne_zero (Nat.ne_zero_of_lt enough)
      rfl
    have text : (Json.indented depth (.object [])).toList = ['\x7b', '\x7d'] := by
      rw [Json.indented]
      rfl
    rw [Returns, text]
    exact @rereads_object ['\x7d'] [] read
  | cons field others =>
    rw [Returns, toList_indented_object]
    refine rereads_object fun fuel rest enough => ?_
    simp only [List.length_append, List.length_cons] at enough
    rw [List.append_assoc, (value?_skip (isSpace_newline (depth + 1)) fuel _).2.2,
      List.append_assoc, List.append_assoc]
    exact fields?_indentedFields (List.cons_ne_nil _ _) distinct words
      (fun field listed => each field listed _) rest fuel (by omega)

/-- Plain data in JSON text is read as what JSON keeps of it. -/
theorem Plain.rereads {value : Value} (plain : Plain value) (depth : Nat) :
    Returns depth value := by
  induction plain generalizing depth with
  | null => exact rereads_word "null" (by decide)
  | bool b =>
    cases b with
    | false => exact rereads_word "false" (by decide)
    | true => exact rereads_word "true" (by decide)
  | int n =>
    have reads := rereads_word _ (simple_integerText n)
    rwa [plainValue_integerText] at reads
  | float x =>
    have reads := rereads_word _ (simple_number x)
    rwa [plainValue_number] at reads
  | text word => exact rereads_text word
  | list _ ih => exact returns_list ih depth
  | object distinct words _ ih => exact returns_object distinct words ih depth

/-- A plain object in JSON text is read as what JSON keeps of it. -/
theorem Plain.ofText_indented {fields : Fields} (plain : Plain (.object fields)) :
    ofText (Json.indented 0 (.object fields)) = .ok (worded (.object fields)) := by
  have reads := plain.rereads 0
  obtain ⟨tail, text⟩ : ∃ tail, (Json.indented 0 (.object fields)).toList = '\x7b' :: tail := by
    cases fields with
    | nil => exact ⟨['\x7d'], by rw [Json.indented]; rfl⟩
    | cons field others => exact ⟨_, toList_indented_object 0 field others⟩
  have read := reads.read (2 * (Json.indented 0 (.object fields)).toList.length + 2) [] (by omega)
    (by rintro _ ⟨⟩)
  rw [List.append_nil] at read
  have value : valueOf? (Json.indented 0 (.object fields)).toList =
      some (worded (.object fields)) := by
    unfold valueOf?
    rw [text] at read ⊢
    rw [skipSpace_eq_self (by rfl)]
    simp only []
    rw [read]
    rfl
  have document : read? (Json.indented 0 (.object fields)) = some (worded (.object fields)) := by
    unfold read?
    rw [text] at value ⊢
    rw [skipSpace_eq_self (by rfl)]
    exact value
  rw [ofText, document]
  rfl

end Landform.Document
