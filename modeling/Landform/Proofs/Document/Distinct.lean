import Landform.Document.Block
import Landform.Proofs.Settings.Merge

/-!
# Names in documents

A document in which an object names a field twice is not read. So in what is read, between brackets
as in block layout, the fields of every object have different names.

1. `distinct_nested`, `distinct_valueOf?`: values between brackets.
2. `distinct_ofLines?`: values in block layout.
3. `distinct_read?`, `distinct_ofText`: whole documents.
-/

namespace Landform.Document

open Value

/-! ## 1. Between brackets -/

theorem isObject_plainValue (word : String) : (plainValue word).isObject = false := by
  unfold plainValue
  split_ifs
  · rfl
  · rfl
  · rfl
  · split
    · rfl
    · split <;> rfl

/-- After a field comes the end of the object, or further fields of which none has its name. -/
theorem distinct_rest {depth : Nat} {name : String} {value : Value} {text rest : List Char}
    {fields : Fields}
    (others : ∀ text fields rest, fields? depth text = some (fields, rest) →
      (Value.object fields).Distinct) (inner : value.Distinct)
    (read : (match skipSpace text with
      | ',' :: text => do
        let (fields, rest) ← fields? depth text
        if (Table.get? fields name).isSome then none
        return ((name, value) :: fields, rest)
      | '\x7d' :: rest => return ([(name, value)], rest)
      | _ => none) = some (fields, rest)) : (Value.object fields).Distinct := by
  split at read
  · obtain ⟨⟨later, rest⟩, found, read⟩ := Option.bind_eq_some_iff.mp read
    dsimp only at read
    have distinct := others _ _ _ found
    split at read
    case isTrue => cases read
    case isFalse unused =>
      cases read
      have fresh : Table.get? later name = none := by simpa using unused
      refine distinct_object (List.nodup_cons.mpr ⟨?_, distinct.functional⟩)
        (List.forall_mem_cons.mpr ⟨inner, fun entry listed => ?_⟩)
      · intro used
        obtain ⟨⟨_, other⟩, listed, rfl⟩ := List.mem_map.mp used
        rw [distinct.functional.get?_iff.mpr listed] at fresh
        cases fresh
      · exact distinct.field (distinct.functional.get?_iff.mpr listed)
  · cases read
    exact distinct_single inner name
  · cases read

/-- What is read between brackets, by the nesting that the reader allows: each step into a list or
an object allows one less. -/
theorem distinct_nested (depth : Nat) :
    (∀ text value rest, value? depth text = some (value, rest) → value.Distinct) ∧
      ∀ text fields rest, fields? depth text = some (fields, rest) →
        (Value.object fields).Distinct := by
  induction depth with
  | zero => exact ⟨nofun, nofun⟩
  | succ depth ih =>
    obtain ⟨values, fields⟩ := ih
    constructor
    · intro text value rest read
      rw [value?] at read
      split at read
      case h_1 =>
        obtain ⟨_, _, read⟩ := Option.bind_eq_some_iff.mp read
        cases read
        exact distinct_leaf rfl
      case h_2 =>
        obtain ⟨_, inner, read⟩ := Option.bind_eq_some_iff.mp read
        cases read
        exact fields _ _ _ inner
      case h_3 =>
        split at read
        · cases read
          exact distinct_leaf rfl
        · obtain ⟨_, _, read⟩ := Option.bind_eq_some_iff.mp read
          cases read
          exact distinct_leaf (isObject_plainValue _)
    · intro text fields' rest read
      rw [fields?] at read
      split at read
      case h_1 =>
        cases read
        exact distinct_nil
      case h_2 =>
        obtain ⟨⟨name, rest⟩, _, read⟩ := Option.bind_eq_some_iff.mp read
        dsimp only at read
        split at read
        · obtain ⟨⟨value, rest⟩, given, read⟩ := Option.bind_eq_some_iff.mp read
          exact distinct_rest fields (values _ _ _ given) read
        · obtain ⟨⟨value, rest⟩, given, read⟩ := Option.bind_eq_some_iff.mp read
          cases given
          exact distinct_rest fields (distinct_leaf rfl) read

theorem distinct_valueOf? {text : List Char} {value : Value} (read : valueOf? text = some value) :
    value.Distinct := by
  have bracketed {value' : Value} {rest : List Char}
      (found : value? (2 * text.length + 2) text = some (value', rest))
      (ended : (if isOver rest then some value' else none) = some value) : value.Distinct := by
    obtain ⟨-, same⟩ := Option.ite_none_right_eq_some.mp ended
    exact Option.some.inj same ▸ (distinct_nested _).1 _ _ _ found
  rw [valueOf?] at read
  split at read
  case h_1 =>
    obtain ⟨⟨value', rest⟩, found, ended⟩ := Option.bind_eq_some_iff.mp read
    exact bracketed found ended
  case h_2 =>
    obtain ⟨⟨value', rest⟩, found, ended⟩ := Option.bind_eq_some_iff.mp read
    exact bracketed found ended
  case h_3 =>
    split at read
    · obtain ⟨-, same⟩ := Option.ite_none_right_eq_some.mp read
      exact Option.some.inj same ▸ distinct_leaf rfl
    · obtain ⟨⟨word, rest⟩, _, ended⟩ := Option.bind_eq_some_iff.mp read
      obtain ⟨-, same⟩ := Option.ite_none_right_eq_some.mp ended
      exact Option.some.inj same ▸ distinct_leaf (isObject_plainValue word)

/-! ## 2. In block layout -/

theorem forall_mem_of_mapM {α β : Type} {f : α → Option β} {p : β → Prop}
    (each : ∀ a b, f a = some b → p b) {items : List α} {results : List β}
    (done : items.mapM f = some results) : ∀ b ∈ results, p b := by
  induction items generalizing results with
  | nil =>
    cases done
    exact List.forall_mem_nil p
  | cons a rest ih =>
    rw [List.mapM_cons] at done
    obtain ⟨b, first, done⟩ := Option.bind_eq_some_iff.mp done
    obtain ⟨others, later, done⟩ := Option.bind_eq_some_iff.mp done
    cases done
    exact List.forall_mem_cons.mpr ⟨each a b first, ih later⟩

theorem distinct_ofLines? {depth : Nat} {lines : List Line} {value : Value}
    (read : ofLines? depth lines = some value) : value.Distinct := by
  induction depth generalizing lines value with
  | zero => cases read
  | succ depth ih =>
    cases lines with
    | nil =>
      cases read
      exact distinct_leaf rfl
    | cons first rest =>
      rw [ofLines?] at read
      split at read
      case isTrue => cases read
      case isFalse =>
      split at read
      case isTrue =>
        dsimp only at read
        split at read
        case isTrue => cases read
        case isFalse =>
          obtain ⟨items, _, read⟩ := Option.bind_eq_some_iff.mp read
          cases read
          exact distinct_leaf rfl
      case isFalse =>
      split at read
      case isTrue =>
        obtain ⟨fields, entries, read⟩ := Option.bind_eq_some_iff.mp read
        obtain ⟨functional, read⟩ := Option.ite_none_right_eq_some.mp read
        cases read
        refine distinct_object functional (forall_mem_of_mapM (fun entry field read => ?_) entries)
        obtain ⟨⟨name, inline⟩, _, read⟩ := Option.bind_eq_some_iff.mp read
        dsimp only at read
        split at read
        · obtain ⟨value, inner, read⟩ := Option.bind_eq_some_iff.mp read
          cases read
          exact ih inner
        · obtain ⟨-, read⟩ := Option.ite_none_right_eq_some.mp read
          obtain ⟨value, inner, read⟩ := Option.bind_eq_some_iff.mp read
          cases read
          exact distinct_valueOf? inner
      case isFalse =>
        obtain ⟨-, read⟩ := Option.ite_none_right_eq_some.mp read
        exact distinct_valueOf? read

/-! ## 3. Documents -/

theorem distinct_read? {text : String} {value : Value} (read : read? text = some value) :
    value.Distinct := by
  rw [read?] at read
  split at read
  · exact distinct_valueOf? read
  · exact distinct_valueOf? read
  · exact distinct_ofLines? read

/-- What a document holds has, in every object, fields of different names. -/
theorem distinct_ofText {text : String} {value : Value} (done : ofText text = .ok value) :
    value.Distinct := by
  rw [ofText] at done
  split at done
  case h_1 => cases done
  case h_2 =>
    cases done
    exact distinct_nil
  case h_3 name _ =>
    cases done
    exact distinct_single (distinct_leaf rfl) name
  case h_4 read =>
    cases done
    exact distinct_read? read
  case h_5 items read =>
    cases done
    exact distinct_leaf rfl
  case h_6 => cases done

end Landform.Document
