import Landform.Proofs.Settings.Chains
import Landform.Settings.Override

/-!
# Overrides as layers

An override alone sets a single value, at the end of a way of names. That is a layer of its own. If
the overrides of a list agree with each other, the layer of the list is what their layers give on
top of each other, the first one lowest. Otherwise an object replaces what is on its way.

1. `layerOf?`: the layer of an override.
2. `assign_nest`: setting a value lays its layer over the fields.
3. `Unbased`: fields that name no base stay so.
4. `exists_ofOverrides`: the layer of a list.
-/

namespace Landform.Settings

open Value

/-! ## 1. The layer of an override -/

/-- The names on the way to the value that an override sets. -/
def wayOf (override : String) : List String :=
  Text.split '.' (sides override).1

/-- The value that an override sets, if it can be read. -/
def valueOf? (override : String) : Option Value :=
  match (sides override).2 with
  | none => some .null
  | some given => Document.read? given

/-- A value at the end of a way of names, inside objects of one field each. -/
def nest (value : Value) : List String → Value
  | [] => value
  | name :: rest => .object [(name, nest value rest)]

/-- The layer that holds the value of an override and nothing else. -/
def layerOf? (override : String) : Option Value :=
  (valueOf? override).map (nest · (wayOf override))

variable {fields fields' : Fields} {override name : String} {value single : Value}
  {way : List String}

theorem applyOverride_eq (fields : Fields) (override : String) :
    applyOverride fields override = match valueOf? override with
      | some value => assign value (wayOf override) fields
      | none => .error .unreadable := by
  unfold applyOverride valueOf? wayOf
  obtain ⟨way, _ | given⟩ := sides override
  · rfl
  · dsimp only
    cases Document.read? given <;> rfl

theorem distinct_valueOf? (read : valueOf? override = some value) : value.Distinct := by
  unfold valueOf? at read
  split at read
  · cases read
    exact distinct_leaf rfl
  · exact Document.distinct_read? read

theorem wayOf_ne_nil (override : String) : wayOf override ≠ [] := by
  have parts (text : List Char) : Text.partsAt '.' text ≠ [] := by
    cases text with
    | nil => exact List.cons_ne_nil _ _
    | cons c rest =>
      rw [Text.partsAt]
      split
      · exact List.cons_ne_nil _ _
      · split <;> exact List.cons_ne_nil _ _
  exact fun none => parts _ (List.map_eq_nil_iff.mp none)

theorem distinct_nest (inner : value.Distinct) (way : List String) :
    (nest value way).Distinct := by
  induction way with
  | nil => exact inner
  | cons name rest ih => exact distinct_single ih name

theorem layered_layerOf? (read : layerOf? override = some single) : Layered [single] single := by
  obtain ⟨value, given, rfl⟩ := Option.map_eq_some_iff.mp read
  refine .single ?_ (distinct_nest (distinct_valueOf? given) _)
  cases way : wayOf override with
  | nil => exact absurd way (wayOf_ne_nil override)
  | cons name rest => rfl

/-! ## 2. Setting a value -/

/-- The fields of what stands on a way; whatever is no object has none. -/
def innerFields : Option Value → Fields
  | some (.object inner) => inner
  | _ => []

theorem assign_cons_cons (value : Value) (name second : String) (rest : List String)
    (fields : Fields) : assign value (name :: second :: rest) fields =
      (assign value (second :: rest) (innerFields (fields.get? name))).map fun inner =>
        fields.put name (.object inner) := by
  rw [assign]
  · rfl
  · exact List.cons_ne_nil _ _

theorem mergeFields_single (fields : Fields) (name : String) (value : Value) :
    mergeFields fields [(name, value)] =
      (mergeInto (fields.get? name) value).map (fields.put name) := by
  rw [mergeFields_cons]
  rfl

/-- Where an override agrees with the fields, setting its value lays its layer over them. -/
theorem assign_nest (filled : way ≠ []) (agree : Agree (.object fields) (nest value way)) :
    (assign value way fields).map .object = mergeValue (.object fields) (nest value way) := by
  induction way generalizing fields with
  | nil => exact absurd rfl filled
  | cons name rest ih =>
    cases rest with
    | nil => rfl
    | cons second rest =>
      -- the merge of the field, with the object that the way goes through or with a new one
      have field : mergeInto (fields.get? name) (nest value (second :: rest)) =
          (assign value (second :: rest) (innerFields (fields.get? name))).map .object := by
        cases stored : fields.get? name with
        | none =>
          have fresh : Agree (.object []) (nest value (second :: rest)) := by
            intro path u v left right
            cases path with
            | nil => cases left; cases right; rfl
            | cons _ _ => cases left
          exact (ih (List.cons_ne_nil _ _) fresh).symm
        | some old =>
          have fit := agree.field stored (Table.get?_cons_self ..)
          obtain ⟨inner, rfl⟩ := exists_object (fit [] old _ rfl rfl)
          exact (ih (List.cons_ne_nil _ _) fit).symm
      rw [assign_cons_cons, nest, mergeValue, mergeFields_single, field]
      cases assign value (second :: rest) _ <;> rfl

/-! ## 3. Fields that name no base -/

/-- Fields of different names, on every level, of which none names a base. -/
structure Unbased (fields : Fields) : Prop where
  distinct : (Value.object fields).Distinct
  unbased : fields.get? baseName = none

theorem distinct_assign (inner : value.Distinct) (distinct : (Value.object fields).Distinct)
    (done : assign value way fields = .ok fields') : (Value.object fields').Distinct := by
  induction way generalizing fields fields' with
  | nil =>
    cases done
    exact distinct
  | cons name rest ih =>
    cases rest with
    | nil => exact distinct_mergeFields distinct (distinct_single inner name) done
    | cons second rest =>
      rw [assign_cons_cons] at done
      obtain ⟨between, step, rfl⟩ := Except.map_eq_ok.mp done
      refine distinct.put (ih ?_ step) name
      unfold innerFields
      split
      case h_1 stored => exact distinct.field stored
      case h_2 => exact distinct_nil

theorem get?_assign (done : assign value way fields = .ok fields') (other : way.head? ≠ some name) :
    fields'.get? name = fields.get? name := by
  match way with
  | [] =>
    cases done
    rfl
  | [first] =>
    rw [assign, mergeFields_single] at done
    obtain ⟨merged, -, rfl⟩ := Except.map_eq_ok.mp done
    exact Table.get?_put_of_ne _ _ fun same => other (congrArg some same.symm)
  | first :: second :: rest =>
    rw [assign_cons_cons] at done
    obtain ⟨between, -, rfl⟩ := Except.map_eq_ok.mp done
    exact Table.get?_put_of_ne _ _ fun same => other (congrArg some same.symm)

theorem Unbased.applyOverride (unbased : Unbased fields)
    (other : (wayOf override).head? ≠ some baseName)
    (done : applyOverride fields override = .ok fields') : Unbased fields' := by
  rw [applyOverride_eq] at done
  cases read : valueOf? override with
  | none => rw [read] at done; cases done
  | some value =>
    rw [read] at done
    exact ⟨distinct_assign (distinct_valueOf? read) unbased.distinct done,
      (get?_assign done other).trans unbased.unbased⟩

variable {overrides : List String} {top : Value} {layers singles : List Value}

theorem Unbased.foldlM (unbased : Unbased fields)
    (others : ∀ override ∈ overrides, (wayOf override).head? ≠ some baseName)
    (done : overrides.foldlM Settings.applyOverride fields = .ok fields') : Unbased fields' := by
  induction overrides generalizing fields with
  | nil =>
    cases done
    exact unbased
  | cons override rest ih =>
    obtain ⟨other, others⟩ := List.forall_mem_cons.mp others
    rw [List.foldlM_cons] at done
    obtain ⟨between, step, done⟩ := Except.bind_eq_ok.mp done
    exact ih (unbased.applyOverride other step) others done

theorem unbased_nil : Unbased [] :=
  ⟨distinct_nil, rfl⟩

/-- Overrides make a layer that names no base. -/
theorem layered_ofOverrides
    (others : ∀ override ∈ overrides, (wayOf override).head? ≠ some baseName)
    (done : ofOverrides overrides = .ok top) :
    Layered [top] top ∧ top.field? baseName = none := by
  obtain ⟨fields, step, same⟩ := Except.bind_eq_ok.mp done
  cases same
  obtain ⟨distinct, unbased⟩ := unbased_nil.foldlM others step
  exact ⟨.single rfl distinct, unbased⟩

/-! ## 4. Overrides that agree -/

/-- An override that agrees with all layers so far comes on top of them. -/
theorem Layered.applyOverride (layered : Layered layers (.object fields))
    (unbased : fields.get? baseName = none) (read : layerOf? override = some single)
    (fit : ∀ layer ∈ layers, Agree single layer) :
    ∃ fields', applyOverride fields override = .ok fields' ∧
      Layered (single :: layers) (.object fields') := by
  have upper := layered_layerOf? read
  obtain ⟨value, given, rfl⟩ := Option.map_eq_some_iff.mp read
  obtain ⟨merged, laid, composed, -⟩ :=
    layered.merge upper unbased (List.forall_mem_singleton.mpr fit)
  have agree := layered.agree upper unbased (List.forall_mem_singleton.mpr fit)
  rw [← assign_nest (wayOf_ne_nil override) agree] at laid
  obtain ⟨fields', done, rfl⟩ := Except.map_eq_ok.mp laid
  refine ⟨fields', ?_, composed⟩
  rw [applyOverride_eq, given]
  exact done

theorem Layered.foldlM (layered : Layered layers (.object fields)) (unbased : Unbased fields)
    (others : ∀ override ∈ overrides, (wayOf override).head? ≠ some baseName)
    (read : overrides.mapM layerOf? = some singles)
    (fit : (singles.reverse ++ layers).Pairwise Agree) :
    ∃ fields', overrides.foldlM Settings.applyOverride fields = .ok fields' ∧
      Layered (singles.reverse ++ layers) (.object fields') := by
  induction overrides generalizing fields layers singles with
  | nil =>
    cases read
    exact ⟨fields, rfl, layered⟩
  | cons override rest ih =>
    rw [List.mapM_cons] at read
    obtain ⟨single, first, read⟩ := Option.bind_eq_some_iff.mp read
    obtain ⟨later, following, same⟩ := Option.bind_eq_some_iff.mp read
    cases same
    obtain ⟨other, others⟩ := List.forall_mem_cons.mp others
    rw [List.reverse_cons, List.append_assoc, List.singleton_append] at fit ⊢
    have here := (List.pairwise_cons.mp (List.pairwise_append.mp fit).2.1).1
    obtain ⟨between, step, composed⟩ := layered.applyOverride unbased.unbased first here
    obtain ⟨fields', done, composed⟩ :=
      ih composed (unbased.applyOverride other step) others following fit
    exact ⟨fields', Except.bind_eq_ok.mpr ⟨between, step, done⟩, composed⟩

/-- The layer of overrides that agree with each other is theirs on top of each other. -/
theorem exists_ofOverrides
    (others : ∀ override ∈ overrides, (wayOf override).head? ≠ some baseName)
    (read : overrides.mapM layerOf? = some singles) (fit : singles.reverse.Pairwise Agree) :
    ∃ top, ofOverrides overrides = .ok top ∧ Layered singles.reverse top := by
  have nothing : Layered [] (.object []) := ⟨rfl, fun _ => rfl, unbased_nil.distinct⟩
  obtain ⟨fields, done, layered⟩ :=
    nothing.foldlM unbased_nil others read (by rwa [List.append_nil])
  rw [List.append_nil] at layered
  exact ⟨.object fields, Except.bind_eq_ok.mpr ⟨fields, done, rfl⟩, layered⟩

end Landform.Settings
