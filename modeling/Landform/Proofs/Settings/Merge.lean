import Landform.Proofs.Params
import Landform.Settings.Merge

/-!
# Merging along key paths

What a layer of settings sets is seen at key paths: at the end of a path stands an object, a leaf or
nothing. Two layers agree if at no path one has an object and the other a leaf. Layers that agree
can be merged, and at every path the merged layer shows what the upper one shows, or else what the
lower one shows. The lower layer stays recognizable: its objects are still there, their fields come
first and in their order. A layer that extends another in this way takes it in when it is laid over
it again.

1. `Value.valueAt?`, `Value.sight?`, `Value.leaf?`: what stands at a key path.
2. `Value.Agree`, `Value.Distinct`: which layers fit together.
3. `exists_overlaid`: layers that agree can be merged, with what result.
4. `distinct_mergeValue`: merging keeps the names of fields different.
5. `mergeValue_extends`: merging what extends the lower layer changes nothing.
-/

namespace Landform

namespace Value

/-! ## 1. Key paths -/

/-- Whether a value is an object. -/
def isObject : Value → Bool
  | object _ => true
  | _ => false

/-- The value at a key path. -/
def valueAt? (value : Value) : List String → Option Value
  | [] => some value
  | name :: rest => (value.field? name).bind (·.valueAt? rest)

/-- What a value is to the layers around it: an object, or a leaf with its value. -/
def kindOf (value : Value) : Option Value :=
  if value.isObject then none else some value

/-- What stands at a key path: an object, or a leaf with its value. -/
def sight? (value : Value) (path : List String) : Option (Option Value) :=
  (value.valueAt? path).map kindOf

/-- The leaf at a key path. -/
def leaf? (value : Value) (path : List String) : Option Value :=
  (value.valueAt? path).filter (!·.isObject)

theorem leaf?_eq (value : Value) (path : List String) :
    value.leaf? path = (value.sight? path).join := by
  rw [leaf?, sight?]
  cases value.valueAt? path with
  | none => rfl
  | some found => cases object : found.isObject <;> simp [kindOf, object]

theorem isObject_of_kindOf {u v : Value} (same : kindOf u = kindOf v) :
    u.isObject = v.isObject := by
  unfold kindOf at same
  cases left : u.isObject <;> cases right : v.isObject <;> simp_all

variable {value : Value} {fields : Fields} {name : String} {path : List String}

@[simp]
theorem valueAt?_cons (fields : Fields) (name : String) (path : List String) :
    (object fields).valueAt? (name :: path) = (fields.get? name).bind (·.valueAt? path) := rfl

@[simp]
theorem sight?_cons (fields : Fields) (name : String) (path : List String) :
    (object fields).sight? (name :: path) = (fields.get? name).bind (·.sight? path) := by
  rw [sight?, valueAt?_cons, Option.map_bind]
  rfl

theorem exists_object (object : value.isObject = true) :
    ∃ fields : Fields, value = .object fields := by
  cases value with
  | object fields => exact ⟨fields, rfl⟩
  | null | bool _ | int _ | float _ | text _ | list _ => cases object

theorem field?_leaf (leaf : value.isObject = false) (name : String) : value.field? name = none := by
  cases value with
  | object fields => cases leaf
  | null | bool _ | int _ | float _ | text _ | list _ => rfl

theorem valueAt?_leaf (leaf : value.isObject = false) (name : String) (path : List String) :
    value.valueAt? (name :: path) = none := by
  rw [valueAt?, field?_leaf leaf, Option.bind_none]

theorem isObject_of_valueAt? (found : value.valueAt? path = some (object fields)) :
    value.isObject = true := by
  cases leaf : value.isObject with
  | true => rfl
  | false =>
    cases path with
    | nil => rw [← leaf, Option.some.inj found]; rfl
    | cons name path => rw [valueAt?_leaf leaf] at found; cases found

/-! ## 2. Which layers fit together -/

/-- At no key path one value has an object and the other a leaf. -/
def Agree (a b : Value) : Prop :=
  ∀ path u v, a.valueAt? path = some u → b.valueAt? path = some v → u.isObject = v.isObject

theorem Agree.refl (value : Value) : Agree value value := by
  intro path u v left right
  rw [Option.some.inj (left.symm.trans right)]

theorem Agree.field {base fields : Fields} {name : String} {old value : Value}
    (agree : Agree (.object base) (.object fields)) (lower : base.get? name = some old)
    (upper : fields.get? name = some value) : Agree old value := by
  intro path u v left right
  refine agree (name :: path) u v ?_ ?_
  · rwa [valueAt?_cons, lower]
  · rwa [valueAt?_cons, upper]

theorem Agree.tail {base rest : Fields} {name : String} {value : Value}
    (agree : Agree (.object base) (.object ((name, value) :: rest))) (fresh : name ∉ rest.names)
    (between : Value) : Agree (.object (base.put name between)) (.object rest) := by
  intro path u v lower upper
  cases path with
  | nil =>
    cases lower
    cases upper
    rfl
  | cons other path =>
    have different : name ≠ other := by
      rintro rfl
      rw [valueAt?_cons, Table.get?_eq_none fresh] at upper
      cases upper
    refine agree (other :: path) u v ?_ ?_
    · rwa [valueAt?_cons, Table.get?_put_of_ne _ _ different.symm] at lower
    · rwa [valueAt?_cons, Table.get?_cons, if_neg different]

/-- No object at a key path has two fields of one name. -/
def Distinct (value : Value) : Prop :=
  ∀ path (fields : Fields), value.valueAt? path = some (object fields) → fields.Functional

theorem distinct_leaf (leaf : value.isObject = false) : value.Distinct := by
  intro path fields found
  rw [isObject_of_valueAt? found] at leaf
  cases leaf

theorem Distinct.functional (distinct : (object fields).Distinct) : fields.Functional :=
  distinct [] fields rfl

theorem Distinct.field (distinct : (object fields).Distinct)
    (found : fields.get? name = some value) : value.Distinct := by
  intro path inner at_path
  refine distinct (name :: path) inner ?_
  rw [valueAt?_cons, found]
  exact at_path

theorem distinct_object (functional : fields.Functional)
    (inner : ∀ entry ∈ fields, entry.2.Distinct) : (object fields).Distinct := by
  intro path found at_path
  cases path with
  | nil =>
    cases at_path
    exact functional
  | cons name path =>
    rw [valueAt?_cons] at at_path
    obtain ⟨value, stored, at_path⟩ := Option.bind_eq_some_iff.mp at_path
    obtain ⟨key, listed⟩ := Table.mem_of_get? stored
    exact inner (key, value) listed path found at_path

theorem distinct_nil : (object []).Distinct :=
  distinct_object List.nodup_nil (List.forall_mem_nil _)

theorem distinct_single (inner : value.Distinct) (name : String) :
    (object [(name, value)]).Distinct :=
  distinct_object (List.nodup_singleton name) (List.forall_mem_singleton.mpr inner)

theorem Distinct.tail {entry : String × Value} {rest : Fields}
    (distinct : (object (entry :: rest)).Distinct) : (object rest).Distinct := by
  refine distinct_object (List.nodup_cons.mp distinct.functional).2 fun later listed => ?_
  exact distinct.field (distinct.functional.get?_iff.mpr (List.mem_cons_of_mem _ listed))

theorem Distinct.head {entry : String × Value} {rest : Fields}
    (distinct : (object (entry :: rest)).Distinct) : entry.2.Distinct :=
  distinct.field (distinct.functional.get?_iff.mpr List.mem_cons_self)

theorem Distinct.put (distinct : (object fields).Distinct) (inner : value.Distinct)
    (name : String) : (object (fields.put name value)).Distinct := by
  have functional := distinct.functional.put name value
  refine distinct_object functional fun entry listed => ?_
  have stored := functional.get?_iff.mpr listed
  by_cases same : entry.1 = name
  · rw [same, Table.get?_put] at stored
    rwa [← Option.some.inj stored]
  · rw [Table.get?_put_of_ne _ _ same] at stored
    exact distinct.field stored

/-- The objects of a value are there in another one, with their fields first and in their order. -/
def Extends (value extended : Value) : Prop :=
  ∀ path (fields : Fields), value.valueAt? path = some (object fields) →
    ∃ fields' : Fields, extended.valueAt? path = some (object fields') ∧
      fields.names <+: fields'.names

theorem Extends.refl (value : Value) : Extends value value :=
  fun _ fields found => ⟨fields, found, List.prefix_rfl⟩

theorem Extends.trans {a b c : Value} (first : Extends a b) (second : Extends b c) :
    Extends a c := by
  intro path fields found
  obtain ⟨_, found, names⟩ := first path fields found
  obtain ⟨fields', found, names'⟩ := second path _ found
  exact ⟨fields', found, names.trans names'⟩

theorem Extends.field {base fields : Fields} {name : String} {old value : Value}
    (extended : Extends (.object base) (.object fields)) (lower : base.get? name = some old)
    (upper : fields.get? name = some value) : Extends old value := by
  intro path inner found
  have there := extended (name :: path) inner (by rwa [valueAt?_cons, lower])
  rwa [valueAt?_cons, upper] at there

theorem extends_leaf (leaf : value.isObject = false) (extended : Value) :
    Extends value extended := by
  intro path fields found
  rw [isObject_of_valueAt? found] at leaf
  cases leaf

mutual

/-- Whether values agree, by their fields. -/
def agrees (below : Value) : Value → Bool
  | object fields => match below with
    | object base => agreesAt base fields
    | _ => false
  | _ => !below.isObject

/-- Whether fields agree with those of the same names. -/
def agreesAt (base : Fields) : List (String × Value) → Bool
  | [] => true
  | (name, value) :: rest =>
    (match Table.get? base name with
      | some old => agrees old value
      | none => true) && agreesAt base rest

end

theorem agrees_of_get? {base : Fields} {old : Value} (test : agreesAt base fields = true)
    (lower : base.get? name = some old) (upper : fields.get? name = some value) :
    agrees old value = true := by
  induction fields with
  | nil => cases upper
  | cons entry rest ih =>
    obtain ⟨key, first⟩ := entry
    rw [agreesAt, Bool.and_eq_true] at test
    obtain ⟨here, later⟩ := test
    rw [Table.get?_cons] at upper
    by_cases same : key = name
    · subst same
      rw [if_pos rfl] at upper
      cases upper
      rwa [lower] at here
    · rw [if_neg same] at upper
      exact ih later upper

theorem agree_of_agrees {a b : Value} (test : agrees a b = true) : Agree a b := by
  intro path
  induction path generalizing a b with
  | nil =>
    rintro u v ⟨⟩ ⟨⟩
    cases b with
    | object fields =>
      cases a with
      | object base => rfl
      | null | bool _ | int _ | float _ | text _ | list _ => cases test
    | null | bool _ | int _ | float _ | text _ | list _ => exact (Bool.not_eq_true' _).mp test
  | cons name path ih =>
    intro u v left right
    obtain ⟨old, lower, old_at⟩ := Option.bind_eq_some_iff.mp left
    obtain ⟨value, upper, value_at⟩ := Option.bind_eq_some_iff.mp right
    cases a with
    | object base =>
      cases b with
      | object fields => exact ih (agrees_of_get? test lower upper) u v old_at value_at
      | null | bool _ | int _ | float _ | text _ | list _ => cases test
    | null | bool _ | int _ | float _ | text _ | list _ => cases lower

end Value

namespace Settings

open Value

/-! ## 3. Merging layers that agree -/

/-- A value merged from one that is laid over another: at every key path it shows what the upper one
shows there, or else what the lower one shows, and it extends the lower one. -/
structure Overlaid (below above merged : Value) : Prop where
  sight : ∀ path, merged.sight? path = (above.sight? path).or (below.sight? path)
  extended : Extends below merged

theorem mergeValue_leaf {below above : Value} (lower : below.isObject = false)
    (upper : above.isObject = false) : mergeValue below above = .ok above := by
  cases above with
  | object fields => cases upper
  | list items =>
    cases below with
    | object base => cases lower
    | null | bool _ | int _ | float _ | text _ | list _ => rfl
  | null | bool _ | int _ | float _ | text _ => rfl

/-- A leaf takes the place of a leaf. -/
theorem overlaid_leaf {below above : Value} (lower : below.isObject = false)
    (upper : above.isObject = false) : Overlaid below above above where
  sight path := by
    cases path with
    | nil => rfl
    | cons name path =>
      rw [sight?, sight?, valueAt?_leaf lower, valueAt?_leaf upper]
      rfl
  extended := extends_leaf lower above

section Fields

variable {base rest merged : Fields} {name : String} {value between : Value}

theorem extends_put (inner : ∀ old, base.get? name = some old → Extends old between) :
    Extends (.object base) (.object (base.put name between)) := by
  intro path fields found
  cases path with
  | nil =>
    cases found
    refine ⟨_, rfl, ?_⟩
    by_cases used : name ∈ base.names
    · exact ⟨[], by rw [List.append_nil, Table.names_put_of_mem used]⟩
    · rw [Table.put_of_notMem used, Table.names, Table.names, List.map_append]
      exact List.prefix_append _ _
  | cons other path =>
    rw [valueAt?_cons] at found
    obtain ⟨old, stored, found⟩ := Option.bind_eq_some_iff.mp found
    rw [valueAt?_cons]
    by_cases same : other = name
    · subst same
      rw [Table.get?_put]
      exact inner old stored path fields found
    · rw [Table.get?_put_of_ne _ _ same, stored]
      exact ⟨fields, found, List.prefix_rfl⟩

/-- Merging field by field: the first field is merged with what is there, the others with the
result. -/
theorem Overlaid.cons (fresh : name ∉ rest.names)
    (sight : ∀ path, between.sight? path =
      (value.sight? path).or ((base.get? name).bind (·.sight? path)))
    (inner : ∀ old, base.get? name = some old → Extends old between)
    (later : Overlaid (.object (base.put name between)) (.object rest) (.object merged)) :
    Overlaid (.object base) (.object ((name, value) :: rest)) (.object merged) where
  sight path := by
    cases path with
    | nil => rfl
    | cons other path =>
      have shown := later.sight (other :: path)
      rw [sight?_cons, sight?_cons, sight?_cons] at shown
      rw [sight?_cons, sight?_cons, sight?_cons, shown, Table.get?_cons]
      by_cases same : name = other
      · subst same
        rw [if_pos rfl, Table.get?_eq_none fresh, Table.get?_put]
        exact sight path
      · rw [if_neg same, Table.get?_put_of_ne _ _ (Ne.symm same)]
  extended := (extends_put inner).trans later.extended

end Fields

/-- A value laid over what stands at its place, if anything does. -/
def mergeInto : Option Value → Value → Except Error Value
  | some old, value => mergeValue old value
  | none, value => .ok value

theorem mergeFields_cons (base : Fields) (name : String) (value : Value) (rest : Fields) :
    mergeFields base ((name, value) :: rest) =
      mergeInto (base.get? name) value >>= fun between =>
        mergeFields (base.put name between) rest := by
  rw [mergeFields]
  cases base.get? name <;> rfl

mutual

/-- Values that agree can be merged. -/
theorem exists_overlaid : ∀ {above below : Value}, Agree below above → above.Distinct →
    ∃ merged, mergeValue below above = .ok merged ∧ Overlaid below above merged
  | .object _, below, agree, distinct => by
    obtain ⟨base, rfl⟩ := exists_object (agree [] below _ rfl rfl)
    obtain ⟨merged, done, overlaid⟩ := exists_overlaid_fields agree distinct
    exact ⟨.object merged, by rw [mergeValue, done]; rfl, overlaid⟩
  | .null, below, agree, _ | .bool _, below, agree, _ | .int _, below, agree, _
  | .float _, below, agree, _ | .text _, below, agree, _ | .list _, below, agree, _ =>
    have lower : below.isObject = false := agree [] _ _ rfl rfl
    ⟨_, mergeValue_leaf lower rfl, overlaid_leaf lower rfl⟩

/-- Objects that agree can be merged, field by field. -/
theorem exists_overlaid_fields : ∀ {fields base : Fields},
    Agree (.object base) (.object fields) → (Value.object fields).Distinct →
    ∃ merged, mergeFields base fields = .ok merged ∧
      Overlaid (.object base) (.object fields) (.object merged)
  | [], base, _, _ => by
    refine ⟨base, rfl, ⟨fun path => ?_, Extends.refl _⟩⟩
    cases path <;> rfl
  | (name, value) :: rest, base, agree, distinct => by
    have fresh : name ∉ Table.names rest := (List.nodup_cons.mp distinct.functional).1
    obtain ⟨between, step, sight, inner⟩ : ∃ between,
        mergeInto (base.get? name) value = .ok between ∧
        (∀ path, between.sight? path =
          (value.sight? path).or ((base.get? name).bind (·.sight? path))) ∧
        ∀ old, base.get? name = some old → Extends old between := by
      cases stored : base.get? name with
      | none => exact ⟨value, rfl, fun path => (Option.or_none).symm, fun _ none => nomatch none⟩
      | some old =>
        obtain ⟨between, done, overlaid⟩ :=
          exists_overlaid (agree.field stored (Table.get?_cons_self ..)) distinct.head
        refine ⟨between, done, overlaid.sight, fun found same => ?_⟩
        rw [← Option.some.inj same]
        exact overlaid.extended
    obtain ⟨merged, done, later⟩ := exists_overlaid_fields (agree.tail fresh between) distinct.tail
    refine ⟨merged, ?_, .cons fresh sight inner later⟩
    rw [mergeFields_cons]
    exact Except.bind_eq_ok.mpr ⟨between, step, done⟩

end

/-! ## 4. Names of fields -/

mutual

/-- Merging keeps the names of the fields of every object different, whether or not the values
agree. -/
theorem distinct_mergeValue : ∀ {above below merged : Value}, below.Distinct → above.Distinct →
    mergeValue below above = .ok merged → merged.Distinct
  | .object _, .object _, _, lower, upper, done => by
    rw [mergeValue] at done
    obtain ⟨fields, step, rfl⟩ := Except.map_eq_ok.mp done
    exact distinct_mergeFields lower upper step
  | .object _, .null, _, _, upper, rfl | .object _, .bool _, _, _, upper, rfl
  | .object _, .int _, _, _, upper, rfl | .object _, .float _, _, _, upper, rfl
  | .object _, .text _, _, _, upper, rfl => upper
  | .list items, below, merged, _, upper, done => by
    cases below with
    | object base => cases done
    | null | bool _ | int _ | float _ | text _ | list _ =>
      cases done
      exact upper
  | .null, _, _, _, upper, rfl | .bool _, _, _, _, upper, rfl | .int _, _, _, _, upper, rfl
  | .float _, _, _, _, upper, rfl | .text _, _, _, _, upper, rfl => upper

theorem distinct_mergeFields : ∀ {fields base merged : Fields}, (Value.object base).Distinct →
    (Value.object fields).Distinct → mergeFields base fields = .ok merged →
    (Value.object merged).Distinct
  | [], _, _, lower, _, rfl => lower
  | (name, value) :: rest, base, merged, lower, upper, done => by
    rw [mergeFields_cons] at done
    obtain ⟨between, step, done⟩ := Except.bind_eq_ok.mp done
    refine distinct_mergeFields (lower.put ?_ name) upper.tail done
    cases stored : base.get? name with
    | none =>
      rw [stored] at step
      exact Except.ok.inj step ▸ upper.head
    | some old =>
      rw [stored] at step
      exact distinct_mergeValue (lower.field stored) upper.head step

end

/-! ## 5. Merging again -/

/-- Fields laid over those that come first among them: each is merged with the one in its place. -/
theorem mergeFields_prefix {before fields base : Fields}
    (functional : Table.Functional (before ++ fields)) (first : base.names <+: fields.names)
    (same : ∀ name old value, base.get? name = some old → fields.get? name = some value →
      mergeValue old value = .ok value) :
    mergeFields (before ++ base) fields = .ok (before ++ fields) := by
  induction fields generalizing before base with
  | nil =>
    have none : base = [] := List.map_eq_nil_iff.mp (List.prefix_nil.mp first)
    rw [none]
    rfl
  | cons entry rest ih =>
    obtain ⟨name, value⟩ := entry
    have next : before ++ [(name, value)] ++ rest = before ++ (name, value) :: rest := by simp
    have names : (before.map (·.1) ++ ((name, value) :: rest).map (·.1)).Nodup := by
      rw [← List.map_append]
      exact functional
    obtain ⟨-, distinct, apart⟩ := List.nodup_append.mp names
    have earlier : name ∉ Table.names before := fun used =>
      apart _ used _ List.mem_cons_self rfl
    have later : name ∉ Table.names rest := (List.nodup_cons.mp distinct).1
    rw [mergeFields_cons, Table.get?_append_of_notMem earlier]
    cases base with
    | nil =>
      have put : Table.put (before ++ []) name value = before ++ [(name, value)] ++ [] := by
        rw [List.append_nil, List.append_nil, Table.put_of_notMem earlier]
      show mergeFields (Table.put (before ++ []) name value) rest = _
      rw [put, ← next]
      exact ih (next.symm ▸ functional) List.nil_prefix fun _ _ _ stored => nomatch stored
    | cons entry base =>
      obtain ⟨key, old⟩ := entry
      obtain ⟨rfl, others⟩ := List.cons_prefix_cons.mp first
      have put : Table.put (before ++ (key, old) :: base) key value =
          before ++ [(key, value)] ++ base := by
        rw [Table.put_append_of_notMem earlier, Table.put, if_pos (beq_self_eq_true key)]
        simp
      rw [Table.get?_cons_self, mergeInto,
        same key old value (Table.get?_cons_self ..) (Table.get?_cons_self ..)]
      show mergeFields (Table.put (before ++ (key, old) :: base) key value) rest = _
      rw [put, ← next]
      refine ih (next.symm ▸ functional) others fun other old' value' lower upper => ?_
      have different : key ≠ other := by
        rintro rfl
        rw [Table.get?_eq_none later] at upper
        cases upper
      refine same other old' value' ?_ ?_
      · rwa [Table.get?_cons, if_neg different]
      · rwa [Table.get?_cons, if_neg different]

/-- A value that extends another stays as it is when it is laid over that one. -/
theorem mergeValue_extends : ∀ {extended value : Value}, Extends value extended →
    Agree value extended → extended.Distinct → mergeValue value extended = .ok extended
  | .object fields, value, extends_, agree, distinct => by
    obtain ⟨base, rfl⟩ := exists_object (agree [] value _ rfl rfl)
    have same : ∀ name old inner, base.get? name = some old →
        Table.get? fields name = some inner → mergeValue old inner = .ok inner := by
      intro name old inner lower upper
      obtain ⟨key, listed⟩ := Table.mem_of_get? upper
      exact mergeValue_extends (extends_.field lower upper) (agree.field lower upper)
        (distinct.field upper)
    obtain ⟨fields', first, names⟩ := extends_ [] base rfl
    cases first
    have merged : mergeFields ([] ++ base) fields = .ok ([] ++ fields) :=
      mergeFields_prefix distinct.functional names same
    rw [mergeValue, ← List.nil_append base, merged]
    rfl
  | .null, value, _, agree, _ | .bool _, value, _, agree, _ | .int _, value, _, agree, _
  | .float _, value, _, agree, _ | .text _, value, _, agree, _ | .list _, value, _, agree, _ =>
    mergeValue_leaf (agree [] value _ rfl rfl) rfl
termination_by extended => sizeOf extended
decreasing_by
  have smaller := List.sizeOf_lt_of_mem listed
  simp only [Value.object.sizeOf_spec, Prod.mk.sizeOf_spec] at smaller ⊢
  omega

end Settings

end Landform
