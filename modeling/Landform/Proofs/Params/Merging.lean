import Landform.Proofs.Params.Fields

/-!
# Merging updates

Merging updates into parameters is a partial update where the last writer wins. An update names a
field if its key becomes the name of the field in the plain style, whatever its own spelling. What
names no field is handed back. Stored parameters are read as they are, so a field that is not named
cannot fail, and stays as it is.

1. `Fields.lastNamed?`, `Params.last?_known`: which update counts.
2. `Params.Attained`: parameters that come from defaults by merges.
3. `Params.merge_eq`: a merge reads all fields, also when no field is named.
4. `Params.Attained.merge_overwrites`: when a merge fails, and what it gives.
-/

namespace Landform

/-! ## 1. Which update counts -/

/-- The value of the last update whose key names a field. -/
def Fields.lastNamed? (updates : Fields) (field : String) : Option Value :=
  (updates.reverse.find? fun update => canonicalField update.1 == field).map (·.2)

namespace Params

theorem mem_fieldNames {p : Params} {name : String} :
    name ∈ p.fieldNames ↔ ∃ field ∈ p.kind.declared, field.name = name := by
  have all (k : Kind) : ∀ names, names = (k.defaults 0).fieldNames →
      (∀ name ∈ names, name ∈ k.declared.map (·.name)) ∧
        ∀ name ∈ k.declared.map (·.name), name ∈ names := by
    rintro _ rfl
    cases k <;> decide
  obtain ⟨there, back⟩ := all p.kind _ (fieldNames_eq p)
  rw [← List.mem_map]
  exact ⟨there name, back name⟩

theorem last?_known {p : Params} (updates : Fields) {field : Declared}
    (listed : field ∈ p.kind.declared) :
    (p.known updates).last? field.name = updates.lastNamed? field.name := by
  have known : p.fieldNames.contains field.name = true :=
    List.contains_iff_mem.mpr (mem_fieldNames.mpr ⟨field, listed, rfl⟩)
  have names : ((fun update : String × Value => decide (p.fieldNames.contains update.1 = true ∧
      (update.1 == field.name) = true)) ∘ fun update : String × Value =>
        (canonicalField update.1, update.2)) =
      fun update => canonicalField update.1 == field.name := by
    funext update
    by_cases same : canonicalField update.1 = field.name
    · simp [same, List.contains_iff_mem.mp known]
    · simp [same]
  rw [Fields.last?, Table.get?, Params.known, ← List.filter_reverse, ← List.map_reverse,
    List.find?_filter, List.find?_map, names, Option.map_map]
  rfl

/-- What a field is read from when updates are merged. -/
theorem given_known {p : Params} (updates : Fields) {field : Declared}
    (listed : field ∈ p.kind.declared) : p.given (p.known updates) field.name =
      (updates.lastNamed? field.name).getD (p.value field.name) := by
  rw [given, last?_known updates listed]

/-! ## 2. Parameters that come from defaults -/

/-- Parameters that come from the defaults of a kind by merges. -/
inductive Attained : Params → Prop
  | defaults (k : Kind) (seed : Int) : Attained (k.defaults seed)
  | merged {p : Params} {updates : Fields} {m : Merged} : Attained p →
      p.merge updates = .ok m → Attained m.params

theorem Attained.isChecked {p : Params} (attained : p.Attained) : p.isChecked = true := by
  induction attained with
  | defaults k seed => exact isChecked_defaults k seed
  | merged _ done ih => exact isChecked_merge ih done

/-! ## 3. Merges read all fields -/

section Checked

variable {p : Params} (checked : p.isChecked = true)

include checked

theorem replace_nil : p.replace [] = .ok p :=
  replace_eq_ok.mpr ⟨rfl, fun _ listed => reads_value checked listed⟩

/-- Parameters of a kind that have the same values are the same. -/
theorem eq_of_value_eq {q : Params} (same : q.kind = p.kind)
    (values : ∀ field ∈ p.kind.declared, q.value field.name = p.value field.name) : q = p := by
  have reads : p.replace [] = .ok q := by
    refine replace_eq_ok.mpr ⟨same, fun field listed => ?_⟩
    rw [values field listed]
    exact reads_value checked listed
  rw [replace_nil checked] at reads
  exact (Except.ok.inj reads).symm

/-- A merge is the update by all that names a field, also by nothing. -/
theorem merge_eq (updates : Fields) : p.merge updates = (p.replace (p.known updates)).map fun p' =>
    ⟨p', p.extras updates, (p.known updates).isEmpty⟩ := by
  rw [merge]
  cases none : (p.known updates).isEmpty with
  | true =>
    rw [List.isEmpty_iff.mp none, replace_nil checked]
    rfl
  | false =>
    cases p.replace (p.known updates) <;> rfl

theorem merge_eq_ok {updates : Fields} {m : Merged} (done : p.merge updates = .ok m) :
    m.params.kind = p.kind ∧ p.Becomes (p.known updates) m.params ∧
      m.extras = p.extras updates := by
  rw [merge_eq checked] at done
  obtain ⟨p', replaced, rfl⟩ := Except.map_eq_ok.mp done
  obtain ⟨same, becomes⟩ := replace_eq_ok.mp replaced
  exact ⟨same, becomes, rfl⟩

/-- A merge fails exactly if some field does not fit what the merge gives for it. -/
theorem merge_fails_iff {updates : Fields} : (∃ cause, p.merge updates = .error cause) ↔
    ∃ field ∈ p.kind.declared,
      ¬ field.Fits ((updates.lastNamed? field.name).getD (p.value field.name)) := by
  have fails : (∃ cause, p.merge updates = .error cause) ↔ ¬ p.Admits (p.known updates) := by
    rw [merge_eq checked, ← exists_replace]
    cases p.replace (p.known updates) <;> simp [Except.map]
  rw [fails, Admits]
  push Not
  refine exists_congr fun field => and_congr_right fun listed => ?_
  rw [given_known updates listed]

end Checked

/-! ## 4. The last writer wins -/

/-- A merge keeps the fields that no update names, takes the others from their last updates, and
hands back the updates that name no field; done once more it changes nothing. The values of all
fields determine the parameters. -/
structure Overwrites (p : Params) (updates : Fields) (m : Merged) : Prop where
  kind : m.params.kind = p.kind
  kept : ∀ field ∈ p.kind.declared, updates.lastNamed? field.name = none →
    m.params.value field.name = p.value field.name
  taken : ∀ field ∈ p.kind.declared, ∀ v, updates.lastNamed? field.name = some v →
    field.form.coerce v = .ok (m.params.value field.name)
  determined : ∀ q : Params, q.kind = m.params.kind →
    (∀ field ∈ m.params.kind.declared, q.value field.name = m.params.value field.name) →
      q = m.params
  extras : m.extras = updates.filter fun update =>
    p.kind.declared.all fun field => field.name != canonicalField update.1
  again : ∃ m', m.params.merge updates = .ok m' ∧ m'.params = m.params ∧ m'.extras = m.extras

theorem extras_eq (p : Params) (updates : Fields) : p.extras updates =
    updates.filter fun update =>
      p.kind.declared.all fun field => field.name != canonicalField update.1 := by
  refine List.filter_congr fun update _ => ?_
  rw [Bool.eq_iff_iff]
  simp [mem_fieldNames]

theorem overwrites_of_merge {p : Params} (checked : p.isChecked = true) {updates : Fields}
    {m : Merged} (done : p.merge updates = .ok m) : p.Overwrites updates m := by
  obtain ⟨same, becomes, extras⟩ := merge_eq_ok checked done
  have stored : m.params.isChecked = true := isChecked_merge checked done
  refine ⟨same, fun field listed unnamed => ?_, fun field listed v named => ?_,
    fun _ => eq_of_value_eq stored, extras.trans (p.extras_eq updates), ?_⟩
  · have read := becomes field listed
    rw [given_known updates listed, unnamed] at read
    exact Except.ok.inj (read.coerced.symm.trans (reads_value checked listed).coerced)
  · have read := becomes field listed
    rw [given_known updates listed, named] at read
    exact read.coerced
  · -- a named field is read from the same update as before, any other one is read as it is
    have again : m.params.Becomes (m.params.known updates) m.params := by
      intro field listed
      rw [given_known updates listed]
      have read := becomes field (same ▸ listed)
      rw [given_known updates (same ▸ listed)] at read
      cases named : updates.lastNamed? field.name with
      | none => exact reads_value stored listed
      | some v =>
        rw [named] at read
        exact read
    have done' := merge_eq stored updates
    rw [replace_eq_ok.mpr ⟨rfl, again⟩] at done'
    refine ⟨_, done', rfl, ?_⟩
    show m.params.extras updates = m.extras
    rw [extras, extras_eq, extras_eq, same]

/-- For parameters that come from defaults by merges, and updates of any data: a merge fails
exactly if some field does not fit what it is read from, and the last writer wins otherwise. -/
theorem Attained.merge_overwrites {p : Params} (attained : p.Attained) (updates : Fields) :
    ((∃ cause, p.merge updates = .error cause) ↔ ∃ field ∈ p.kind.declared,
      ¬ field.Fits ((updates.lastNamed? field.name).getD (p.value field.name))) ∧
    ∀ m, p.merge updates = .ok m → p.Overwrites updates m :=
  ⟨merge_fails_iff attained.isChecked, fun _ done => overwrites_of_merge attained.isChecked done⟩

/-- Updates of a terrain that name its material twice, by two other names for it. -/
def retyped : Fields :=
  [("materialKind", .text "liquid"), ("name", .text "Sea"), ("type", .text "air"),
    ("depth", .int 3)]

/-- The second name wins, the colour of an earlier merge stays, and the depth is handed back. -/
theorem retyped_merge_overwrites : ∃ p m, Attained p ∧ p.merge retyped = .ok m ∧
    p.value "material" = .text "solid" ∧ m.params.value "material" = .text "air" ∧
    p.value "color" = .text "#0000ff" ∧ m.params.value "color" = .text "#0000ff" ∧
    m.extras = [("depth", .int 3)] ∧ p.Overwrites retyped m := by
  have coloured : (Kind.terrainType.defaults 0).merge [("color", .text "#0000ff")] =
      .ok ⟨.terrainType ⟨"Stone", .solid, "#0000ff"⟩, [], false⟩ := rfl
  have attained := Attained.merged (.defaults .terrainType 0) coloured
  have done : (terrainType ⟨"Stone", .solid, "#0000ff"⟩).merge retyped =
      .ok ⟨.terrainType ⟨"Sea", .air, "#0000ff"⟩, [("depth", .int 3)], false⟩ := rfl
  exact ⟨_, _, attained, done, rfl, rfl, rfl, rfl, rfl,
    (attained.merge_overwrites retyped).2 _ done⟩

end Params

end Landform
