import Landform.Proofs.Params

/-!
# The fields of parameters

Each field of parameters has a form, which tells how data is read for it, and a demand that the
value it gets has to meet. An update reads every field anew, from the last update that names it or
else from its current value, and succeeds exactly if every field can be read and meets its demand.
A stored value is read as itself, so that fields that no update names stay.

1. `Form`, `Demand`, `Kind.declared`: the fields of every kind.
2. `Form.By.reads_iff`, `reads_nonzero`, `reads_count`: reading one field.
3. `Params.replace_eq_ok`: what an update gives.
4. `Params.exists_replace`: when it gives anything.
5. `Params.reads_value`: stored values are read as themselves.
-/

namespace Landform

open Text

/-! ## 1. Declared fields -/

/-- How data is read for a field. -/
inductive Form where
  | real
  | whole
  | truth
  | text
  | flags
  | material
deriving DecidableEq

/-- The value that data gives for a field, in the plain form. -/
def Form.coerce : Form → Value → Except Error Value
  | real, v => v.toFloat.map .float
  | whole, v => v.toInt.map .int
  | truth, v => v.toBool.map .bool
  | text, v => .ok (.text v.asText)
  | flags, v => (Noise.Flags.ofValue v).map fun flags => .int flags.bits
  | material, v => (Material.ofValue v).map fun material => .text material.name

/-- What is demanded of the value of a field. -/
inductive Demand where
  | nothing
  | nonzero
  | notNegative
  | notBlank
  | operator
deriving DecidableEq

/-- Whether a value in the plain form meets a demand. -/
def Demand.isMet : Demand → Value → Bool
  | nothing, _ => true
  | nonzero, .float x => x != 0.0
  | notNegative, .int n => 0 ≤ n
  | notBlank, .text s => !isBlankText s
  | operator, .text s => (Comparison.ofSign? s).isSome
  | _, _ => false

/-- A field that parameters of a kind have. -/
structure Declared where
  name : String
  form : Form
  demand : Demand
deriving DecidableEq

namespace Declared

/-- A number without a demand. -/
def real (name : String) : Declared := ⟨name, .real, .nothing⟩

/-- A number that is not zero. -/
def nonzero (name : String) : Declared := ⟨name, .real, .nonzero⟩

/-- A count. -/
def count (name : String) : Declared := ⟨name, .whole, .notNegative⟩

/-- What is read for a field from data: a value that meets the demand. -/
structure Reads (field : Declared) (given value : Value) : Prop where
  coerced : field.form.coerce given = .ok value
  met : field.demand.isMet value = true

/-- Whether anything is read for a field from data. -/
def Fits (field : Declared) (given : Value) : Prop :=
  ∃ value, field.Reads given value

end Declared

/-- The fields of noise in the plane. -/
def Noise.declared : List Declared :=
  [⟨"flags", .flags, .nothing⟩, ⟨"seed", .whole, .nothing⟩, .count "octaves", .real "offset",
    .real "scale", .real "persist", .real "lacunarity", .nonzero "spread_x", .nonzero "spread_y"]

/-- The fields of a kind, in the order in which they are read. -/
def Kind.declared : Kind → List Declared
  | .lerp => [.real "power"]
  | .gaussian => [.real "center_x", .real "center_y", .real "center_z", .nonzero "spread"]
  | .remap => [.real "in_min", .real "in_max", .real "out_min", .real "out_max"]
  | .distance => [.real "point_x", .real "point_y", .real "point_z"]
  | .noise2d => Noise.declared
  | .noise3d => Noise.declared ++ [.nonzero "spread_z"]
  | .mandelbrot =>
    [.nonzero "scale", .real "offset_x", .real "offset_z", .count "steps",
      ⟨"remap", .truth, .nothing⟩, .real "remap_min", .real "remap_max"]
  | .terrainType =>
    [⟨"name", .text, .notBlank⟩, ⟨"color", .text, .nothing⟩, ⟨"material", .material, .nothing⟩]
  | .compare => [⟨"operator", .text, .operator⟩, .real "use_true", .real "use_false"]
  | .add | .subtract | .multiply | .abs | .coserp | .position | .terrainOutput => []

/-- The value of a field in the plain form. -/
def Params.value (p : Params) (field : String) : Value :=
  (Table.get? p.fields field).getD .null

/-- What a field is read from: its last update, or else its current value. -/
def Params.given (p : Params) (updates : Fields) (field : String) : Value :=
  (updates.last? field).getD (p.value field)

/-! ## 2. Reading one field -/

/-- A form reads data by `read` and writes what it has read by `write`. What is written is read as
itself. -/
structure Form.By {α : Type} (form : Form) (read : Value → Except Error α) (write : α → Value) :
    Prop where
  coerce_eq : ∀ v, form.coerce v = (read v).map write
  injective : Function.Injective write
  stable : ∀ a, read (write a) = .ok a

theorem Form.real_by : real.By Value.toFloat .float where
  coerce_eq _ := rfl
  injective _ _ := Value.float.inj
  stable _ := rfl

theorem Form.whole_by : whole.By Value.toInt .int where
  coerce_eq _ := rfl
  injective _ _ := Value.int.inj
  stable _ := rfl

theorem Form.truth_by : truth.By Value.toBool .bool where
  coerce_eq _ := rfl
  injective _ _ := Value.bool.inj
  stable _ := rfl

theorem Form.text_by : text.By (fun v => .ok v.asText) .text where
  coerce_eq _ := rfl
  injective _ _ := Value.text.inj
  stable _ := rfl

theorem Form.flags_by : flags.By Noise.Flags.ofValue (fun flags => .int flags.bits) where
  coerce_eq _ := rfl
  injective := by
    rintro ⟨a⟩ ⟨b⟩ same
    exact congrArg Noise.Flags.mk (Int.ofNat_inj.mp (Value.int.inj same))
  stable flags := congrArg Except.ok (Noise.Flags.ofInt_natCast flags.bits)

theorem Form.material_by : material.By Material.ofValue (fun material => .text material.name) where
  coerce_eq _ := rfl
  injective a b same := by
    cases a <;> cases b <;> first | rfl | exact absurd (Value.text.inj same) (by decide)
  stable a := by cases a <;> rfl

section Reading

variable {α : Type} {updates : Fields} {name : String} {form : Form} {demand : Demand}
  {read : Value → Except Error α} {write : α → Value}

/-- The new value of a field is read from what is given for it. -/
theorem Form.By.pick_eq (by' : form.By read write) (a : α) :
    updates.pick name read a = read ((updates.last? name).getD (write a)) := by
  unfold Fields.pick
  cases updates.last? name with
  | none => exact (by'.stable a).symm
  | some v => rfl

theorem Form.By.reads_iff (by' : form.By read write) {a b : α} :
    Declared.Reads ⟨name, form, demand⟩ ((updates.last? name).getD (write a)) (write b) ↔
      updates.pick name read a = .ok b ∧ demand.isMet (write b) = true := by
  rw [by'.pick_eq]
  constructor
  · rintro ⟨coerced, met⟩
    rw [by'.coerce_eq] at coerced
    obtain ⟨c, result, same⟩ := Except.map_eq_ok.mp coerced
    exact ⟨by'.injective same ▸ result, met⟩
  · rintro ⟨result, met⟩
    refine ⟨?_, met⟩
    rw [by'.coerce_eq, result]
    rfl

/-- What fits a field is something that its form writes. -/
theorem Form.By.exists_reads (by' : form.By read write) {given : Value}
    (fits : Declared.Fits ⟨name, form, demand⟩ given) :
    ∃ b, Declared.Reads ⟨name, form, demand⟩ given (write b) := by
  obtain ⟨value, coerced, met⟩ := fits
  have result := coerced
  rw [by'.coerce_eq] at result
  obtain ⟨b, _, rfl⟩ := Except.map_eq_ok.mp result
  exact ⟨b, coerced, met⟩

/-- A field without a demand. -/
theorem Form.By.reads_free (by' : form.By read write) {a b : α} :
    Declared.Reads ⟨name, form, .nothing⟩ ((updates.last? name).getD (write a)) (write b) ↔
      updates.pick name read a = .ok b :=
  by'.reads_iff.trans (and_iff_left rfl)

theorem reads_nonzero {x y : Float} :
    (Declared.nonzero name).Reads ((updates.last? name).getD (.float x)) (.float y) ↔
      updates.number name x = .ok y ∧ checkNonzero name y = .ok () := by
  rw [checkNonzero_eq_ok]
  exact Form.real_by.reads_iff

theorem checkCount_eq_ok {n : Int} {count : Nat} :
    checkCount name n = .ok count ↔ n = (count : Int) := by
  unfold checkCount
  split <;> simp <;> omega

theorem reads_count {n count : Nat} :
    (Declared.count name).Reads ((updates.last? name).getD (.int n)) (.int count) ↔
      ∃ k, updates.pick name Value.toInt (n : Int) = .ok k ∧ checkCount name k = .ok count := by
  have met : Demand.notNegative.isMet (.int count) = true :=
    decide_eq_true (Int.natCast_nonneg count)
  refine (Form.whole_by.reads_iff.trans (and_iff_left met)).trans ?_
  simp only [checkCount_eq_ok, exists_eq_right]

theorem exists_reads_count {given : Value} (fits : (Declared.count name).Fits given) :
    ∃ count : Nat, (Declared.count name).Reads given (.int count) := by
  obtain ⟨n, coerced, met⟩ := Form.whole_by.exists_reads fits
  obtain ⟨count, rfl⟩ := Int.eq_ofNat_of_zero_le (of_decide_eq_true met)
  exact ⟨count, coerced, met⟩

end Reading

/-! ## 3. What an update gives -/

namespace Params

/-- Every field of `p'` is what an update of `p` gives for it. -/
def Becomes (p : Params) (updates : Fields) (p' : Params) : Prop :=
  ∀ field ∈ p.kind.declared, field.Reads (p.given updates field.name) (p'.value field.name)

/-- Every field of `p` fits what an update gives for it. -/
def Admits (p : Params) (updates : Fields) : Prop :=
  ∀ field ∈ p.kind.declared, field.Fits (p.given updates field.name)

end Params

section Records

-- What is stated of every field of a kind is split into what it says of each one.
attribute [local simp] Params.kind Kind.declared

variable {updates : Fields}

theorem Bell.replace_eq_ok {bell bell' : Bell} :
    bell.replace updates = .ok bell' ↔
      (Params.gaussian bell).Becomes updates (.gaussian bell') := by
  simp [Params.Becomes]
  refine Iff.trans ?_ (and_congr Form.real_by.reads_free (and_congr Form.real_by.reads_free
    (and_congr Form.real_by.reads_free reads_nonzero))).symm
  simp only [replace, Except.bind_eq_ok]
  constructor
  · rintro ⟨x, xRead, y, yRead, z, zRead, spread, spreadRead, _, nonzero, ⟨⟩⟩
    exact ⟨xRead, yRead, zRead, spreadRead, nonzero⟩
  · rintro ⟨xRead, yRead, zRead, spreadRead, nonzero⟩
    exact ⟨_, xRead, _, yRead, _, zRead, _, spreadRead, _, nonzero, rfl⟩

theorem Bell.exists_becomes {bell : Bell} (admits : (Params.gaussian bell).Admits updates) :
    ∃ bell', (Params.gaussian bell).Becomes updates (.gaussian bell') := by
  simp [Params.Admits] at admits
  obtain ⟨x, y, z, spread⟩ := admits
  obtain ⟨x, xRead⟩ := Form.real_by.exists_reads x
  obtain ⟨y, yRead⟩ := Form.real_by.exists_reads y
  obtain ⟨z, zRead⟩ := Form.real_by.exists_reads z
  obtain ⟨spread, spreadRead⟩ := Form.real_by.exists_reads spread
  refine ⟨⟨x, y, z, spread⟩, ?_⟩
  simp [Params.Becomes]
  exact ⟨xRead, yRead, zRead, spreadRead⟩

theorem Bounds.replace_eq_ok {bounds bounds' : Bounds} :
    bounds.replace updates = .ok bounds' ↔
      (Params.remap bounds).Becomes updates (.remap bounds') := by
  simp [Params.Becomes]
  refine Iff.trans ?_ (and_congr Form.real_by.reads_free (and_congr Form.real_by.reads_free
    (and_congr Form.real_by.reads_free Form.real_by.reads_free))).symm
  simp only [replace, Except.bind_eq_ok]
  constructor
  · rintro ⟨inMin, first, inMax, second, outMin, third, outMax, fourth, ⟨⟩⟩
    exact ⟨first, second, third, fourth⟩
  · rintro ⟨first, second, third, fourth⟩
    exact ⟨_, first, _, second, _, third, _, fourth, rfl⟩

theorem Bounds.exists_becomes {bounds : Bounds} (admits : (Params.remap bounds).Admits updates) :
    ∃ bounds', (Params.remap bounds).Becomes updates (.remap bounds') := by
  simp [Params.Admits] at admits
  obtain ⟨inMin, inMax, outMin, outMax⟩ := admits
  obtain ⟨inMin, inMinRead⟩ := Form.real_by.exists_reads inMin
  obtain ⟨inMax, inMaxRead⟩ := Form.real_by.exists_reads inMax
  obtain ⟨outMin, outMinRead⟩ := Form.real_by.exists_reads outMin
  obtain ⟨outMax, outMaxRead⟩ := Form.real_by.exists_reads outMax
  refine ⟨⟨inMin, inMax, outMin, outMax⟩, ?_⟩
  simp [Params.Becomes]
  exact ⟨inMinRead, inMaxRead, outMinRead, outMaxRead⟩

theorem Point.replace_eq_ok {point point' : Point} :
    point.replace updates = .ok point' ↔
      (Params.distance point).Becomes updates (.distance point') := by
  simp [Params.Becomes]
  refine Iff.trans ?_ (and_congr Form.real_by.reads_free (and_congr Form.real_by.reads_free
    Form.real_by.reads_free)).symm
  simp only [replace, Except.bind_eq_ok]
  constructor
  · rintro ⟨x, xRead, y, yRead, z, zRead, ⟨⟩⟩
    exact ⟨xRead, yRead, zRead⟩
  · rintro ⟨xRead, yRead, zRead⟩
    exact ⟨_, xRead, _, yRead, _, zRead, rfl⟩

theorem Point.exists_becomes {point : Point} (admits : (Params.distance point).Admits updates) :
    ∃ point', (Params.distance point).Becomes updates (.distance point') := by
  simp [Params.Admits] at admits
  obtain ⟨x, y, z⟩ := admits
  obtain ⟨x, xRead⟩ := Form.real_by.exists_reads x
  obtain ⟨y, yRead⟩ := Form.real_by.exists_reads y
  obtain ⟨z, zRead⟩ := Form.real_by.exists_reads z
  refine ⟨⟨x, y, z⟩, ?_⟩
  simp [Params.Becomes]
  exact ⟨xRead, yRead, zRead⟩

theorem Comparison.sign_of_ofSign? {sign : String} {operator : Comparison}
    (found : ofSign? sign = some operator) : operator.sign = sign := by
  unfold ofSign? at found
  split at found <;> cases found <;> rfl

theorem Test.replace_eq_ok {test test' : Test} :
    test.replace updates = .ok test' ↔ (Params.compare test).Becomes updates (.compare test') := by
  simp [Params.Becomes]
  refine Iff.trans ?_ (and_congr Form.text_by.reads_iff (and_congr Form.real_by.reads_free
    Form.real_by.reads_free)).symm
  simp only [replace, Except.bind_eq_ok]
  constructor
  · rintro ⟨sign, signRead, useTrue, trueRead, useFalse, falseRead, made⟩
    cases found : Comparison.ofSign? sign with
    | none =>
      rw [found] at made
      cases made
    | some operator =>
      rw [found] at made
      cases made
      obtain rfl := Comparison.sign_of_ofSign? found
      exact ⟨⟨signRead, congrArg Option.isSome found⟩, trueRead, falseRead⟩
  · rintro ⟨⟨signRead, -⟩, trueRead, falseRead⟩
    refine ⟨_, signRead, _, trueRead, _, falseRead, ?_⟩
    rw [Comparison.ofSign?_sign]
    rfl

theorem Test.exists_becomes {test : Test} (admits : (Params.compare test).Admits updates) :
    ∃ test', (Params.compare test).Becomes updates (.compare test') := by
  simp [Params.Admits] at admits
  obtain ⟨sign, useTrue, useFalse⟩ := admits
  obtain ⟨sign, signRead⟩ := Form.text_by.exists_reads sign
  obtain ⟨operator, found⟩ := Option.isSome_iff_exists.mp signRead.met
  obtain ⟨useTrue, trueRead⟩ := Form.real_by.exists_reads useTrue
  obtain ⟨useFalse, falseRead⟩ := Form.real_by.exists_reads useFalse
  obtain rfl := Comparison.sign_of_ofSign? found
  refine ⟨⟨operator, useTrue, useFalse⟩, ?_⟩
  simp [Params.Becomes]
  exact ⟨signRead, trueRead, falseRead⟩

theorem Terrain.replace_eq_ok {terrain terrain' : Terrain} :
    terrain.replace updates = .ok terrain' ↔
      (Params.terrainType terrain).Becomes updates (.terrainType terrain') := by
  simp [Params.Becomes]
  refine Iff.trans ?_ (and_congr Form.text_by.reads_iff (and_congr Form.text_by.reads_free
    Form.material_by.reads_free)).symm
  simp only [replace, Except.bind_eq_ok]
  constructor
  · rintro ⟨name, nameRead, color, colorRead, material, materialRead, made⟩
    cases blank : isBlankText name with
    | true =>
      rw [blank] at made
      cases made
    | false =>
      rw [blank] at made
      cases made
      exact ⟨⟨nameRead, congrArg not blank⟩, colorRead, materialRead⟩
  · rintro ⟨⟨nameRead, named⟩, colorRead, materialRead⟩
    refine ⟨_, nameRead, _, colorRead, _, materialRead, ?_⟩
    have named : isBlankText terrain'.name = false := by simpa [Demand.isMet] using named
    rw [named]
    rfl

theorem Terrain.exists_becomes {terrain : Terrain}
    (admits : (Params.terrainType terrain).Admits updates) :
    ∃ terrain', (Params.terrainType terrain).Becomes updates (.terrainType terrain') := by
  simp [Params.Admits] at admits
  obtain ⟨name, color, material⟩ := admits
  obtain ⟨name, nameRead⟩ := Form.text_by.exists_reads name
  obtain ⟨color, colorRead⟩ := Form.text_by.exists_reads color
  obtain ⟨material, materialRead⟩ := Form.material_by.exists_reads material
  refine ⟨⟨name, material, color⟩, ?_⟩
  simp [Params.Becomes]
  exact ⟨nameRead, colorRead, materialRead⟩

namespace Noise

theorem Mandelbrot.replace_eq_ok {view view' : Mandelbrot Float} :
    view.replace updates = .ok view' ↔
      (Params.mandelbrot view).Becomes updates (.mandelbrot view') := by
  simp [Params.Becomes]
  refine Iff.trans ?_ (and_congr reads_nonzero (and_congr Form.real_by.reads_free
    (and_congr Form.real_by.reads_free (and_congr reads_count (and_congr Form.truth_by.reads_free
    (and_congr Form.real_by.reads_free Form.real_by.reads_free)))))).symm
  simp only [replace, Except.bind_eq_ok]
  constructor
  · rintro ⟨scale, scaleRead, x, xRead, z, zRead, n, stepsRead, remap, remapRead, low, lowRead,
      high, highRead, _, nonzero, steps, counted, ⟨⟩⟩
    exact ⟨⟨scaleRead, nonzero⟩, xRead, zRead, ⟨n, stepsRead, counted⟩, remapRead, lowRead,
      highRead⟩
  · rintro ⟨⟨scaleRead, nonzero⟩, xRead, zRead, ⟨n, stepsRead, counted⟩, remapRead, lowRead,
      highRead⟩
    exact ⟨_, scaleRead, _, xRead, _, zRead, _, stepsRead, _, remapRead, _, lowRead, _, highRead, _,
      nonzero, _, counted, rfl⟩

theorem Mandelbrot.exists_becomes {view : Mandelbrot Float}
    (admits : (Params.mandelbrot view).Admits updates) :
    ∃ view', (Params.mandelbrot view).Becomes updates (.mandelbrot view') := by
  simp [Params.Admits] at admits
  obtain ⟨scale, x, z, steps, remap, low, high⟩ := admits
  obtain ⟨scale, scaleRead⟩ := Form.real_by.exists_reads scale
  obtain ⟨x, xRead⟩ := Form.real_by.exists_reads x
  obtain ⟨z, zRead⟩ := Form.real_by.exists_reads z
  obtain ⟨steps, stepsRead⟩ := exists_reads_count steps
  obtain ⟨remap, remapRead⟩ := Form.truth_by.exists_reads remap
  obtain ⟨low, lowRead⟩ := Form.real_by.exists_reads low
  obtain ⟨high, highRead⟩ := Form.real_by.exists_reads high
  refine ⟨⟨scale, x, z, steps, remap, low, high⟩, ?_⟩
  simp [Params.Becomes]
  exact ⟨scaleRead, xRead, zRead, stepsRead, remapRead, lowRead, highRead⟩

theorem Settings.replace_eq_ok {s s' : Settings Float} :
    s.replace updates = .ok s' ↔ (Params.noise2d s).Becomes updates (.noise2d s') := by
  simp [Params.Becomes, declared]
  refine Iff.trans ?_ (and_congr Form.flags_by.reads_free (and_congr Form.whole_by.reads_free
    (and_congr reads_count (and_congr Form.real_by.reads_free (and_congr Form.real_by.reads_free
    (and_congr Form.real_by.reads_free (and_congr Form.real_by.reads_free
    (and_congr reads_nonzero reads_nonzero)))))))).symm
  simp only [replace, draft, Draft.check, Except.bind_eq_ok]
  constructor
  · rintro ⟨_, ⟨flags, flagsRead, seed, seedRead, n, octavesRead, offset, offsetRead, scale,
      scaleRead, persist, persistRead, lacunarity, lacunarityRead, x, xRead, y, yRead, ⟨⟩⟩,
      octaves, counted, _, xNonzero, _, yNonzero, ⟨⟩⟩
    exact ⟨flagsRead, seedRead, ⟨n, octavesRead, counted⟩, offsetRead, scaleRead, persistRead,
      lacunarityRead, ⟨xRead, xNonzero⟩, ⟨yRead, yNonzero⟩⟩
  · rintro ⟨flagsRead, seedRead, ⟨n, octavesRead, counted⟩, offsetRead, scaleRead, persistRead,
      lacunarityRead, ⟨xRead, xNonzero⟩, ⟨yRead, yNonzero⟩⟩
    exact ⟨_, ⟨_, flagsRead, _, seedRead, _, octavesRead, _, offsetRead, _, scaleRead, _,
      persistRead, _, lacunarityRead, _, xRead, _, yRead, rfl⟩, _, counted, _, xNonzero, _,
      yNonzero, rfl⟩

theorem Settings.exists_becomes {s : Settings Float}
    (admits : (Params.noise2d s).Admits updates) :
    ∃ s', (Params.noise2d s).Becomes updates (.noise2d s') := by
  simp [Params.Admits, declared] at admits
  obtain ⟨flags, seed, octaves, offset, scale, persist, lacunarity, x, y⟩ := admits
  obtain ⟨flags, flagsRead⟩ := Form.flags_by.exists_reads flags
  obtain ⟨seed, seedRead⟩ := Form.whole_by.exists_reads seed
  obtain ⟨octaves, octavesRead⟩ := exists_reads_count octaves
  obtain ⟨offset, offsetRead⟩ := Form.real_by.exists_reads offset
  obtain ⟨scale, scaleRead⟩ := Form.real_by.exists_reads scale
  obtain ⟨persist, persistRead⟩ := Form.real_by.exists_reads persist
  obtain ⟨lacunarity, lacunarityRead⟩ := Form.real_by.exists_reads lacunarity
  obtain ⟨x, xRead⟩ := Form.real_by.exists_reads x
  obtain ⟨y, yRead⟩ := Form.real_by.exists_reads y
  refine ⟨⟨offset, scale, x, y, seed, octaves, persist, lacunarity, flags⟩, ?_⟩
  simp [Params.Becomes, declared]
  exact ⟨flagsRead, seedRead, octavesRead, offsetRead, scaleRead, persistRead, lacunarityRead,
    xRead, yRead⟩

/-- Noise in space has the fields of noise in the plane, and one more. -/
theorem Settings3.value_eq (s : Settings3 Float) : ∀ field ∈ declared,
    (Params.noise3d s).value field.name = (Params.noise2d s.toSettings).value field.name := by
  simp only [declared, List.forall_mem_cons, List.not_mem_nil, false_implies, implies_true,
    and_true]
  exact ⟨rfl, rfl, rfl, rfl, rfl, rfl, rfl, rfl, rfl⟩

theorem Settings3.given_eq (s : Settings3 Float) {field : Declared} (listed : field ∈ declared) :
    (Params.noise3d s).given updates field.name =
      (Params.noise2d s.toSettings).given updates field.name := by
  rw [Params.given, Params.given, s.value_eq field listed]

theorem Settings3.becomes_iff {s s' : Settings3 Float} :
    (Params.noise3d s).Becomes updates (.noise3d s') ↔
      (Params.noise2d s.toSettings).Becomes updates (.noise2d s'.toSettings) ∧
      updates.number "spread_z" s.spreadZ = .ok s'.spreadZ ∧
      checkNonzero "spread_z" s'.spreadZ = .ok () := by
  simp only [Params.Becomes, Params.kind, Kind.declared, List.forall_mem_append,
    List.forall_mem_singleton]
  refine and_congr (forall₂_congr fun field listed => ?_) reads_nonzero
  rw [s.given_eq listed, s'.value_eq field listed]

theorem Settings3.replace_eq_ok {s s' : Settings3 Float} :
    s.replace updates = .ok s' ↔ (Params.noise3d s).Becomes updates (.noise3d s') := by
  rw [becomes_iff, ← Settings.replace_eq_ok]
  simp only [replace, Settings.replace, Except.bind_eq_ok]
  constructor
  · rintro ⟨draft, drafted, z, zRead, settings, checked, _, zNonzero, ⟨⟩⟩
    exact ⟨⟨draft, drafted, checked⟩, zRead, zNonzero⟩
  · rintro ⟨⟨draft, drafted, checked⟩, zRead, zNonzero⟩
    exact ⟨draft, drafted, _, zRead, _, checked, _, zNonzero, rfl⟩

theorem Settings3.exists_becomes {s : Settings3 Float}
    (admits : (Params.noise3d s).Admits updates) :
    ∃ s', (Params.noise3d s).Becomes updates (.noise3d s') := by
  obtain ⟨plane, space⟩ := List.forall_mem_append.mp admits
  have plane : (Params.noise2d s.toSettings).Admits updates :=
    fun field listed => s.given_eq listed ▸ plane field listed
  obtain ⟨settings, becomes⟩ := Settings.exists_becomes plane
  obtain ⟨z, zRead⟩ := Form.real_by.exists_reads (space _ List.mem_cons_self)
  exact ⟨⟨settings, z⟩, becomes_iff.mpr ⟨becomes, reads_nonzero.mp zRead⟩⟩

end Noise

end Records

namespace Params

/-- Parameters that hold a record are updated by an update of the record. -/
theorem hold_eq_ok {Record : Type} {hold : Record → Params} {updated : Except Error Record}
    {record : Record} (injective : ∀ {a b}, hold a = hold b → a = b) :
    (updated >>= fun a => .ok (hold a)) = .ok (hold record) ↔ updated = .ok record := by
  rw [Except.bind_eq_ok]
  constructor
  · rintro ⟨a, done, same⟩
    rw [done, injective (Except.ok.inj same)]
  · exact fun done => ⟨record, done, rfl⟩

theorem replace_iff_becomes {updates : Fields} {p p' : Params} (same : p'.kind = p.kind) :
    p.replace updates = .ok p' ↔ p.Becomes updates p' := by
  cases p with
  | lerp power =>
    cases p' <;> cases same
    refine (hold_eq_ok lerp.inj).trans (Iff.trans ?_ List.forall_mem_singleton.symm)
    exact Form.real_by.reads_free.symm
  | gaussian bell =>
    cases p' <;> cases same
    exact (hold_eq_ok gaussian.inj).trans Bell.replace_eq_ok
  | remap bounds =>
    cases p' <;> cases same
    exact (hold_eq_ok remap.inj).trans Bounds.replace_eq_ok
  | distance point =>
    cases p' <;> cases same
    exact (hold_eq_ok distance.inj).trans Point.replace_eq_ok
  | noise2d settings =>
    cases p' <;> cases same
    exact (hold_eq_ok noise2d.inj).trans Noise.Settings.replace_eq_ok
  | noise3d settings =>
    cases p' <;> cases same
    exact (hold_eq_ok noise3d.inj).trans Noise.Settings3.replace_eq_ok
  | mandelbrot view =>
    cases p' <;> cases same
    exact (hold_eq_ok mandelbrot.inj).trans Noise.Mandelbrot.replace_eq_ok
  | terrainType terrain =>
    cases p' <;> cases same
    exact (hold_eq_ok terrainType.inj).trans Terrain.replace_eq_ok
  | compare test =>
    cases p' <;> cases same
    exact (hold_eq_ok compare.inj).trans Test.replace_eq_ok
  | add | subtract | multiply | abs | coserp | position | terrainOutput =>
    cases p' <;> cases same
    exact ⟨fun _ _ none => absurd none List.not_mem_nil, fun _ => rfl⟩

/-- An update gives just the parameters of the same kind whose fields are read from what the update
gives for them. -/
theorem replace_eq_ok {updates : Fields} {p p' : Params} :
    p.replace updates = .ok p' ↔ p'.kind = p.kind ∧ p.Becomes updates p' :=
  ⟨fun done => ⟨kind_replace done, (replace_iff_becomes (kind_replace done)).mp done⟩,
    fun ⟨same, becomes⟩ => (replace_iff_becomes same).mpr becomes⟩

/-! ## 4. When an update gives anything -/

/-- An update gives parameters exactly if every field fits what the update gives for it. -/
theorem exists_replace {updates : Fields} {p : Params} :
    (∃ p', p.replace updates = .ok p') ↔ p.Admits updates := by
  constructor
  · rintro ⟨p', done⟩ field listed
    exact ⟨_, (replace_eq_ok.mp done).2 field listed⟩
  · intro admits
    cases p with
    | lerp power =>
      obtain ⟨power, read⟩ := Form.real_by.exists_reads (admits (.real "power") List.mem_cons_self)
      exact ⟨lerp power, replace_eq_ok.mpr ⟨rfl, List.forall_mem_singleton.mpr read⟩⟩
    | gaussian bell =>
      obtain ⟨bell', becomes⟩ := Bell.exists_becomes admits
      exact ⟨gaussian bell', replace_eq_ok.mpr ⟨rfl, becomes⟩⟩
    | remap bounds =>
      obtain ⟨bounds', becomes⟩ := Bounds.exists_becomes admits
      exact ⟨remap bounds', replace_eq_ok.mpr ⟨rfl, becomes⟩⟩
    | distance point =>
      obtain ⟨point', becomes⟩ := Point.exists_becomes admits
      exact ⟨distance point', replace_eq_ok.mpr ⟨rfl, becomes⟩⟩
    | noise2d settings =>
      obtain ⟨settings', becomes⟩ := Noise.Settings.exists_becomes admits
      exact ⟨noise2d settings', replace_eq_ok.mpr ⟨rfl, becomes⟩⟩
    | noise3d settings =>
      obtain ⟨settings', becomes⟩ := Noise.Settings3.exists_becomes admits
      exact ⟨noise3d settings', replace_eq_ok.mpr ⟨rfl, becomes⟩⟩
    | mandelbrot view =>
      obtain ⟨view', becomes⟩ := Noise.Mandelbrot.exists_becomes admits
      exact ⟨mandelbrot view', replace_eq_ok.mpr ⟨rfl, becomes⟩⟩
    | terrainType terrain =>
      obtain ⟨terrain', becomes⟩ := Terrain.exists_becomes admits
      exact ⟨terrainType terrain', replace_eq_ok.mpr ⟨rfl, becomes⟩⟩
    | compare test =>
      obtain ⟨test', becomes⟩ := Test.exists_becomes admits
      exact ⟨compare test', replace_eq_ok.mpr ⟨rfl, becomes⟩⟩
    | add | subtract | multiply | abs | coserp | position | terrainOutput => exact ⟨_, rfl⟩

/-! ## 5. Stored values -/

theorem last?_fields (p : Params) : ∀ field ∈ p.kind.declared,
    p.fields.last? field.name = some (p.value field.name) := by
  cases p <;>
    simp only [kind, Kind.declared, Noise.declared, List.forall_mem_append, List.forall_mem_cons,
      List.not_mem_nil, false_implies, implies_true, and_true] <;>
    and_intros <;> rfl

/-- The fields of parameters that pass their checks are read as they are. -/
theorem reads_value {p : Params} (checked : p.isChecked = true) {field : Declared}
    (listed : field ∈ p.kind.declared) : field.Reads (p.value field.name) (p.value field.name) := by
  have reads := (replace_eq_ok.mp (replace_fields rfl checked)).2 field listed
  rwa [given, p.last?_fields field listed, Option.getD_some] at reads

end Params

end Landform
