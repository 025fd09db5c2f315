import Landform.Proofs.Params

/-!
# How reading numbers fails

Reading parameters is meant to fail with a bad value. It fails otherwise where a number is read and
the data gives something that is no number at all, an integer beyond the doubles, or an infinity in
place of an integer. Nothing else in an update of parameters fails in such a way.

1. `FailsOnly`, `Checks`, `Ends`: the causes that a computation may fail with.
2. `Unfit`, `Value.Misread`, `unfit_false_iff`, `unfit_true_iff`: values that fail otherwise.
3. `Kind.numberFields`: where an update reads a number.
4. `Params.failsOnly_replace`, `Node.failsOnly_update`: how an update fails.
-/

namespace Landform

/-! ## 1. Allowed causes -/

section Allowed

variable {α β σ : Type} {allowed wider : Error → Prop}

/-- A result that is there, or a failure with an allowed cause. -/
def FailsOnly (allowed : Error → Prop) : Except Error α → Prop
  | .ok _ => True
  | .error cause => allowed cause

namespace FailsOnly

theorem mono {result : Except Error α} (fails : FailsOnly allowed result)
    (weaker : ∀ cause, allowed cause → wider cause) : FailsOnly wider result := by
  cases result with
  | ok a => trivial
  | error cause => exact weaker cause fails

theorem bind {first : Except Error α} {rest : α → Except Error β} (start : FailsOnly allowed first)
    (next : ∀ a, first = .ok a → FailsOnly allowed (rest a)) :
    FailsOnly allowed (first >>= rest) := by
  cases first with
  | error cause => exact start
  | ok a => exact next a rfl

theorem map {result : Except Error α} (fails : FailsOnly allowed result) (change : α → β) :
    FailsOnly allowed (result.map change) := by
  cases result with
  | ok a => trivial
  | error cause => exact fails

end FailsOnly

/-- A result that is there, or a failure with a bad value. -/
def Checks (result : Except Error α) : Prop :=
  FailsOnly (fun cause => cause.family = .badValue) result

/-- From any state, a computation gives an answer of some sort or fails with an allowed cause. -/
def Ends (answers : α → Prop) (allowed : Error → Prop) (act : EStateM Error σ α) : Prop :=
  ∀ s, match act.run s with
    | .ok a _ => answers a
    | .error cause _ => allowed cause

namespace Ends

theorem mono {answers : α → Prop} {act : EStateM Error σ α} (ends : Ends answers allowed act)
    (weaker : ∀ cause, allowed cause → wider cause) : Ends answers wider act := by
  intro s
  have reached := ends s
  cases ran : act.run s with
  | error cause s' =>
    rw [ran] at reached
    exact weaker cause reached
  | ok a s' =>
    rw [ran] at reached
    exact reached

theorem pure {answers : α → Prop} {a : α} (good : answers a) :
    Ends answers allowed (pure a : EStateM Error σ α) :=
  fun _ => good

theorem throw {answers : α → Prop} {cause : Error} (good : allowed cause) :
    Ends answers allowed (throw cause : EStateM Error σ α) :=
  fun _ => good

theorem get : Ends (fun _ => True) allowed (get : EStateM Error σ σ) :=
  fun _ => trivial

theorem set (s : σ) : Ends (fun _ => True) allowed (set s : EStateM Error σ Unit) :=
  fun _ => trivial

theorem modify (change : σ → σ) :
    Ends (fun _ => True) allowed (modify change : EStateM Error σ Unit) :=
  fun _ => trivial

theorem bind {answers : β → Prop} {between : α → Prop} {first : EStateM Error σ α}
    {rest : α → EStateM Error σ β} (start : Ends between allowed first)
    (next : ∀ a, between a → Ends answers allowed (rest a)) :
    Ends answers allowed (first >>= rest) := by
  intro s
  have reached := start s
  show match EStateM.bind first rest s with
    | .ok b _ => answers b
    | .error cause _ => allowed cause
  unfold EStateM.run at reached
  unfold EStateM.bind
  cases ran : first s with
  | error cause s' =>
    rw [ran] at reached
    exact reached
  | ok a s' =>
    rw [ran] at reached
    exact next a reached s'

theorem forM {act : α → EStateM Error σ PUnit} (items : List α)
    (each : ∀ a ∈ items, Ends (fun _ => True) allowed (act a)) :
    Ends (fun _ => True) allowed (items.forM act) := by
  induction items with
  | nil => exact fun _ => trivial
  | cons a rest ih =>
    have others := ih fun b member => each b (List.mem_cons_of_mem a member)
    exact (each a List.mem_cons_self).bind fun _ _ => others

end Ends

end Allowed

/-! ## 2. Unfit values -/

/-- A cause that data is meant to be refused with: a bad value, or a name that is not there. -/
def Error.isPromised (cause : Error) : Bool :=
  cause.family = .badValue || cause.family = .missingKey

/-- A cause that is not meant to come up: a value of another type, or a number that is too large. -/
def Error.isStray (cause : Error) : Bool :=
  cause.family = .badType || cause.family = .tooLarge

/-- Values that stray causes come from where a number is read, a whole one if `whole`. -/
inductive Unfit (whole : Bool) : Value → Prop
  | null : Unfit whole .null
  | list (items : List Value) : Unfit whole (.list items)
  | object (fields : List (String × Value)) : Unfit whole (.object fields)
  | huge {n : Int} : whole = false → Decimal.ofInt? n = none → Unfit whole (.int n)
  | infinite {x : Float} {negative : Bool} : whole = true → Decimal.form x = .infinite negative →
      Unfit whole (.float x)

/-- What a reading of numbers may fail with, where `given` tells which values it reads as numbers: a
promised cause, or a stray one when one of the values is unfit. -/
inductive Expected (given : Bool → Value → Prop) (cause : Error) : Prop
  | promised : cause.isPromised = true → Expected given cause
  | stray {whole : Bool} {v : Value} : cause.isStray = true → given whole v → Unfit whole v →
      Expected given cause

theorem Expected.mono {given wider : Bool → Value → Prop} {cause : Error}
    (expected : Expected given cause) (weaker : ∀ whole v, given whole v → wider whole v) :
    Expected wider cause := by
  cases expected with
  | promised kind => exact .promised kind
  | stray kind read unfit => exact .stray kind (weaker _ _ read) unfit

/-- A stray cause is none of the promised ones, so that it tells of an unfit value. -/
theorem Expected.of_isStray {given : Bool → Value → Prop} {cause : Error}
    (expected : Expected given cause) (kind : cause.isStray = true) :
    ∃ whole v, given whole v ∧ Unfit whole v := by
  cases expected with
  | promised promised =>
    unfold Error.isStray at kind
    unfold Error.isPromised at promised
    cases family : cause.family <;> rw [family] at kind promised <;> contradiction
  | stray _ read unfit => exact ⟨_, _, read, unfit⟩

theorem Expected.of_badValue {given : Bool → Value → Prop} {cause : Error}
    (bad : cause.family = .badValue) : Expected given cause :=
  .promised (by rw [Error.isPromised, bad]; rfl)

theorem Checks.expected {α : Type} {result : Except Error α} (checks : Checks result)
    {given : Bool → Value → Prop} : FailsOnly (Expected given) result :=
  checks.mono fun _ => .of_badValue

namespace Value

/-- Values that are too large: an integer for a number, and an infinity for a whole one. -/
inductive TooLarge : Bool → Value → Prop
  | huge {n : Int} : Decimal.ofInt? n = none → TooLarge false (.int n)
  | infinite {x : Float} {negative : Bool} : Decimal.form x = .infinite negative →
      TooLarge true (.float x)

theorem TooLarge.unfit {whole : Bool} {v : Value} (tooLarge : TooLarge whole v) :
    Unfit whole v := by
  cases tooLarge with
  | huge beyond => exact .huge rfl beyond
  | infinite shape => exact .infinite rfl shape

/-- Why a value is not read as a number, a whole one if `whole`. -/
inductive Misread (whole : Bool) (v : Value) (cause : Error) : Prop
  | form : cause.family = .badValue → Misread whole v cause
  | type : cause.family = .badType → Unfit whole v → Misread whole v cause
  | size : cause.family = .tooLarge → TooLarge whole v → Misread whole v cause

theorem Misread.expected {whole : Bool} {v : Value} {cause : Error}
    (misread : Misread whole v cause) {given : Bool → Value → Prop} (read : given whole v) :
    Expected given cause := by
  cases misread with
  | form bad => exact .of_badValue bad
  | type bad unfit => exact .stray (by rw [Error.isStray, bad]; rfl) read unfit
  | size bad tooLarge => exact .stray (by rw [Error.isStray, bad]; rfl) read tooLarge.unfit

theorem misread_toFloat (v : Value) : FailsOnly (Misread false v) v.toFloat := by
  cases v with
  | null => exact .type rfl .null
  | list items => exact .type rfl (.list items)
  | object fields => exact .type rfl (.object fields)
  | bool b | float x => trivial
  | int n =>
    rw [toFloat]
    cases double : Decimal.ofInt? n with
    | none => exact .size rfl (.huge double)
    | some x => trivial
  | text s =>
    rw [toFloat]
    cases Decimal.readFloat? s with
    | none => exact .form rfl
    | some x => trivial

theorem misread_toInt (v : Value) : FailsOnly (Misread true v) v.toInt := by
  cases v with
  | null => exact .type rfl .null
  | list items => exact .type rfl (.list items)
  | object fields => exact .type rfl (.object fields)
  | bool b | int n => trivial
  | float x =>
    rw [toInt, integerOf]
    cases shape : Decimal.form x with
    | finite negative mantissa exponent => trivial
    | infinite negative => exact .size rfl (.infinite shape)
    | notANumber => exact .form rfl
  | text s =>
    rw [toInt]
    cases Decimal.readInt? s with
    | none => exact .form rfl
    | some n => trivial

theorem checks_toBool (v : Value) : Checks v.toBool := by
  cases v with
  | text s =>
    rw [toBool]
    cases trueTexts.contains (Text.lower (Text.trim s)) with
    | true => trivial
    | false =>
      cases falseTexts.contains (Text.lower (Text.trim s)) with
      | true => trivial
      | false => exact rfl
  | null | bool _ | int _ | float _ | list _ | object _ => trivial

section Reading

variable {given : Bool → Value → Prop} {v : Value}

theorem failsOnly_toFloat (read : given false v) : FailsOnly (Expected given) v.toFloat :=
  v.misread_toFloat.mono fun _ misread => misread.expected read

theorem failsOnly_toInt (read : given true v) : FailsOnly (Expected given) v.toInt :=
  v.misread_toInt.mono fun _ misread => misread.expected read

end Reading

/-- The unfit values are just those that a number is read from with a stray failure. -/
theorem unfit_false_iff {v : Value} :
    Unfit false v ↔ ∃ cause, v.toFloat = .error cause ∧ cause.isStray = true := by
  constructor
  · intro unfit
    cases unfit with
    | null => exact ⟨_, rfl, rfl⟩
    | list items => exact ⟨_, rfl, rfl⟩
    | object fields => exact ⟨_, rfl, rfl⟩
    | huge _ beyond => exact ⟨.integerTooLarge, by rw [toFloat, beyond], rfl⟩
    | infinite isWhole => cases isWhole
  · rintro ⟨cause, failed, kind⟩
    have expected : FailsOnly (Expected fun whole u => whole = false ∧ u = v) v.toFloat :=
      failsOnly_toFloat ⟨rfl, rfl⟩
    rw [failed] at expected
    obtain ⟨_, _, ⟨rfl, rfl⟩, unfit⟩ := expected.of_isStray kind
    exact unfit

theorem unfit_true_iff {v : Value} :
    Unfit true v ↔ ∃ cause, v.toInt = .error cause ∧ cause.isStray = true := by
  constructor
  · intro unfit
    cases unfit with
    | null => exact ⟨_, rfl, rfl⟩
    | list items => exact ⟨_, rfl, rfl⟩
    | object fields => exact ⟨_, rfl, rfl⟩
    | huge isReal => cases isReal
    | infinite _ shape => exact ⟨.integerOfInfinity, by rw [toInt, integerOf, shape], rfl⟩
  · rintro ⟨cause, failed, kind⟩
    have expected : FailsOnly (Expected fun whole u => whole = true ∧ u = v) v.toInt :=
      failsOnly_toInt ⟨rfl, rfl⟩
    rw [failed] at expected
    obtain ⟨_, _, ⟨rfl, rfl⟩, unfit⟩ := expected.of_isStray kind
    exact unfit

end Value

/-! ## 3. Where numbers are read -/

namespace Kind

/-- The fields of a kind that hold a number, a whole one if `whole`. -/
def numberFields (k : Kind) (whole : Bool) : List String :=
  ((k.defaults 0).fields.filter fun field =>
    field.2.typeName == if whole then "int" else "float").map (·.1)

/-- The values that updates give for the fields that hold a number. -/
def Given (k : Kind) (updates : Fields) (whole : Bool) (v : Value) : Prop :=
  ∃ field ∈ k.numberFields whole, updates.last? field = some v

end Kind

section Fields

variable {α : Type} {allowed : Error → Prop} {k : Kind} {updates : Fields} {field : String}

theorem failsOnly_pick {read : Value → Except Error α}
    (each : ∀ v, updates.last? field = some v → FailsOnly allowed (read v)) (current : α) :
    FailsOnly allowed (updates.pick field read current) := by
  unfold Fields.pick
  cases last : updates.last? field with
  | none => trivial
  | some v => exact each v last

theorem failsOnly_number (number : field ∈ k.numberFields false)
    (current : Float) : FailsOnly (Expected (k.Given updates)) (updates.number field current) :=
  failsOnly_pick (fun _ last => Value.failsOnly_toFloat ⟨field, number, last⟩)
    current

theorem failsOnly_integer (number : field ∈ k.numberFields true)
    (current : Int) :
    FailsOnly (Expected (k.Given updates)) (updates.pick field Value.toInt current) :=
  failsOnly_pick (fun _ last => Value.failsOnly_toInt ⟨field, number, last⟩)
    current

theorem checks_ofNames (flags : Noise.Flags) (names : List String) :
    Checks (Noise.Flags.ofNames flags names) := by
  induction names generalizing flags with
  | nil => trivial
  | cons token rest ih =>
    rw [Noise.Flags.ofNames]
    cases Noise.Flags.ofName? (Text.upperAscii token) with
    | none => exact rfl
    | some flag => exact ih _

theorem checks_ofMaterial (v : Value) : Checks (Material.ofValue v) := by
  cases v with
  | text s =>
    rw [Material.ofValue]
    cases Material.ofName? s with
    | none => exact rfl
    | some material => trivial
  | null | bool _ | int _ | float _ | list _ | object _ => exact rfl

theorem failsOnly_flags (number : field ∈ k.numberFields true)
    (current : Noise.Flags) :
    FailsOnly (Expected (k.Given updates)) (updates.pick field Noise.Flags.ofValue current) := by
  refine failsOnly_pick (fun v last => ?_) current
  have whole : FailsOnly (Expected (k.Given updates)) v.toInt :=
    Value.failsOnly_toInt ⟨field, number, last⟩
  cases v with
  | text s => exact (checks_ofNames _ _).expected
  | null | bool _ | int _ | float _ | list _ | object _ => exact whole.map Noise.Flags.ofInt

theorem failsOnly_boolean {given : Bool → Value → Prop} (current : Bool) :
    FailsOnly (Expected given) (updates.pick field Value.toBool current) :=
  failsOnly_pick (fun v _ => v.checks_toBool.expected) current

theorem failsOnly_material {given : Bool → Value → Prop} (current : Material) :
    FailsOnly (Expected given) (updates.pick field Material.ofValue current) :=
  failsOnly_pick (fun v _ => (checks_ofMaterial v).expected) current

theorem failsOnly_text (current : String) :
    FailsOnly allowed (updates.pick field (fun value => .ok value.asText) current) :=
  failsOnly_pick (fun _ _ => by trivial) current

end Fields

theorem checks_checkCount (name : String) (n : Int) : Checks (checkCount name n) := by
  unfold checkCount
  split
  · exact rfl
  · trivial

theorem checks_checkNonzero (name : String) (x : Float) : Checks (checkNonzero name x) := by
  unfold checkNonzero
  split
  · exact rfl
  · trivial

/-! ## 4. Updates -/

section Records

variable {updates : Fields}

theorem Bell.failsOnly_replace (bell : Bell) :
    FailsOnly (Expected (Kind.gaussian.Given updates)) (bell.replace updates) := by
  refine (failsOnly_number (by decide) _).bind fun centerX _ => ?_
  refine (failsOnly_number (by decide) _).bind fun centerY _ => ?_
  refine (failsOnly_number (by decide) _).bind fun centerZ _ => ?_
  refine (failsOnly_number (by decide) _).bind fun spread _ => ?_
  exact (checks_checkNonzero _ _).expected.bind fun _ _ => trivial

theorem Bounds.failsOnly_replace (bounds : Bounds) :
    FailsOnly (Expected (Kind.remap.Given updates)) (bounds.replace updates) := by
  refine (failsOnly_number (by decide) _).bind fun inMin _ => ?_
  refine (failsOnly_number (by decide) _).bind fun inMax _ => ?_
  refine (failsOnly_number (by decide) _).bind fun outMin _ => ?_
  exact (failsOnly_number (by decide) _).bind fun outMax _ => trivial

theorem Point.failsOnly_replace (point : Point) :
    FailsOnly (Expected (Kind.distance.Given updates)) (point.replace updates) := by
  refine (failsOnly_number (by decide) _).bind fun x _ => ?_
  refine (failsOnly_number (by decide) _).bind fun y _ => ?_
  exact (failsOnly_number (by decide) _).bind fun z _ => trivial

theorem Test.failsOnly_replace (test : Test) :
    FailsOnly (Expected (Kind.compare.Given updates)) (test.replace updates) := by
  refine (failsOnly_text _).bind fun sign _ => ?_
  refine (failsOnly_number (by decide) _).bind fun useTrue _ => ?_
  refine (failsOnly_number (by decide) _).bind fun useFalse _ => ?_
  cases Comparison.ofSign? sign with
  | none => exact .promised rfl
  | some operator => trivial

theorem Terrain.failsOnly_replace {given : Bool → Value → Prop} (terrain : Terrain) :
    FailsOnly (Expected given) (terrain.replace updates) := by
  refine (failsOnly_text _).bind fun name _ => ?_
  refine (failsOnly_text _).bind fun color _ => ?_
  refine (failsOnly_material _).bind fun material _ => ?_
  cases Text.isBlankText name with
  | true => exact .promised rfl
  | false => trivial

namespace Noise

/-- The plane and space read the same fields, but for the last one. -/
theorem Settings.failsOnly_draft (s : Settings Float) {k : Kind}
    (real : ∀ field ∈ Kind.noise2d.numberFields false, field ∈ k.numberFields false)
    (whole : ∀ field ∈ Kind.noise2d.numberFields true, field ∈ k.numberFields true) :
    FailsOnly (Expected (k.Given updates)) (s.draft updates) := by
  refine (failsOnly_flags (whole _ (by decide)) _).bind fun flags _ => ?_
  refine (failsOnly_integer (whole _ (by decide)) _).bind fun seed _ => ?_
  refine (failsOnly_integer (whole _ (by decide)) _).bind fun octaves _ => ?_
  refine (failsOnly_number (real _ (by decide)) _).bind fun offset _ => ?_
  refine (failsOnly_number (real _ (by decide)) _).bind fun scale _ => ?_
  refine (failsOnly_number (real _ (by decide)) _).bind fun persist _ => ?_
  refine (failsOnly_number (real _ (by decide)) _).bind fun lacunarity _ => ?_
  refine (failsOnly_number (real _ (by decide)) _).bind fun spreadX _ => ?_
  exact (failsOnly_number (real _ (by decide)) _).bind fun spreadY _ => trivial

theorem Draft.failsOnly_check {given : Bool → Value → Prop} (d : Draft) :
    FailsOnly (Expected given) d.check := by
  refine (checks_checkCount _ _).expected.bind fun octaves _ => ?_
  refine (checks_checkNonzero _ _).expected.bind fun _ _ => ?_
  exact (checks_checkNonzero _ _).expected.bind fun _ _ => trivial

theorem Settings.failsOnly_replace (s : Settings Float) :
    FailsOnly (Expected (Kind.noise2d.Given updates)) (s.replace updates) :=
  (s.failsOnly_draft (fun _ member => member) fun _ member => member).bind fun d _ =>
    d.failsOnly_check

theorem Settings3.failsOnly_replace (s : Settings3 Float) :
    FailsOnly (Expected (Kind.noise3d.Given updates)) (s.replace updates) := by
  refine (s.toSettings.failsOnly_draft (by decide) (by decide)).bind fun draft _ => ?_
  refine (failsOnly_number (by decide) _).bind fun spreadZ _ => ?_
  refine draft.failsOnly_check.bind fun settings _ => ?_
  exact (checks_checkNonzero _ _).expected.bind fun _ _ => trivial

theorem Mandelbrot.failsOnly_replace (view : Mandelbrot Float) :
    FailsOnly (Expected (Kind.mandelbrot.Given updates)) (view.replace updates) := by
  refine (failsOnly_number (by decide) _).bind fun scale _ => ?_
  refine (failsOnly_number (by decide) _).bind fun offsetX _ => ?_
  refine (failsOnly_number (by decide) _).bind fun offsetZ _ => ?_
  refine (failsOnly_integer (by decide) _).bind fun steps _ => ?_
  refine (failsOnly_boolean _).bind fun remap _ => ?_
  refine (failsOnly_number (by decide) _).bind fun remapMin _ => ?_
  refine (failsOnly_number (by decide) _).bind fun remapMax _ => ?_
  refine (checks_checkNonzero _ _).expected.bind fun _ _ => ?_
  exact (checks_checkCount _ _).expected.bind fun _ _ => trivial

end Noise

end Records

namespace Params

/-- An update fails with a bad value, or because it gives an unfit value for a number. -/
theorem failsOnly_replace (p : Params) (updates : Fields) :
    FailsOnly (Expected (p.kind.Given updates)) (p.replace updates) := by
  cases p with
  | lerp power => exact (failsOnly_number (k := .lerp) (by decide) _).bind fun _ _ => trivial
  | gaussian bell => exact bell.failsOnly_replace.bind fun _ _ => trivial
  | remap bounds => exact bounds.failsOnly_replace.bind fun _ _ => trivial
  | distance point => exact point.failsOnly_replace.bind fun _ _ => trivial
  | noise2d settings => exact settings.failsOnly_replace.bind fun _ _ => trivial
  | noise3d settings => exact settings.failsOnly_replace.bind fun _ _ => trivial
  | mandelbrot view => exact view.failsOnly_replace.bind fun _ _ => trivial
  | terrainType terrain => exact terrain.failsOnly_replace.bind fun _ _ => trivial
  | compare test => exact test.failsOnly_replace.bind fun _ _ => trivial
  | add | subtract | multiply | abs | coserp | position | terrainOutput => trivial

theorem known_eq (p : Params) (updates : Fields) :
    p.known updates = (p.kind.defaults 0).known updates := by
  unfold known
  rw [fieldNames_eq p]

theorem failsOnly_merge (p : Params) (updates : Fields) :
    FailsOnly (Expected (p.kind.Given (p.known updates))) (p.merge updates) := by
  simp only [merge]
  split
  · trivial
  · exact (p.failsOnly_replace _).bind fun _ _ => trivial

end Params

theorem Node.failsOnly_update (n : Node) (updates : Fields) :
    FailsOnly (Expected (n.kind.Given (n.params.known updates))) (n.update updates) :=
  (n.params.failsOnly_merge updates).bind fun _ _ => trivial

end Landform
