import Landform.Proofs.Failures
import Landform.Proofs.Graph.Saved
import Landform.Proofs.Params.Merging

/-!
# How updates end

An update of a node reads the fields in a fixed order, and the first value that cannot be read ends
it. A value may fail to be read because it is none of the right type, or because it is too large:
an integer beyond the doubles, or an infinity in place of an integer. The first is reported as a
refusal, as is every value that is read and misses a demand; the second is not reported at all, and
escapes.

1. `StopsAt`, `Declared.firstFailure?`: computations that stop at the first value that cannot be
   read.
2. `Params.stopsAt_replace`: updates of parameters are such computations.
3. `Form.Overflows`, `Form.failsOnly_coerce`: values that are too large.
4. `Kind.Accepts`, `Kind.Overflows`: when updates can be merged, and when their failure escapes.
5. `Graph.Reachable.update_ends`: how the update of a node ends.
-/

namespace Landform

/-! ## 1. The first failure -/

/-- A computation fails with the given cause; without one it ends as told. -/
def StopsAt {α : Type} (failure : Option Error) (otherwise : Except Error α → Prop)
    (result : Except Error α) : Prop :=
  match failure with
  | some cause => result = .error cause
  | none => otherwise result

/-- Why data cannot be read for a field, if it cannot. -/
def Declared.failure? (field : Declared) (v : Value) : Option Error :=
  match field.form.coerce v with
  | .ok _ => none
  | .error cause => some cause

/-- Why the first of some fields cannot be read that cannot, when some of them have new values. -/
def Declared.firstFailure? (values : String → Option Value) (fields : List Declared) :
    Option Error :=
  fields.findSome? fun field => (values field.name).bind field.failure?

/-- A result that is there. -/
def Succeeds {α : Type} (result : Except Error α) : Prop :=
  ∃ a, result = .ok a

section Reading

variable {α β : Type} {updates : Fields} {fields : List Declared}
  {otherwise : Except Error β → Prop}

theorem StopsAt.bind {f f' : Option Error} {first : Except Error α} {rest : α → Except Error β}
    (start : StopsAt f Succeeds first) (next : ∀ a, StopsAt f' otherwise (rest a)) :
    StopsAt (f.or f') otherwise (first >>= rest) := by
  cases f with
  | some cause =>
    have failed : first = .error cause := start
    rw [failed]
    rfl
  | none =>
    obtain ⟨a, rfl⟩ := start
    exact next a

/-- Taking a result over into a larger one. -/
theorem StopsAt.map {f : Option Error} {result : Except Error α} (stops : StopsAt f Checks result)
    (change : α → β) : StopsAt f Checks (result >>= fun a => .ok (change a)) := by
  cases f with
  | some cause =>
    have failed : result = .error cause := stops
    rw [failed]
    rfl
  | none => exact FailsOnly.bind stops fun _ _ => trivial

section Field

variable {form : Form} {demand : Demand} {read : Value → Except Error α} {write : α → Value}
  (by' : form.By read write)

include by'

theorem stopsAt_pick (name : String) (a : α) :
    StopsAt ((updates.last? name).bind (Declared.failure? ⟨name, form, demand⟩)) Succeeds
      (updates.pick name read a) := by
  unfold Fields.pick
  cases updates.last? name with
  | none => exact ⟨a, rfl⟩
  | some v =>
    rw [Option.bind_some, Declared.failure?, by'.coerce_eq]
    cases result : read v with
    | ok b => exact ⟨b, result⟩
    | error cause => exact result

/-- Reading a field before the others. -/
theorem StopsAt.pick_bind {name : String} {a : α} {rest : α → Except Error β}
    (next : ∀ b, StopsAt (Declared.firstFailure? updates.last? fields) otherwise (rest b)) :
    StopsAt (Declared.firstFailure? updates.last? (⟨name, form, demand⟩ :: fields)) otherwise
      (updates.pick name read a >>= rest) := by
  have first : Declared.firstFailure? updates.last? (⟨name, form, demand⟩ :: fields) =
      ((updates.last? name).bind (Declared.failure? ⟨name, form, demand⟩)).or
        (Declared.firstFailure? updates.last? fields) := by
    rw [Declared.firstFailure?, List.findSome?_cons]
    dsimp only
    cases (updates.last? name).bind (Declared.failure? ⟨name, form, demand⟩) <;> rfl
  rw [first]
  exact (stopsAt_pick by' name a).bind next

end Field

end Reading

/-! ## 2. Updates of parameters -/

section Records

variable {updates : Fields}

theorem Bell.stopsAt_replace (bell : Bell) :
    StopsAt (Declared.firstFailure? updates.last? Kind.gaussian.declared) Checks
      (bell.replace updates) := by
  refine .pick_bind Form.real_by fun x => ?_
  refine .pick_bind Form.real_by fun y => ?_
  refine .pick_bind Form.real_by fun z => ?_
  refine .pick_bind Form.real_by fun spread => ?_
  exact (checks_checkNonzero _ _).bind fun _ _ => trivial

theorem Bounds.stopsAt_replace (bounds : Bounds) :
    StopsAt (Declared.firstFailure? updates.last? Kind.remap.declared) Checks
      (bounds.replace updates) := by
  refine .pick_bind Form.real_by fun inMin => ?_
  refine .pick_bind Form.real_by fun inMax => ?_
  refine .pick_bind Form.real_by fun outMin => ?_
  exact .pick_bind Form.real_by fun outMax => trivial

theorem Point.stopsAt_replace (point : Point) :
    StopsAt (Declared.firstFailure? updates.last? Kind.distance.declared) Checks
      (point.replace updates) := by
  refine .pick_bind Form.real_by fun x => ?_
  refine .pick_bind Form.real_by fun y => ?_
  exact .pick_bind Form.real_by fun z => trivial

theorem Test.stopsAt_replace (test : Test) :
    StopsAt (Declared.firstFailure? updates.last? Kind.compare.declared) Checks
      (test.replace updates) := by
  refine .pick_bind Form.text_by fun sign => ?_
  refine .pick_bind Form.real_by fun useTrue => ?_
  refine .pick_bind Form.real_by fun useFalse => ?_
  cases Comparison.ofSign? sign with
  | none => exact rfl
  | some operator => trivial

theorem Terrain.stopsAt_replace (terrain : Terrain) :
    StopsAt (Declared.firstFailure? updates.last? Kind.terrainType.declared) Checks
      (terrain.replace updates) := by
  refine .pick_bind Form.text_by fun name => ?_
  refine .pick_bind Form.text_by fun color => ?_
  refine .pick_bind Form.material_by fun material => ?_
  cases Text.isBlankText name with
  | true => exact rfl
  | false => trivial

namespace Noise

theorem Settings.stopsAt_draft (s : Settings Float) :
    StopsAt (Declared.firstFailure? updates.last? declared) Succeeds (s.draft updates) := by
  refine .pick_bind Form.flags_by fun flags => ?_
  refine .pick_bind Form.whole_by fun seed => ?_
  refine .pick_bind Form.whole_by fun octaves => ?_
  refine .pick_bind Form.real_by fun offset => ?_
  refine .pick_bind Form.real_by fun scale => ?_
  refine .pick_bind Form.real_by fun persist => ?_
  refine .pick_bind Form.real_by fun lacunarity => ?_
  refine .pick_bind Form.real_by fun spreadX => ?_
  exact .pick_bind Form.real_by fun spreadY => ⟨_, rfl⟩

theorem Draft.checks_check (d : Draft) : Checks d.check := by
  refine (checks_checkCount _ _).bind fun octaves _ => ?_
  refine (checks_checkNonzero _ _).bind fun _ _ => ?_
  exact (checks_checkNonzero _ _).bind fun _ _ => trivial

theorem Settings.stopsAt_replace (s : Settings Float) :
    StopsAt (Declared.firstFailure? updates.last? Kind.noise2d.declared) Checks
      (s.replace updates) := by
  have stops : StopsAt ((Declared.firstFailure? updates.last? declared).or none) Checks
      (s.replace updates) :=
    s.stopsAt_draft.bind fun d => d.checks_check
  rwa [Option.or_none] at stops

theorem Settings3.stopsAt_replace (s : Settings3 Float) :
    StopsAt (Declared.firstFailure? updates.last? Kind.noise3d.declared) Checks
      (s.replace updates) := by
  -- the last spread is read after the others and before any of them is checked
  have appended : Declared.firstFailure? updates.last? Kind.noise3d.declared =
      (Declared.firstFailure? updates.last? declared).or
        (Declared.firstFailure? updates.last? [.nonzero "spread_z"]) := List.findSome?_append
  rw [appended]
  refine s.toSettings.stopsAt_draft.bind fun draft => ?_
  refine .pick_bind Form.real_by fun spreadZ => ?_
  refine draft.checks_check.bind fun settings _ => ?_
  exact (checks_checkNonzero _ _).bind fun _ _ => trivial

theorem Mandelbrot.stopsAt_replace (view : Mandelbrot Float) :
    StopsAt (Declared.firstFailure? updates.last? Kind.mandelbrot.declared) Checks
      (view.replace updates) := by
  refine .pick_bind Form.real_by fun scale => ?_
  refine .pick_bind Form.real_by fun offsetX => ?_
  refine .pick_bind Form.real_by fun offsetZ => ?_
  refine .pick_bind Form.whole_by fun steps => ?_
  refine .pick_bind Form.truth_by fun remap => ?_
  refine .pick_bind Form.real_by fun remapMin => ?_
  refine .pick_bind Form.real_by fun remapMax => ?_
  refine (checks_checkNonzero _ _).bind fun _ _ => ?_
  exact (checks_checkCount _ _).bind fun _ _ => trivial

end Noise

end Records

/-- An update fails with the first value that cannot be read, or at most with a bad value. -/
theorem Params.stopsAt_replace (p : Params) (updates : Fields) :
    StopsAt (Declared.firstFailure? updates.last? p.kind.declared) Checks (p.replace updates) := by
  cases p with
  | lerp power => exact .pick_bind Form.real_by fun power => trivial
  | gaussian bell => exact bell.stopsAt_replace.map gaussian
  | remap bounds => exact bounds.stopsAt_replace.map remap
  | distance point => exact point.stopsAt_replace.map distance
  | noise2d settings => exact settings.stopsAt_replace.map noise2d
  | noise3d settings => exact settings.stopsAt_replace.map noise3d
  | mandelbrot view => exact view.stopsAt_replace.map mandelbrot
  | terrainType terrain => exact terrain.stopsAt_replace.map terrainType
  | compare test => exact test.stopsAt_replace.map compare
  | add | subtract | multiply | abs | coserp | position | terrainOutput => trivial

/-! ## 3. Values that are too large -/

/-- Values that are too large for the form of a field: an integer beyond the doubles in place of a
number, and an infinity in place of an integer. -/
inductive Form.Overflows : Form → Value → Prop
  | huge {n : Int} : Decimal.ofInt? n = none → Overflows real (.int n)
  | infinite {form : Form} {x : Float} {negative : Bool} : form = whole ∨ form = flags →
      Decimal.form x = .infinite negative → Overflows form (.float x)

/-- Why data cannot be read: either the cause is reported, or it is that the data is too large. -/
def Foreseen (form : Form) (v : Value) (cause : Error) : Prop :=
  Edit.isReported cause = true ∨ cause.family = .tooLarge ∧ form.Overflows v

theorem not_isReported {cause : Error} (tooLarge : cause.family = .tooLarge) :
    Edit.isReported cause = false := by
  rw [Edit.isReported, tooLarge]
  decide

theorem Foreseen.of_badValue {form : Form} {v : Value} {cause : Error}
    (bad : cause.family = .badValue) : Foreseen form v cause :=
  .inl (by rw [Edit.isReported, bad]; rfl)

theorem Foreseen.of_badType {form : Form} {v : Value} {cause : Error}
    (bad : cause.family = .badType) : Foreseen form v cause :=
  .inl (by rw [Edit.isReported, bad]; rfl)

theorem foreseen_real {v : Value} {cause : Error} (misread : v.Misread false cause) :
    Foreseen .real v cause := by
  cases misread with
  | form bad => exact .of_badValue bad
  | type bad _ => exact .of_badType bad
  | size bad tooLarge =>
    cases tooLarge with
    | huge beyond => exact .inr ⟨bad, .huge beyond⟩

theorem foreseen_integral {form : Form} (integral : form = .whole ∨ form = .flags) {v : Value}
    {cause : Error} (misread : v.Misread true cause) : Foreseen form v cause := by
  cases misread with
  | form bad => exact .of_badValue bad
  | type bad _ => exact .of_badType bad
  | size bad tooLarge =>
    cases tooLarge with
    | infinite shape => exact .inr ⟨bad, .infinite integral shape⟩

/-- Whatever the form of a field, data that cannot be read for it is reported or too large. -/
theorem Form.failsOnly_coerce (form : Form) (v : Value) :
    FailsOnly (Foreseen form v) (form.coerce v) := by
  have checked {α : Type} {result : Except Error α} (checks : Checks result) :
      FailsOnly (Foreseen form v) result := checks.mono fun _ => .of_badValue
  cases form with
  | real => exact (v.misread_toFloat.mono fun _ => foreseen_real).map _
  | whole => exact (v.misread_toInt.mono fun _ => foreseen_integral (.inl rfl)).map _
  | truth => exact (checked v.checks_toBool).map _
  | text => trivial
  | flags =>
    have integer : FailsOnly (Foreseen .flags v) v.toInt :=
      v.misread_toInt.mono fun _ => foreseen_integral (.inr rfl)
    refine FailsOnly.map ?_ _
    cases v with
    | text s => exact checked (checks_ofNames _ _)
    | null | bool _ | int _ | float _ | list _ | object _ => exact integer.map Noise.Flags.ofInt
  | material => exact (checked (checks_ofMaterial v)).map _

theorem Form.Overflows.coerce_eq {form : Form} {v : Value} (overflows : form.Overflows v) :
    ∃ cause, form.coerce v = .error cause ∧ cause.family = .tooLarge := by
  cases overflows with
  | huge double => exact ⟨.integerTooLarge, by rw [coerce, Value.toFloat, double]; rfl, rfl⟩
  | infinite integral shape =>
    refine ⟨.integerOfInfinity, ?_, rfl⟩
    have read {x : Float} {negative : Bool} (shape : Decimal.form x = .infinite negative) :
        Value.toInt (.float x) = .error .integerOfInfinity := by
      rw [Value.toInt, Value.integerOf, shape]
    rcases integral with rfl | rfl
    · rw [coerce, read shape]
      rfl
    · rw [coerce, Noise.Flags.ofValue, read shape]
      · rfl
      · exact fun _ same => by cases same

/-! ## 4. Merged updates -/

/-- Why the first field of a kind cannot be read that cannot: fields are read in a fixed order, each
from the last update that names it. -/
def Kind.firstFailure? (k : Kind) (updates : Fields) : Option Error :=
  Declared.firstFailure? updates.lastNamed? k.declared

/-- Whether every field that updates name fits the last value that they give it. -/
def Kind.Accepts (k : Kind) (updates : Fields) : Prop :=
  ∀ field ∈ k.declared, ∀ v, updates.lastNamed? field.name = some v → field.Fits v

/-- Whether the first field that cannot be read is given a value that is too large for it. -/
def Kind.Overflows (k : Kind) (updates : Fields) : Prop :=
  ∃ before field after v, k.declared = before ++ field :: after ∧
    (∀ earlier ∈ before, ∀ w, updates.lastNamed? earlier.name = some w →
      ∃ r, earlier.form.coerce w = .ok r) ∧
    updates.lastNamed? field.name = some v ∧ field.form.Overflows v

namespace Declared

variable {field : Declared} {v : Value}

theorem failure?_eq_some {cause : Error} :
    field.failure? v = some cause ↔ field.form.coerce v = .error cause := by
  unfold failure?
  cases field.form.coerce v <;> simp

theorem bind_failure?_eq_none {given : Option Value} : given.bind field.failure? = none ↔
    ∀ w, given = some w → ∃ r, field.form.coerce w = .ok r := by
  cases given with
  | none => simp
  | some w =>
    unfold failure?
    cases result : field.form.coerce w <;> simp [result]

end Declared

namespace Kind

variable {k : Kind} {updates : Fields}

theorem firstFailure?_eq_some {cause : Error} : k.firstFailure? updates = some cause ↔
    ∃ before field after v, k.declared = before ++ field :: after ∧
      (∀ earlier ∈ before, ∀ w, updates.lastNamed? earlier.name = some w →
        ∃ r, earlier.form.coerce w = .ok r) ∧
      updates.lastNamed? field.name = some v ∧ field.form.coerce v = .error cause := by
  rw [firstFailure?, Declared.firstFailure?, List.findSome?_eq_some_iff]
  simp only [Declared.bind_failure?_eq_none, Option.bind_eq_some_iff, Declared.failure?_eq_some]
  constructor
  · rintro ⟨before, field, after, split, ⟨v, named, fails⟩, earlier⟩
    exact ⟨before, field, after, v, split, earlier, named, fails⟩
  · rintro ⟨before, field, after, v, split, earlier, named, fails⟩
    exact ⟨before, field, after, split, ⟨v, named, fails⟩, earlier⟩

/-- A value that is too large is what a cause that is not reported comes from. -/
theorem overflows_iff : k.Overflows updates ↔
    ∃ cause, k.firstFailure? updates = some cause ∧ Edit.isReported cause = false := by
  constructor
  · rintro ⟨before, field, after, v, split, earlier, named, overflows⟩
    obtain ⟨cause, fails, tooLarge⟩ := overflows.coerce_eq
    exact ⟨cause, firstFailure?_eq_some.mpr ⟨before, field, after, v, split, earlier, named, fails⟩,
      not_isReported tooLarge⟩
  · rintro ⟨cause, fails, stray⟩
    obtain ⟨before, field, after, v, split, earlier, named, fails⟩ := firstFailure?_eq_some.mp fails
    have foreseen := field.form.failsOnly_coerce v
    rw [fails] at foreseen
    rcases foreseen with reported | ⟨_, overflows⟩
    · rw [stray] at reported
      cases reported
    · exact ⟨before, field, after, v, split, earlier, named, overflows⟩

end Kind

namespace Params

theorem firstFailure?_known (p : Params) (updates : Fields) :
    Declared.firstFailure? (p.known updates).last? p.kind.declared =
      p.kind.firstFailure? updates := by
  have all : ∀ fields, (∀ field ∈ fields, field ∈ p.kind.declared) →
      Declared.firstFailure? (p.known updates).last? fields =
        Declared.firstFailure? updates.lastNamed? fields := by
    intro fields listed
    induction fields with
    | nil => rfl
    | cons field rest ih =>
      obtain ⟨first, others⟩ := List.forall_mem_cons.mp listed
      unfold Declared.firstFailure? at ih ⊢
      rw [List.findSome?_cons, List.findSome?_cons, last?_known updates first, ih others]
  exact all _ fun _ listed => listed

variable {p : Params} (checked : p.isChecked = true) (updates : Fields)

include checked

/-- Only a field that is named can fail. -/
theorem accepts_iff : p.kind.Accepts updates ↔ ∃ m, p.merge updates = .ok m := by
  have fails : p.kind.Accepts updates ↔ ¬ ∃ cause, p.merge updates = .error cause := by
    rw [merge_fails_iff checked]
    push Not
    refine forall₂_congr fun field listed => ?_
    cases updates.lastNamed? field.name with
    | none => exact iff_of_true (fun _ none => by cases none) ⟨_, reads_value checked listed⟩
    | some v => exact ⟨fun fits => fits v rfl, fun fits _ same => Option.some.inj same ▸ fits⟩
  rw [fails]
  cases p.merge updates <;> simp

theorem stopsAt_merge : StopsAt (p.kind.firstFailure? updates) Checks (p.merge updates) := by
  have stops := p.stopsAt_replace (p.known updates)
  rw [firstFailure?_known] at stops
  rw [merge_eq checked]
  exact stops.map _

/-- A merge fails with a cause that is not reported exactly if a value is too large. -/
theorem overflows_iff : p.kind.Overflows updates ↔
    ∃ cause, p.merge updates = .error cause ∧ Edit.isReported cause = false := by
  have stops := stopsAt_merge checked updates
  rw [Kind.overflows_iff]
  refine exists_congr fun cause => and_congr_left fun stray => ?_
  cases first : p.kind.firstFailure? updates with
  | some cause' =>
    rw [first] at stops
    rw [show p.merge updates = .error cause' from stops]
    simp
  | none =>
    -- every field was read, and a demand that is missed is reported
    rw [first] at stops
    refine iff_of_false (by simp) fun fails => ?_
    have ends : Checks (p.merge updates) := stops
    rw [fails] at ends
    have badValue : cause.family = .badValue := ends
    rw [Edit.isReported, badValue] at stray
    cases stray

end Params

/-! ## 5. Updates of nodes -/

namespace Graph

/-- How an update of a node ends: it is done exactly if there is such a node and every named field
fits; it fails exactly if the first value that cannot be read is too large; in all other cases it is
refused, for want of the node or with what the merge fails with. Unless it is done, the graph stays
as it is. -/
structure UpdateEnds (g : Graph) (id : Int) (updates : Fields) : Prop where
  done : (∃ what, (g.run (Edit.update id updates)).2 = .ok (.done what)) ↔
    ∃ n, g.node? id = some n ∧ n.kind.Accepts updates
  fails : (∃ cause, (g.run (Edit.update id updates)).2 = .error cause) ↔
    ∃ n, g.node? id = some n ∧ n.kind.Overflows updates
  refused : ∀ why, (g.run (Edit.update id updates)).2 = .ok (.refused why) →
    g.node? id = none ∧ why = .nodeNotFound id ∨
      ∃ n cause, g.node? id = some n ∧ n.params.merge updates = .error cause ∧
        why = .badParameters id cause
  unchanged : (∀ what, (g.run (Edit.update id updates)).2 ≠ .ok (.done what)) →
    (g.run (Edit.update id updates)).1 = g

theorem run_update_none {g : Graph} {id : Int} (missing : g.node? id = none) (updates : Fields) :
    g.run (Edit.update id updates) = (g, .ok (.refused (.nodeNotFound id))) := by
  rw [Edit.update, run_bind_ok (run_get g), missing]
  exact run_pure g _

theorem run_update_some {g : Graph} {id : Int} {n : Node} (found : g.node? id = some n)
    (updates : Fields) :
    (∃ m, n.params.merge updates = .ok m ∧
      (g.run (Edit.update id updates)).2 = .ok (.done .updated)) ∨
    ∃ cause, n.params.merge updates = .error cause ∧ g.run (Edit.update id updates) =
      (g, if Edit.isReported cause then .ok (.refused (.badParameters id cause))
        else .error cause) := by
  rw [Edit.update, run_bind_ok (run_get g), found]
  dsimp only
  unfold Node.update
  cases result : n.params.merge updates with
  | ok m => exact .inl ⟨m, rfl, rfl⟩
  | error cause =>
    refine .inr ⟨cause, rfl, ?_⟩
    dsimp only [bind, Except.bind]
    split
    · exact run_pure g _
    · exact run_throw g _

/-- Whatever data a node of a reachable graph is updated with, the update ends so. -/
theorem Reachable.update_ends {g : Graph} (reachable : g.Reachable) (id : Int) (updates : Fields) :
    g.UpdateEnds id updates := by
  cases found : g.node? id with
  | none =>
    have ran := run_update_none found updates
    constructor <;> simp [ran, found]
  | some n =>
    have checked := (reachable.stored.nodes_whole n (reachable.stored.node?_iff.mp found).1).checked
    have accepts := Params.accepts_iff checked updates
    have overflows := Params.overflows_iff checked updates
    rw [← Node.kind] at accepts overflows
    rcases run_update_some found updates with ⟨m, merged, ran⟩ | ⟨cause, failed, ran⟩
    · simp only [merged] at accepts overflows
      constructor <;> simp [ran, found, accepts, overflows]
    · simp only [failed] at accepts overflows
      cases reported : Edit.isReported cause with
      | true =>
        rw [reported] at ran
        refine ⟨by simp [ran, found, accepts], by simp [ran, found, overflows, reported],
          fun why answer => .inr ⟨n, cause, found, failed, ?_⟩, fun _ => by rw [ran]⟩
        rw [ran] at answer
        exact (Outcome.refused.inj (Except.ok.inj answer)).symm
      | false =>
        rw [reported] at ran
        constructor <;> simp [ran, found, accepts, overflows, reported]

/-- A graph of one node, with a count among its parameters. -/
def spiral : Graph := (Mutation.add "mandelbrot" (.int 0) (.int 0)).apply (.empty 7)

theorem reachable_spiral : spiral.Reachable := .mutate _ (.empty 7)

/-- All values are read before any of them is checked: the text that is no integer is to blame, and
not the scale of zero before it. -/
theorem spiral_update_ends :
    (spiral.run (Edit.update 1 [("scale", .int 0), ("steps", .text "many")])).2 =
      .ok (.refused (.badParameters 1 (.notAnInteger "many"))) ∧
    spiral.UpdateEnds 1 [("scale", .int 0), ("steps", .text "many")] :=
  ⟨rfl, reachable_spiral.update_ends 1 _⟩

/-- An infinite count is not refused: the failure to read it escapes. -/
theorem infinite_count_escapes : spiral.Reachable ∧
    (spiral.run (Edit.update 1 [("steps", .float Decimal.infinity)])).2 =
      .error .integerOfInfinity :=
  ⟨reachable_spiral, rfl⟩

end Graph

end Landform
