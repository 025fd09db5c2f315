import Landform.Graph.Edit
import Landform.Proofs.Table

/-!
# Parameters

An update reads the named fields over the current parameters and then checks the result. So stored
parameters always pass the checks, and reading their plain form over any parameters of the same
kind, whatever these are, gives them back.

1. `Params.kind_merge`, `Node.update_keeps`: updates keep the kind of a node.
2. `Params.isChecked_defaults`, `Params.isChecked_merge`: stored parameters pass their checks.
3. `Params.known_fields`: the plain form names just the fields that parameters of the kind have.
4. `Params.replace_fields`, `Params.merge_fields`: reading the plain form back.
5. `Node.Whole`: what holds of every node that was created, updated or loaded.
-/

namespace Landform

open Text

theorem Except.bind_eq_ok {ε α β : Type} {first : Except ε α} {rest : α → Except ε β} {b : β} :
    (first >>= rest) = .ok b ↔ ∃ a, first = .ok a ∧ rest a = .ok b := by
  cases first with
  | error cause => simp [bind, Except.bind]
  | ok a => simp [bind, Except.bind]

theorem Except.map_eq_ok {ε α β : Type} {result : Except ε α} {f : α → β} {b : β} :
    result.map f = .ok b ↔ ∃ a, result = .ok a ∧ f a = b := by
  cases result with
  | error cause => simp [Except.map]
  | ok a => simp [Except.map]

theorem Except.exists_of_isOk {ε α : Type} {result : Except ε α} (answered : result.isOk = true) :
    ∃ a, result = .ok a := by
  cases result with
  | ok a => exact ⟨a, rfl⟩
  | error cause => cases answered

/-! ## 1. Updates keep the kind -/

theorem Params.kind_replace {updates : Fields} {p p' : Params}
    (done : p.replace updates = .ok p') : p'.kind = p.kind := by
  cases p with
  | lerp _ | gaussian _ | remap _ | distance _ | noise2d _ | noise3d _ | mandelbrot _
  | terrainType _ | compare _ =>
    obtain ⟨_, _, done⟩ := Except.bind_eq_ok.mp done
    cases done
    rfl
  | add | subtract | multiply | abs | coserp | position | terrainOutput =>
    cases done
    rfl

theorem Params.kind_merge {updates : Fields} {p : Params} {merged : Merged}
    (done : p.merge updates = .ok merged) : merged.params.kind = p.kind := by
  simp only [merge] at done
  split at done
  · cases done
    rfl
  · obtain ⟨p', replaced, done⟩ := Except.bind_eq_ok.mp done
    cases done
    exact kind_replace replaced

theorem Node.update_keeps {updates : Fields} {n n' : Node} (done : n.update updates = .ok n') :
    n'.id = n.id ∧ n'.kind = n.kind := by
  obtain ⟨merged, found, done⟩ := Except.bind_eq_ok.mp done
  cases done
  exact ⟨rfl, Params.kind_merge found⟩

theorem Node.create_eq_ok {id : Int} {k : Kind} {seed : Int} {x y : Value} {n : Node}
    (done : Node.create id k seed x y = .ok n) :
    n.id = id ∧ n.params = k.defaults seed ∧ n.extras = [] := by
  obtain ⟨_, _, done⟩ := Except.bind_eq_ok.mp done
  obtain ⟨_, _, done⟩ := Except.bind_eq_ok.mp done
  cases done
  exact ⟨rfl, rfl, rfl⟩

/-! ## 2. Checks -/

/-- The spreads of noise settings are not zero. -/
def Noise.Settings.isChecked (s : Noise.Settings Float) : Bool :=
  s.spreadX != 0.0 && s.spreadY != 0.0

/-- Whether parameters pass the checks that end an update. -/
def Params.isChecked : Params → Bool
  | .gaussian bell => bell.spread != 0.0
  | .noise2d settings => settings.isChecked
  | .noise3d settings => settings.toSettings.isChecked && settings.spreadZ != 0.0
  | .mandelbrot view => view.scale != 0.0
  | .terrainType terrain => !isBlankText terrain.name
  | _ => true

theorem checkNonzero_eq_ok {field : String} {x : Float} :
    checkNonzero field x = .ok () ↔ (x != 0.0) = true := by
  unfold checkNonzero bne
  cases x == 0.0 <;> simp

theorem checkCount_natCast (field : String) (count : Nat) :
    checkCount field count = .ok count := by
  unfold checkCount
  rw [if_neg (by omega), Int.toNat_natCast]

theorem Bell.spread_of_replace {updates : Fields} {bell bell' : Bell}
    (read : bell.replace updates = .ok bell') : (bell'.spread != 0.0) = true := by
  simp only [replace, Except.bind_eq_ok] at read
  obtain ⟨_, _, _, _, _, _, _, _, _, spread, read⟩ := read
  cases read
  exact checkNonzero_eq_ok.mp spread

theorem Terrain.name_of_replace {updates : Fields} {terrain terrain' : Terrain}
    (read : terrain.replace updates = .ok terrain') : isBlankText terrain'.name = false := by
  simp only [replace, Except.bind_eq_ok] at read
  obtain ⟨name, _, _, _, _, _, read⟩ := read
  cases blank : isBlankText name with
  | true => simp [blank, throw, throwThe, MonadExceptOf.throw, bind, Except.bind] at read
  | false =>
    simp only [blank] at read
    cases read
    exact blank

namespace Noise

theorem Draft.isChecked_check {d : Draft} {s : Settings Float} (read : d.check = .ok s) :
    s.isChecked = true := by
  simp only [check, Except.bind_eq_ok] at read
  obtain ⟨_, _, _, spreadX, _, spreadY, read⟩ := read
  cases read
  exact Bool.and_eq_true_iff.mpr
    ⟨checkNonzero_eq_ok.mp spreadX, checkNonzero_eq_ok.mp spreadY⟩

theorem Settings.isChecked_replace {updates : Fields} {s s' : Settings Float}
    (read : s.replace updates = .ok s') : s'.isChecked = true := by
  obtain ⟨_, _, read⟩ := Except.bind_eq_ok.mp read
  exact Draft.isChecked_check read

theorem Settings3.isChecked_replace {updates : Fields} {s s' : Settings3 Float}
    (read : s.replace updates = .ok s') :
    (s'.toSettings.isChecked && s'.spreadZ != 0.0) = true := by
  simp only [replace, Except.bind_eq_ok] at read
  obtain ⟨_, _, _, _, _, plane, _, spreadZ, read⟩ := read
  cases read
  exact Bool.and_eq_true_iff.mpr
    ⟨Draft.isChecked_check plane, checkNonzero_eq_ok.mp spreadZ⟩

theorem Mandelbrot.scale_of_replace {updates : Fields} {view view' : Mandelbrot Float}
    (read : view.replace updates = .ok view') : (view'.scale != 0.0) = true := by
  simp only [replace, Except.bind_eq_ok] at read
  obtain ⟨_, _, _, _, _, _, _, _, _, _, _, _, _, _, _, scale, _, _, read⟩ := read
  cases read
  exact checkNonzero_eq_ok.mp scale

end Noise

namespace Params

theorem isChecked_defaults (k : Kind) (seed : Int) : (k.defaults seed).isChecked = true := by
  have unseeded : (k.defaults seed).isChecked = (k.defaults 0).isChecked := by cases k <;> rfl
  rw [unseeded]
  cases k <;> decide +kernel

/-- What an update gives passes the checks. -/
theorem isChecked_replace {updates : Fields} {p p' : Params} (done : p.replace updates = .ok p') :
    p'.isChecked = true := by
  cases p with
  | gaussian bell =>
    obtain ⟨bell', read, done⟩ := Except.bind_eq_ok.mp done
    cases done
    exact Bell.spread_of_replace read
  | noise2d settings =>
    obtain ⟨settings', read, done⟩ := Except.bind_eq_ok.mp done
    cases done
    exact Noise.Settings.isChecked_replace read
  | noise3d settings =>
    obtain ⟨settings', read, done⟩ := Except.bind_eq_ok.mp done
    cases done
    exact Noise.Settings3.isChecked_replace read
  | mandelbrot view =>
    obtain ⟨view', read, done⟩ := Except.bind_eq_ok.mp done
    cases done
    exact Noise.Mandelbrot.scale_of_replace read
  | terrainType terrain =>
    obtain ⟨terrain', read, done⟩ := Except.bind_eq_ok.mp done
    cases done
    simp [isChecked, Terrain.name_of_replace read]
  | lerp _ | remap _ | distance _ | compare _ =>
    obtain ⟨_, _, done⟩ := Except.bind_eq_ok.mp done
    cases done
    rfl
  | add | subtract | multiply | abs | coserp | position | terrainOutput =>
    cases done
    rfl

theorem isChecked_merge {updates : Fields} {p : Params} {merged : Merged}
    (checked : p.isChecked = true) (done : p.merge updates = .ok merged) :
    merged.params.isChecked = true := by
  simp only [merge] at done
  split at done
  · cases done
    exact checked
  · obtain ⟨p', replaced, done⟩ := Except.bind_eq_ok.mp done
    cases done
    exact isChecked_replace replaced

end Params

/-! ## 3. Reading the plain form of a record -/

theorem Bell.replace_fields (bell : Bell) {bell' : Bell} (spread : (bell'.spread != 0.0) = true) :
    bell.replace (Params.gaussian bell').fields = .ok bell' := by
  show (checkNonzero "spread" bell'.spread >>= fun _ => .ok bell') = .ok bell'
  rw [checkNonzero_eq_ok.mpr spread]
  rfl

theorem Terrain.replace_fields (terrain : Terrain) {terrain' : Terrain}
    (name : isBlankText terrain'.name = false) :
    terrain.replace (Params.terrainType terrain').fields = .ok terrain' := by
  have material : Material.ofValue (.text terrain'.material.name) = .ok terrain'.material := by
    cases terrain'.material <;> rfl
  show (Material.ofValue (.text terrain'.material.name) >>= fun material =>
    if isBlankText terrain'.name then throw .blankTerrainName
    else .ok ⟨terrain'.name, material, terrain'.color⟩) = .ok terrain'
  rw [material, name]
  rfl

theorem Test.replace_fields (test test' : Test) :
    test.replace (Params.compare test').fields = .ok test' := by
  obtain ⟨operator, useTrue, useFalse⟩ := test'
  cases operator <;> rfl

namespace Noise

theorem Flags.ofInt_natCast (bits : Nat) : ofInt bits = ⟨bits⟩ := by
  unfold ofInt
  rw [if_pos (Int.natCast_nonneg bits), Int.toNat_natCast]

/-- The checks of settings that pass them. -/
theorem Draft.check_eq_ok {s : Settings Float} (checked : s.isChecked = true) :
    Draft.check ⟨{ s with octaves := 0 }, s.octaves⟩ = .ok s := by
  obtain ⟨spreadX, spreadY⟩ := Bool.and_eq_true_iff.mp checked
  simp only [check, checkCount_natCast, checkNonzero_eq_ok.mpr spreadX,
    checkNonzero_eq_ok.mpr spreadY]
  rfl

theorem Settings.replace_fields (s : Settings Float) {s' : Settings Float}
    (checked : s'.isChecked = true) : s.replace s'.fields = .ok s' := by
  show Draft.check ⟨{ s' with octaves := 0, flags := Flags.ofInt s'.flags.bits }, s'.octaves⟩ = _
  rw [Flags.ofInt_natCast]
  exact Draft.check_eq_ok checked

theorem Settings3.replace_fields (s : Settings3 Float) {s' : Settings3 Float}
    (checked : s'.toSettings.isChecked = true) (spreadZ : (s'.spreadZ != 0.0) = true) :
    s.replace (Params.noise3d s').fields = .ok s' := by
  show (Draft.check ⟨{ s'.toSettings with
      octaves := 0, flags := Flags.ofInt s'.flags.bits }, s'.octaves⟩ >>= fun settings =>
    checkNonzero "spread_z" s'.spreadZ >>= fun _ =>
      Except.ok (⟨settings, s'.spreadZ⟩ : Settings3 Float)) = .ok s'
  rw [Flags.ofInt_natCast]
  simp only [Draft.check_eq_ok checked, checkNonzero_eq_ok.mpr spreadZ]
  rfl

theorem Mandelbrot.replace_fields (view : Mandelbrot Float) {view' : Mandelbrot Float}
    (scale : (view'.scale != 0.0) = true) :
    view.replace (Params.mandelbrot view').fields = .ok view' := by
  show (checkNonzero "scale" view'.scale >>= fun _ =>
    checkCount "steps" view'.steps >>= fun steps => .ok { view' with steps }) = _
  simp only [checkNonzero_eq_ok.mpr scale, checkCount_natCast]
  rfl

end Noise

namespace Params

/-! ## 4. The names in the plain form -/

theorem fieldNames_eq (p : Params) : p.fieldNames = (p.kind.defaults 0).fieldNames := by
  cases p <;> rfl

theorem canonicalField_of_mem {p : Params} {name : String} (member : name ∈ p.fieldNames) :
    canonicalField name = name := by
  have all (k : Kind) : ∀ name ∈ (k.defaults 0).fieldNames, canonicalField name = name := by
    cases k <;> decide +kernel
  rw [fieldNames_eq] at member
  exact all p.kind name member

section SameKind

variable {d p : Params} (same : d.kind = p.kind)

include same

theorem fieldNames_congr : d.fieldNames = p.fieldNames := by
  rw [fieldNames_eq d, fieldNames_eq p, same]

theorem named_of_mem_fields {field : String × Value} (member : field ∈ p.fields) :
    canonicalField field.1 = field.1 ∧ d.fieldNames.contains field.1 = true := by
  have listed : field.1 ∈ p.fieldNames := List.mem_map_of_mem member
  exact ⟨canonicalField_of_mem listed,
    List.contains_iff_mem.mpr (fieldNames_congr same ▸ listed)⟩

/-- The fields of the plain form are known to all parameters of the kind. -/
theorem known_fields : d.known p.fields = p.fields := by
  have renamed : p.fields.map (fun update => (canonicalField update.1, update.2)) =
      p.fields.map id := by
    refine List.map_congr_left fun field member => ?_
    rw [(named_of_mem_fields same member).1, id]
  rw [known, renamed, List.map_id]
  exact List.filter_eq_self.mpr fun field member => (named_of_mem_fields same member).2

theorem extras_fields : d.extras p.fields = [] := by
  refine List.filter_eq_nil_iff.mpr fun field member => ?_
  obtain ⟨canonical, known⟩ := named_of_mem_fields same member
  rw [canonical, known]
  decide

/-! ## 5. Reading the plain form -/

/-- Reading the plain form of parameters that pass their checks gives them back, whatever the
parameters were that it is read over. -/
theorem replace_fields (checked : p.isChecked = true) : d.replace p.fields = .ok p := by
  cases p with
  | gaussian bell =>
    cases d <;> cases same
    simp only [replace, Bell.replace_fields _ checked]
    rfl
  | noise2d settings =>
    cases d <;> cases same
    simp only [replace, fields, Noise.Settings.replace_fields _ checked]
    rfl
  | noise3d settings =>
    cases d <;> cases same
    obtain ⟨plane, spreadZ⟩ := Bool.and_eq_true_iff.mp checked
    simp only [replace, Noise.Settings3.replace_fields _ plane spreadZ]
    rfl
  | mandelbrot view =>
    cases d <;> cases same
    simp only [replace, Noise.Mandelbrot.replace_fields _ checked]
    rfl
  | terrainType terrain =>
    cases d <;> cases same
    have name : isBlankText terrain.name = false := by simpa [isChecked] using checked
    simp only [replace, Terrain.replace_fields _ name]
    rfl
  | compare test =>
    cases d <;> cases same
    simp only [replace, Test.replace_fields]
    rfl
  | lerp _ | remap _ | distance _ =>
    cases d <;> cases same
    rfl
  | add | subtract | multiply | abs | coserp | position | terrainOutput =>
    cases d <;> cases same
    rfl

theorem eq_of_fields_eq_nil (none : p.fields = []) : d = p := by
  cases p with
  | add | subtract | multiply | abs | coserp | position | terrainOutput =>
    cases d <;> cases same
    rfl
  | lerp _ | gaussian _ | remap _ | distance _ | noise2d _ | mandelbrot _ | terrainType _
  | compare _ => cases none
  | noise3d settings => exact absurd none (List.append_ne_nil_of_right_ne_nil _ (by simp))

/-- Merging the plain form of parameters leaves these and nothing beside them. -/
theorem merge_fields (checked : p.isChecked = true) :
    d.merge p.fields = .ok ⟨p, [], p.fields.isEmpty⟩ := by
  unfold merge
  simp only [known_fields same, extras_fields same]
  cases none : p.fields.isEmpty with
  | true => rw [eq_of_fields_eq_nil same (List.isEmpty_iff.mp none), if_pos rfl]
  | false =>
    rw [if_neg (by decide), replace_fields same checked]
    rfl

end SameKind

end Params

/-! ## 6. Whole nodes -/

/-- A node whose parameters pass their checks and whose further fields have different names. -/
structure Node.Whole (n : Node) : Prop where
  checked : n.params.isChecked = true
  extras_distinct : n.extras.names.Nodup

namespace Node

theorem whole_of_create {id : Int} {k : Kind} {seed : Int} {x y : Value} {n : Node}
    (done : Node.create id k seed x y = .ok n) : n.Whole := by
  obtain ⟨_, params, extras⟩ := create_eq_ok done
  refine ⟨params ▸ Params.isChecked_defaults k seed, ?_⟩
  rw [extras]
  exact List.nodup_nil

theorem Whole.putExtras {n : Node} (whole : n.Whole) (extras : Fields) :
    ({ n with extras := n.extras.putAll extras } : Node).Whole :=
  ⟨whole.checked, Table.nodup_putAll whole.extras_distinct extras⟩

theorem Whole.update {n n' : Node} (whole : n.Whole) {updates : Fields}
    (done : n.update updates = .ok n') : n'.Whole := by
  obtain ⟨merged, found, done⟩ := Except.bind_eq_ok.mp done
  cases done
  exact ⟨Params.isChecked_merge whole.checked found,
    Table.nodup_putAll whole.extras_distinct merged.extras⟩

/-- A fresh node takes over all parameters of a whole node of its kind. -/
theorem Whole.update_fields {n : Node} (whole : n.Whole) (fresh : Node) (same : fresh.kind = n.kind)
    (bare : fresh.extras = []) :
    fresh.update n.params.fields = .ok { fresh with params := n.params } := by
  unfold Node.update
  rw [Params.merge_fields same whole.checked, bare]
  rfl

end Node

end Landform
