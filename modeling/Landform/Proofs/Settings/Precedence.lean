import Landform.Proofs.Settings.Overrides

/-!
# Precedence of settings

The settings of a source come from the defaults, the layers of its chain from the root base up, and
the overrides. Where no two layers disagree on what is an object, loading succeeds, and every leaf
is the one of the highest layer that sets it. The merges are nested differently: the chain is merged
on its own before it is laid over the defaults. Settings that were saved have the defaults in them, and
loading the file lays them over the defaults again; since they extend the defaults, nothing changes.

1. `Layered.leaf?_eq`: the leaves of a merged value.
2. `Stacked.exists_chosen`: the source over the defaults.
3. `Resolved`: what loading promises.
4. `load_resolved`: loading keeps the promise.
-/

namespace Landform.Settings

open Value

/-! ## 1. Leaves -/

variable {layers tops : List Value} {settings : Value}

/-- Where one of two layers that agree has an object, the other has no leaf. -/
theorem leaf?_of_agree {a b : Value} (agree : Agree a b) {path : List String}
    (object : a.sight? path = some none) : b.leaf? path = none := by
  obtain ⟨u, left, kind⟩ := Option.map_eq_some_iff.mp object
  have isObject : u.isObject = true := isObject_of_kindOf (v := .object []) kind
  rw [leaf?]
  cases right : b.valueAt? path with
  | none => rfl
  | some v => simp [← agree path u v left right, isObject]

/-- Among layers that agree, the first that has anything at a key path decides whether any of them
has a leaf there. -/
theorem join_findSome?_sight (fit : layers.Pairwise Agree) (path : List String) :
    (layers.findSome? (·.sight? path)).join = layers.findSome? (·.leaf? path) := by
  induction layers with
  | nil => rfl
  | cons layer rest ih =>
    obtain ⟨apart, others⟩ := List.pairwise_cons.mp fit
    rw [List.findSome?_cons, List.findSome?_cons, leaf?_eq]
    cases shown : layer.sight? path with
    | none => exact ih others
    | some sight =>
      cases sight with
      | some leaf => rfl
      | none =>
        exact (List.findSome?_eq_none_iff.mpr fun other listed =>
          leaf?_of_agree (apart other listed) shown).symm

theorem Layered.leaf?_eq (layered : Layered layers settings) (fit : layers.Pairwise Agree)
    {name : String} (path : List String) (other : name ≠ baseName) :
    settings.leaf? (name :: path) = layers.findSome? (·.leaf? (name :: path)) := by
  rw [Value.leaf?_eq, layered.sight other, join_findSome?_sight fit]

/-! ## 2. Over the defaults -/

theorem distinct_defaults : defaults.Distinct := by
  have part {fields : Fields} (names : fields.names.Nodup)
      (leaves : ∀ entry ∈ fields, entry.2.isObject = false) : (Value.object fields).Distinct :=
    distinct_object names fun entry listed => distinct_leaf (leaves entry listed)
  refine distinct_object (show (Table.names _).Nodup by decide) ?_
  simp only [List.forall_mem_cons]
  refine ⟨part (by decide) (by decide), part (by decide) (by decide), part (by decide) (by decide),
    part (by decide) (by decide), List.forall_mem_nil _⟩

theorem layered_defaults : Layered [defaults] defaults :=
  .single rfl distinct_defaults

theorem unbased_defaults : defaults.field? baseName = none := rfl

variable {files : Files} {source : Option Source} {overrides : List String} {top : Value}

/-- The settings of a source over the defaults, before the overrides. -/
def chosen (files : Files) : Option Source → Except Error Value
  | none => .ok defaults
  | some source => do mergeValue defaults (← chain files source)

theorem load_eq (files : Files) (source : Option Source) (overrides : List String) :
    load files source overrides = chosen files source >>= fun chosen =>
      if overrides.isEmpty then .ok chosen
      else ofOverrides overrides >>= mergeValue chosen := by
  cases source with
  | none => rfl
  | some source => rw [chosen, bind_assoc]; rfl

/-- What is merged from layers on top of the defaults. -/
structure OverDefaults (layers : List Value) (settings : Value) : Prop where
  layered : Layered (layers ++ [defaults]) settings
  unbased : settings.field? baseName = none
  extended : Extends defaults settings

theorem Stacked.exists_chosen (stacked : Stacked files source layers)
    (fit : (layers ++ [defaults]).Pairwise Agree) :
    ∃ settings, chosen files source = .ok settings ∧ OverDefaults layers settings := by
  cases source with
  | none =>
    cases stacked
    exact ⟨defaults, rfl, layered_defaults, rfl, Extends.refl defaults⟩
  | some source =>
    obtain ⟨others, -, apart⟩ := List.pairwise_append.mp fit
    obtain ⟨upper, done, layered, unbased⟩ := stacked.exists_chain others
    obtain ⟨settings, laid, composed, overlaid⟩ :=
      layered_defaults.merge layered unbased_defaults apart
    exact ⟨settings, Except.bind_eq_ok.mpr ⟨upper, done, laid⟩, composed,
      overlaid.unbased unbased_defaults unbased, overlaid.extended⟩

/-- Further layers on top of settings that lie over the defaults. -/
theorem OverDefaults.merge (based : OverDefaults layers settings) (upper : Layered tops top)
    (unbased : top.field? baseName = none)
    (fit : (tops ++ layers ++ [defaults]).Pairwise Agree) :
    ∃ settings', mergeValue settings top = .ok settings' ∧
      OverDefaults (tops ++ layers) settings' := by
  rw [List.append_assoc] at fit
  obtain ⟨settings', laid, composed, overlaid⟩ :=
    based.layered.merge upper based.unbased (List.pairwise_append.mp fit).2.2
  rw [← List.append_assoc] at composed
  exact ⟨settings', laid, composed, overlaid.unbased based.unbased unbased,
    based.extended.trans overlaid.extended⟩

/-- Settings over the defaults stay as they are when they are laid over the defaults again. -/
theorem OverDefaults.mergeValue_defaults (based : OverDefaults layers settings)
    (fit : (layers ++ [defaults]).Pairwise Agree) :
    mergeValue defaults settings = .ok settings := by
  refine mergeValue_extends based.extended ?_ based.layered.distinct
  refine layered_defaults.agree based.layered unbased_defaults ?_
  obtain ⟨-, -, apart⟩ := List.pairwise_append.mp fit
  rintro layer listed _ (_ | ⟨_, ⟨⟩⟩)
  rcases List.mem_append.mp listed with listed | listed
  · exact apart layer listed defaults (List.mem_singleton_self _)
  · rw [List.mem_singleton.mp listed]
    exact Agree.refl defaults

/-! ## 3. What loading promises -/

/-- Settings that come from layers by precedence, the highest first. Outside the field that names a
base, every leaf is the one of the first layer that has a leaf there, so that no leaf of a layer is
lost; and no base is named. If the settings can be read from the document that they are saved as,
loading it gives them again. -/
structure Resolved (files : Files) (layers : List Value) (settings : Value) : Prop where
  leaves : ∀ name path, name ≠ baseName →
    settings.leaf? (name :: path) = layers.findSome? (·.leaf? (name :: path))
  kept : ∀ layer ∈ layers, ∀ name path, name ≠ baseName →
    (layer.leaf? (name :: path)).isSome → (settings.leaf? (name :: path)).isSome
  unbased : settings.field? baseName = none
  saved : ∀ path files', files.write path (Document.block settings) = .ok files' →
    Document.ofText (Document.block settings) = .ok settings →
    load files' (some (.file path)) [] = .ok settings

theorem OverDefaults.resolved (based : OverDefaults layers settings)
    (fit : (layers ++ [defaults]).Pairwise Agree) :
    Resolved files (layers ++ [defaults]) settings where
  leaves _ path other := based.layered.leaf?_eq fit path other
  kept layer listed name path other set := by
    rw [based.layered.leaf?_eq fit path other]
    exact List.findSome?_isSome_iff.mpr ⟨layer, listed, set⟩
  unbased := based.unbased
  saved path files' written readable := by
    have opened : openFile files' path = .ok settings :=
      Except.bind_eq_ok.mpr ⟨_, Files.read_write written, readable⟩
    have alone : withBases (openFile files') (files'.texts.length + 1) (Path.directory path)
        settings = .ok settings := by rw [withBases, based.unbased]
    have chained : chain files' (.file path) = .ok settings :=
      Except.bind_eq_ok.mpr ⟨settings, opened, alone⟩
    rw [load_eq]
    exact Except.bind_eq_ok.mpr ⟨settings, Except.bind_eq_ok.mpr ⟨settings, chained,
      based.mergeValue_defaults fit⟩, rfl⟩

/-! ## 4. Loading -/

theorem exists_resolved (stacked : Stacked files source layers)
    (given : ofOverrides overrides = .ok top) (upper : Layered tops top)
    (unbased : top.field? baseName = none)
    (fit : (tops ++ layers ++ [defaults]).Pairwise Agree) :
    ∃ settings, load files source overrides = .ok settings ∧
      Resolved files (tops ++ layers ++ [defaults]) settings := by
  obtain ⟨below, found, based⟩ :=
    stacked.exists_chosen (List.pairwise_append.mp (List.append_assoc .. ▸ fit)).2.1
  obtain ⟨settings, laid, merged⟩ := based.merge upper unbased fit
  refine ⟨settings, ?_, merged.resolved fit⟩
  rw [load_eq]
  refine Except.bind_eq_ok.mpr ⟨below, found, ?_⟩
  cases overrides with
  | nil =>
    -- without overrides nothing is merged, which gives what merging an empty object gives
    obtain ⟨fields, rfl⟩ := exists_object based.layered.object
    cases given
    exact laid
  | cons override rest => exact Except.bind_eq_ok.mpr ⟨top, given, laid⟩

/-- Loading keeps to the precedence of the layers: the defaults, the chain of the source from its
root base up, and the overrides, where no two layers disagree on what is an object. The overrides
may be seen as the one layer that they make, or each as a layer of its own. -/
theorem load_resolved (stacked : Stacked files source layers)
    (others : ∀ override ∈ overrides, (wayOf override).head? ≠ some baseName) :
    (∀ top, ofOverrides overrides = .ok top → (top :: layers ++ [defaults]).Pairwise Agree →
      ∃ settings, load files source overrides = .ok settings ∧
        Resolved files (top :: layers ++ [defaults]) settings) ∧
    ∀ singles, overrides.mapM layerOf? = some singles →
      (singles.reverse ++ layers ++ [defaults]).Pairwise Agree →
      ∃ settings, load files source overrides = .ok settings ∧
        Resolved files (singles.reverse ++ layers ++ [defaults]) settings := by
  constructor
  · intro top given fit
    obtain ⟨upper, unbased⟩ := layered_ofOverrides others given
    exact exists_resolved stacked given upper unbased fit
  · intro singles read fit
    have among := (List.pairwise_append.mp (List.append_assoc .. ▸ fit)).1
    obtain ⟨top, given, upper⟩ := exists_ofOverrides others read among
    exact exists_resolved stacked given upper (layered_ofOverrides others given).2 fit

/-- The layers of a file and of overrides, read one by one. -/
def stackOf? (files : Files) (path : String) (overrides : List String) :
    Option (List Value × List Value) := do
  let layer ← (openFile files path).toOption
  let layers ← layersOf? files (files.texts.length + 1) (Path.directory path) layer
  let singles ← overrides.mapM layerOf?
  return (singles, layers)

theorem stacked_of_stackOf? {path : String} {singles : List Value}
    (read : stackOf? files path overrides = some (singles, layers)) :
    Stacked files (some (.file path)) layers ∧ overrides.mapM layerOf? = some singles := by
  obtain ⟨layer, opened, read⟩ := Option.bind_eq_some_iff.mp read
  obtain ⟨_, linked, read⟩ := Option.bind_eq_some_iff.mp read
  obtain ⟨_, given, read⟩ := Option.bind_eq_some_iff.mp read
  cases read
  cases file : openFile files path with
  | error cause => rw [file] at opened; cases opened
  | ok found =>
    rw [file] at opened
    cases opened
    exact ⟨.file file (linked_of_layersOf? linked), given⟩

/-- An island in one directory that is based on a coast in another, which is based on its
neighbour. -/
def islandFiles : Files := .ofTexts
  [("a/base.json", "\x7b\"compiler\": \x7b\"water_level\": 8\x7d, \"extra\": \x7b\"x\": 1\x7d\x7d"),
    ("a/coast.json", "\x7b\"_base_\": \"base.json\", \"sampler\": \x7b\"resolution\": 4\x7d\x7d"),
    ("b/island.json", "\x7b\"_base_\": \"../a/coast.json\", \"sampler\": \x7b\"scale\": 2\x7d\x7d")]

theorem island_resolved : ∃ singles layers,
    Stacked islandFiles (some (.file "b/island.json")) layers ∧ layers.length = 3 ∧
    ["compiler.water_level=3", "extra.y=true"].mapM layerOf? = some singles ∧
    (singles.reverse ++ layers ++ [defaults]).Pairwise Agree ∧
    ∃ settings, load islandFiles (some (.file "b/island.json"))
        ["compiler.water_level=3", "extra.y=true"] = .ok settings ∧
      Resolved islandFiles (singles.reverse ++ layers ++ [defaults]) settings := by
  have test : (stackOf? islandFiles "b/island.json"
      ["compiler.water_level=3", "extra.y=true"]).any (fun (singles, layers) =>
        layers.length == 3 &&
          (singles.reverse ++ layers ++ [defaults]).Pairwise (agrees · · = true)) = true := by
    decide +kernel
  obtain ⟨⟨singles, layers⟩, read, test⟩ := (Option.any_eq_true _ _).mp test
  obtain ⟨stacked, given⟩ := stacked_of_stackOf? read
  obtain ⟨three, agreeing⟩ := (Bool.and_eq_true _ _).mp test
  have fit := (of_decide_eq_true agreeing).imp agree_of_agrees
  exact ⟨singles, layers, stacked, eq_of_beq three, given, fit,
    (load_resolved stacked (by decide +kernel)).2 singles given fit⟩

end Landform.Settings
