import Landform.Proofs.Document.Distinct
import Landform.Proofs.Files
import Landform.Proofs.Settings.Merge
import Landform.Settings.Load

/-!
# Chains of layers

A value merged from layers shows at every key path what the highest layer shows that has anything
there. Merging two such values puts their layers on top of each other, whatever way the merges are
nested in. A chain of files is merged from the root base upwards. The field that names the base is
merged in at each level and taken out again, so it is left out of consideration here.

The bound on the length of a chain is never reached by one that comes to an end: the file of a layer
decides how many layers follow, so no file is there twice.

1. `Layered`: values merged from layers.
2. `Layered.merge`: putting layers on top of each other.
3. `Linked`: layers of which each names the next.
4. `Linked.length_le`: the length of a chain.
5. `Stacked.exists_chain`: the settings of a chain.
6. `layersOf?`: the layers of a chain, read from the files.
-/

namespace Landform.Settings

open Value

/-! ## 1. Values merged from layers -/

/-- A value merged from layers, the highest first: outside the field that names the base it shows at
every key path what the first layer shows that has anything there. -/
structure Layered (layers : List Value) (settings : Value) : Prop where
  object : settings.isObject = true
  sight : ∀ {name path}, name ≠ baseName →
    settings.sight? (name :: path) = layers.findSome? (·.sight? (name :: path))
  distinct : settings.Distinct

variable {layers aboves belows : List Value} {layer settings above below merged : Value}

theorem Layered.single (object : layer.isObject = true) (distinct : layer.Distinct) :
    Layered [layer] layer where
  object := object
  sight _ := (List.findSome?_singleton ..).symm
  distinct := distinct

/-- What a merged value has at a key path comes from one of the layers. -/
theorem Layered.exists_layer (layered : Layered layers settings) {name : String}
    {path : List String} {u : Value} (other : name ≠ baseName)
    (found : settings.valueAt? (name :: path) = some u) :
    ∃ layer ∈ layers, ∃ v, layer.valueAt? (name :: path) = some v ∧ v.isObject = u.isObject := by
  have shown : settings.sight? (name :: path) = layers.findSome? (·.sight? (name :: path)) :=
    layered.sight other
  rw [sight?, found, Option.map_some] at shown
  obtain ⟨layer, listed, sight⟩ := List.exists_of_findSome?_eq_some shown.symm
  obtain ⟨v, there, same⟩ := Option.map_eq_some_iff.mp sight
  exact ⟨layer, listed, v, there, isObject_of_kindOf same⟩

/-! ## 2. Putting layers on top of each other -/

/-- Values merged from layers that agree also agree. -/
theorem Layered.agree (lower : Layered belows below) (upper : Layered aboves above)
    (unbased : below.field? baseName = none) (fit : ∀ a ∈ aboves, ∀ b ∈ belows, Agree a b) :
    Agree below above := by
  intro path u v left right
  cases path with
  | nil =>
    cases left
    cases right
    rw [lower.object, upper.object]
  | cons name path =>
    have other : name ≠ baseName := by
      rintro rfl
      rw [valueAt?, unbased] at left
      cases left
    obtain ⟨b, listed, u', left, same⟩ := lower.exists_layer other left
    obtain ⟨a, listed', v', right, same'⟩ := upper.exists_layer other right
    rw [← same, ← same']
    exact (fit a listed' b listed _ v' u' right left).symm

/-- Layers that agree can be put on top of each other. -/
theorem Layered.merge (lower : Layered belows below) (upper : Layered aboves above)
    (unbased : below.field? baseName = none) (fit : ∀ a ∈ aboves, ∀ b ∈ belows, Agree a b) :
    ∃ merged, mergeValue below above = .ok merged ∧ Layered (aboves ++ belows) merged ∧
      Overlaid below above merged := by
  obtain ⟨merged, done, overlaid⟩ :=
    exists_overlaid (lower.agree upper unbased fit) upper.distinct
  obtain ⟨fields, rfl⟩ := exists_object lower.object
  obtain ⟨fields', there, -⟩ := overlaid.extended [] fields rfl
  refine ⟨merged, done, ⟨isObject_of_valueAt? there, fun other => ?_, ?_⟩, overlaid⟩
  · rw [overlaid.sight, upper.sight other, lower.sight other, List.findSome?_append]
  · exact distinct_mergeValue lower.distinct upper.distinct done

/-- Where no layer names a base, neither does what is merged from them. -/
theorem Overlaid.unbased (overlaid : Overlaid below above merged)
    (lower : below.field? baseName = none) (upper : above.field? baseName = none) :
    merged.field? baseName = none := by
  have at_base (value : Value) :
      value.sight? [baseName] = none ↔ value.field? baseName = none := by
    rw [sight?, Option.map_eq_none_iff, valueAt?]
    cases value.field? baseName <;> simp [valueAt?]
  rw [← at_base, overlaid.sight, (at_base _).mpr lower, (at_base _).mpr upper, Option.or_none]

theorem field?_without (value : Value) (name : String) :
    (without name value).field? name = none := by
  cases value with
  | object fields => exact Table.get?_erase fields name
  | null | bool _ | int _ | float _ | text _ | list _ => rfl

theorem Layered.without (layered : Layered layers settings) :
    Layered layers (without baseName settings) := by
  obtain ⟨fields, rfl⟩ := exists_object layered.object
  refine ⟨rfl, fun other => ?_, ?_⟩
  · rw [← layered.sight other, Settings.without, sight?_cons, sight?_cons,
      Table.get?_erase_of_ne _ other]
  · refine distinct_object (layered.distinct.functional.erase _) fun entry listed => ?_
    exact layered.distinct.field
      (layered.distinct.functional.get?_iff.mpr (List.mem_of_mem_filter listed))

/-! ## 3. Layers that name each other -/

/-- The layers of a chain, the topmost first, with the directory that it is read in: each names the
path of the next, and that one is read in the directory of its own file. -/
inductive Linked (files : Files) : String → Value → List Value → Prop where
  | root {directory : String} {layer : Value} (object : layer.isObject = true)
      (unbased : layer.field? baseName = none) : Linked files directory layer [layer]
  | based {directory path : String} {layer below : Value} {belows : List Value}
      (named : layer.field? baseName = some (.text path))
      (opened : openFile files (Path.within directory path) = .ok below)
      (linked : Linked files (Path.directory (Path.within directory path)) below belows) :
      Linked files directory layer (layer :: belows)

variable {files : Files} {directory path : String}

theorem Linked.isObject (linked : Linked files directory layer layers) :
    layer.isObject = true := by
  cases linked with
  | root object _ => exact object
  | based named _ _ =>
    cases leaf : layer.isObject with
    | true => rfl
    | false => rw [field?_leaf leaf] at named; cases named

/-- The topmost layer decides which layers follow. -/
theorem Linked.unique {layers' : List Value} (linked : Linked files directory layer layers)
    (linked' : Linked files directory layer layers') : layers = layers' := by
  induction linked generalizing layers' with
  | root object unbased =>
    cases linked' with
    | root => rfl
    | based named => rw [unbased] at named; cases named
  | based named opened linked ih =>
    cases linked' with
    | root object unbased => rw [unbased] at named; cases named
    | based named' opened' linked' =>
      cases named.symm.trans named'
      cases opened.symm.trans opened'
      rw [ih linked']

/-! ## 4. The length of a chain -/

/-- The chain that starts with a file has so many layers. -/
def HasLayers (files : Files) (path : String) (count : Nat) : Prop :=
  ∃ layer layers, openFile files path = .ok layer ∧
    Linked files (Path.directory path) layer layers ∧ layers.length = count

theorem HasLayers.unique {count count' : Nat} (first : HasLayers files path count)
    (second : HasLayers files path count') : count = count' := by
  obtain ⟨layer, layers, opened, linked, rfl⟩ := first
  obtain ⟨layer', layers', opened', linked', rfl⟩ := second
  cases opened.symm.trans opened'
  rw [linked.unique linked']

theorem mem_names_of_openFile (opened : openFile files path = .ok layer) :
    Path.normal path ∈ files.texts.names := by
  obtain ⟨text, read, -⟩ := Except.bind_eq_ok.mp opened
  unfold Files.read at read
  cases stored : files.texts.get? (Path.normal path) with
  | none => rw [stored] at read; cases read
  | some text => exact Table.mem_names_of_get? stored

theorem distinct_openFile (opened : openFile files path = .ok layer) : layer.Distinct := by
  obtain ⟨text, -, read⟩ := Except.bind_eq_ok.mp opened
  exact Document.distinct_ofText read

/-- Below the topmost layer, every number of layers is that of the chain of some file. -/
theorem Linked.exists_path (linked : Linked files directory layer layers) {count : Nat}
    (filled : 0 < count) (below : count < layers.length) :
    ∃ path ∈ files.texts.names, HasLayers files path count := by
  induction linked with
  | root => exact absurd filled (by simpa using below)
  | based named opened linked ih =>
    rcases Nat.lt_succ_iff_lt_or_eq.mp below with below | rfl
    · exact ih below
    · refine ⟨_, ?_, _, _, opened, linked, rfl⟩
      rw [← Path.normal_within]
      exact mem_names_of_openFile opened

/-- A chain has at most as many layers as there are files, besides the topmost one. -/
theorem Linked.length_le (linked : Linked files directory layer layers) :
    layers.length ≤ files.texts.length + 1 := by
  have counts : (Finset.Ico 1 layers.length).card ≤ files.texts.names.toFinset.card := by
    refine Finset.card_le_card_of_forall_subsingleton (fun count path => HasLayers files path count)
      (fun count within => ?_) fun path _ count first count' second => ?_
    · obtain ⟨filled, below⟩ := Finset.mem_Ico.mp within
      obtain ⟨path, listed, has⟩ := linked.exists_path filled below
      exact ⟨path, List.mem_toFinset.mpr listed, has⟩
    · exact HasLayers.unique first.2 second.2
  have names : files.texts.names.toFinset.card ≤ files.texts.length := by
    simpa [Table.names] using List.toFinset_card_le files.texts.names
  rw [Nat.card_Ico] at counts
  omega

/-! ## 5. The settings of a chain -/

theorem Linked.exists_layered (linked : Linked files directory layer layers)
    (distinct : layer.Distinct) (fit : layers.Pairwise Agree) {length : Nat}
    (enough : layers.length ≤ length) :
    ∃ settings, withBases (openFile files) length directory layer = .ok settings ∧
      Layered layers settings ∧ settings.field? baseName = none := by
  induction linked generalizing length with
  | root object unbased =>
    obtain ⟨length, rfl⟩ := Nat.exists_eq_add_of_le' enough
    refine ⟨_, ?_, .single object distinct, unbased⟩
    rw [List.length_singleton, withBases, unbased]
  | @based directory path layer below belows named opened linked ih =>
    obtain ⟨apart, others⟩ := List.pairwise_cons.mp fit
    obtain ⟨length, rfl⟩ := Nat.exists_eq_add_of_le' (Nat.one_le_of_lt enough)
    obtain ⟨lower, done, layered, unbased⟩ :=
      ih (distinct_openFile opened) others (Nat.le_of_succ_le_succ enough)
    obtain ⟨merged, laid, composed, -⟩ := layered.merge
      (.single (Linked.isObject (.based named opened linked)) distinct) unbased
      (List.forall_mem_singleton.mpr apart)
    refine ⟨without baseName merged, ?_, composed.without, field?_without _ _⟩
    rw [withBases, named]
    exact Except.bind_eq_ok.mpr ⟨path, rfl, Except.bind_eq_ok.mpr ⟨below, opened,
      Except.bind_eq_ok.mpr ⟨lower, done, Except.bind_eq_ok.mpr ⟨merged, laid, rfl⟩⟩⟩⟩

/-- The layers of a source and its bases, the topmost first. Data is read as if it stood in a file
where everything starts. -/
inductive Stacked (files : Files) : Option Source → List Value → Prop where
  | nothing : Stacked files none []
  | file {path : String} {layer : Value} {layers : List Value}
      (opened : openFile files path = .ok layer)
      (linked : Linked files (Path.directory path) layer layers) :
      Stacked files (some (.file path)) layers
  | data {layer : Value} {layers : List Value} (distinct : layer.Distinct)
      (linked : Linked files "" layer layers) : Stacked files (some (.data layer)) layers

/-- The settings of a chain whose layers agree. -/
theorem Stacked.exists_chain {source : Source} (stacked : Stacked files (some source) layers)
    (fit : layers.Pairwise Agree) :
    ∃ settings, chain files source = .ok settings ∧ Layered layers settings ∧
      settings.field? baseName = none := by
  cases stacked with
  | @file path layer _ opened linked =>
    obtain ⟨settings, done, composed⟩ :=
      linked.exists_layered (distinct_openFile opened) fit linked.length_le
    exact ⟨settings, Except.bind_eq_ok.mpr ⟨layer, opened, done⟩, composed⟩
  | data distinct linked => exact linked.exists_layered distinct fit linked.length_le

/-! ## 6. Reading the layers -/

/-- The layers of a chain of at most so many. -/
def layersOf? (files : Files) : Nat → String → Value → Option (List Value)
  | 0, _, _ => none
  | length + 1, directory, layer =>
    match layer.field? baseName with
    | none => if layer.isObject then some [layer] else none
    | some (.text path) => match openFile files (Path.within directory path) with
      | .ok below =>
        (layersOf? files length (Path.directory (Path.within directory path)) below).map
          (layer :: ·)
      | .error _ => none
    | some _ => none

theorem linked_of_layersOf? {length : Nat}
    (read : layersOf? files length directory layer = some layers) :
    Linked files directory layer layers := by
  induction length generalizing directory layer layers with
  | zero => cases read
  | succ length ih =>
    rw [layersOf?] at read
    split at read
    case h_1 unbased =>
      obtain ⟨object, same⟩ := Option.ite_none_right_eq_some.mp read
      cases same
      exact .root object unbased
    case h_2 path named =>
      split at read
      case h_1 below opened =>
        obtain ⟨belows, later, rfl⟩ := Option.map_eq_some_iff.mp read
        exact .based named opened (ih later)
      case h_2 => cases read
    case h_3 => cases read

end Landform.Settings
