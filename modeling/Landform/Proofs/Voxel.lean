import Landform.Proofs.Evaluation.Walk
import Landform.Proofs.Params
import Landform.Proofs.Script.Contents
import Landform.Voxel
import Mathlib

/-!
# The voxel grid as a picture

Sampling visits the places of a cube in one pass, and all it carries along is a palette, a table of
the indices given out and a table of names. The table of indices is the inverse of the palette after
each visit, and the palette grows at its end only, so that an index once stored keeps its meaning.

1. `map_slot_places`, `pairwise_places`: the places and their numbers.
2. `Canvas.Holds`: what some visits leave; `Canvas.holds_visit` is one more visit and
   `Canvas.holds_foldl` any number of them.
3. `Grid.Depicts`, `sample_depicts`: the grid shows at each place what evaluation at its point
   gives, as long as the indices of the colours fit 16 bits.
-/

namespace Landform.Voxel

/-! ## 1. The order of the places -/

theorem mem_places {side i j k : Nat} :
    (i, j, k) ∈ places side ↔ i < side ∧ j < side ∧ k < side := by
  simp [places]

theorem range_mul (a b : Nat) :
    List.range (a * b) = (List.range a).flatMap fun i => (List.range b).map (i * b + ·) := by
  induction a with
  | zero => simp
  | succ a ih =>
    rw [Nat.succ_mul, List.range_add, ih, List.range_succ, List.flatMap_append]
    simp

/-- The places are numbered without a gap, in their order. -/
theorem map_slot_places (side : Nat) :
    (places side).map (slot side) = List.range (side * side * side) := by
  rw [range_mul, range_mul, List.flatMap_assoc, places, List.map_flatMap]
  simp only [List.map_flatMap, List.map_map, List.flatMap_map]
  rfl

/-- One place comes before another when it is less in the first coordinate that differs. -/
def Precedes : Place → Place → Prop :=
  Prod.Lex (· < ·) (Prod.Lex (· < ·) (· < ·))

theorem pairwise_places (side : Nat) : (places side).Pairwise Precedes := by
  have range : (List.range side).Pairwise (· < ·) := List.pairwise_lt_range
  refine List.pairwise_flatMap.mpr ⟨fun i _ => List.pairwise_flatMap.mpr ⟨fun j _ => ?_, ?_⟩, ?_⟩
  · exact List.pairwise_map.mpr (range.imp fun less => .right _ (.right _ less))
  · refine range.imp fun less p first q second => ?_
    obtain ⟨k, _, rfl⟩ := List.mem_map.mp first
    obtain ⟨l, _, rfl⟩ := List.mem_map.mp second
    exact .right _ (.left _ _ less)
  · refine range.imp fun less p first q second => ?_
    obtain ⟨_, _, first⟩ := List.mem_flatMap.mp first
    obtain ⟨_, _, second⟩ := List.mem_flatMap.mp second
    obtain ⟨_, _, rfl⟩ := List.mem_map.mp first
    obtain ⟨_, _, rfl⟩ := List.mem_map.mp second
    exact .left _ _ less

theorem slot_lt {side : Nat} {p : Place} (member : p ∈ places side) :
    slot side p < side * side * side :=
  List.mem_range.mp (map_slot_places side ▸ List.mem_map_of_mem member)

theorem slot_inj {side : Nat} {p q : Place} (first : p ∈ places side) (second : q ∈ places side)
    (same : slot side p = slot side q) : p = q :=
  List.inj_on_of_nodup_map (map_slot_places side ▸ List.nodup_range) first second same

/-! ## 2. What the visits leave -/

/-- The terrains that some places show, in order. -/
def met (shown : Place → Option Terrain) (visited : List Place) : List Terrain :=
  visited.filterMap shown

/-- The colours that some places show, each once, in the order of their first places. -/
def colorsOf (shown : Place → Option Terrain) (visited : List Place) : List String :=
  ((met shown visited).map (·.color)).eraseDups

/-- The index that is stored for what a place shows. -/
def stored (palette : List String) : Option Terrain → Int16
  | some t => .ofNat (palette.idxOf t.color)
  | none => vacant

/-- What a canvas holds once some places are visited. -/
structure Canvas.Holds (canvas : Canvas) (side : Nat) (shown : Place → Option Terrain)
    (visited : List Place) : Prop where
  size : canvas.colors.size = side * side * side
  colors : ∀ p ∈ places side, canvas.colors[slot side p]? =
    some (if p ∈ visited then stored canvas.palette (shown p) else vacant)
  palette : canvas.palette = colorsOf shown visited
  distinct : canvas.palette.Nodup
  index : ∀ color, canvas.index.get? color =
    if color ∈ canvas.palette then some (canvas.palette.idxOf color) else none
  names : canvas.names.names = canvas.palette
  named : ∀ color, canvas.names.get? color =
    ((met shown visited).find? (·.color == color)).map (·.name)

namespace Canvas

theorem blank_holds (side : Nat) (shown : Place → Option Terrain) :
    (blank side).Holds side shown [] where
  size := Array.size_replicate
  colors p member := by simp [blank, slot_lt member]
  palette := rfl
  distinct := List.nodup_nil
  index _ := rfl
  names := rfl
  named _ := rfl

section Step

variable {canvas : Canvas} {side : Nat} {shown : Place → Option Terrain} {visited : List Place}
  {p : Place}

theorem mem_palette (holds : canvas.Holds side shown visited) {color : String} :
    color ∈ canvas.palette ↔ ∃ t ∈ met shown visited, t.color = color := by
  rw [holds.palette, colorsOf, List.mem_eraseDups, List.mem_map]

/-- An index that is stored stays the same when the palette grows. -/
theorem stored_append (holds : canvas.Holds side shown visited) {q : Place} (earlier : q ∈ visited)
    (color : String) :
    stored (canvas.palette ++ [color]) (shown q) = stored canvas.palette (shown q) := by
  cases shows : shown q with
  | none => rfl
  | some t =>
    have known : t.color ∈ canvas.palette :=
      (mem_palette holds).mpr ⟨t, List.mem_filterMap.mpr ⟨q, earlier, shows⟩, rfl⟩
    rw [stored, stored, List.idxOf_append_of_mem known]

/-- Writing one index leaves the indices of all other places alone. -/
theorem colors_set (holds : canvas.Holds side shown visited) (member : p ∈ places side)
    {palette : List String}
    (kept : ∀ q ∈ visited, stored palette (shown q) = stored canvas.palette (shown q)) :
    ∀ q ∈ places side,
      (canvas.colors.setIfInBounds (slot side p) (stored palette (shown p)))[slot side q]? =
        some (if q ∈ visited ++ [p] then stored palette (shown q) else vacant) := by
  intro q other
  rw [Array.getElem?_setIfInBounds, holds.size]
  by_cases same : q = p
  · simp [same, slot_lt member]
  · have apart : slot side p ≠ slot side q := fun equal => same (slot_inj member other equal).symm
    have listed : q ∈ visited ++ [p] ↔ q ∈ visited := by simp [same]
    rw [if_neg apart, holds.colors q other]
    by_cases earlier : q ∈ visited
    · simp [earlier, kept q earlier]
    · simp [earlier, same]

theorem met_concat_none (shows : shown p = none) :
    met shown (visited ++ [p]) = met shown visited := by
  simp [met, shows]

theorem met_concat_some {t : Terrain} (shows : shown p = some t) :
    met shown (visited ++ [p]) = met shown visited ++ [t] := by
  simp [met, shows]

/-- A place without terrain stays vacant. -/
theorem holds_skip (holds : canvas.Holds side shown visited) (shows : shown p = none) :
    canvas.Holds side shown (visited ++ [p]) where
  size := holds.size
  colors q other := by
    rw [holds.colors q other]
    by_cases same : q = p
    · simp [same, shows, stored]
    · simp [same]
  palette := by rw [colorsOf, met_concat_none shows]; exact holds.palette
  distinct := holds.distinct
  index := holds.index
  names := holds.names
  named color := by rw [met_concat_none shows]; exact holds.named color

/-- A colour that is known keeps its index and its name. -/
theorem holds_repeat (holds : canvas.Holds side shown visited) (member : p ∈ places side)
    {t : Terrain} (shows : shown p = some t) (known : t.color ∈ canvas.palette) :
    (canvas.paint (slot side p) t).Holds side shown (visited ++ [p]) := by
  have written : canvas.paint (slot side p) t =
      { canvas with
        colors :=
          canvas.colors.setIfInBounds (slot side p) (stored canvas.palette (shown p)) } := by
    simp only [paint, holds.index, if_pos known, shows, stored]
  obtain ⟨first, found, same⟩ := (mem_palette holds).mp known
  rw [written]
  exact
    { size := by simp [holds.size]
      colors := colors_set holds member fun _ _ => rfl
      palette := by
        have old : t.color ∈ (met shown visited).map (·.color) :=
          List.mem_map.mpr ⟨first, found, same⟩
        rw [colorsOf, met_concat_some shows, List.map_append, List.map_singleton,
          eraseDups_concat, if_pos old]
        exact holds.palette
      distinct := holds.distinct
      index := holds.index
      names := holds.names
      named := fun color => by
        rw [met_concat_some shows, List.find?_append, holds.named color]
        by_cases asked : t.color = color
        · have earlier : ((met shown visited).find? (·.color == color)).isSome :=
            List.find?_isSome.mpr ⟨first, found, by simpa using same.trans asked⟩
          rw [Option.or_of_isSome earlier]
        · simp [asked] }

/-- A colour that is new goes to the end of the palette. -/
theorem holds_fresh (holds : canvas.Holds side shown visited) (member : p ∈ places side)
    {t : Terrain} (shows : shown p = some t) (fresh : t.color ∉ canvas.palette) :
    (canvas.paint (slot side p) t).Holds side shown (visited ++ [p]) := by
  have last : (canvas.palette ++ [t.color]).idxOf t.color = canvas.palette.length := by
    simp [List.idxOf_append_of_notMem fresh]
  have written : canvas.paint (slot side p) t =
      { colors := canvas.colors.setIfInBounds (slot side p)
          (stored (canvas.palette ++ [t.color]) (shown p))
        palette := canvas.palette ++ [t.color]
        index := canvas.index.put t.color canvas.palette.length
        names := canvas.names.put t.color t.name } := by
    simp only [paint, holds.index, if_neg fresh, shows, stored, last]
  have absent : ∀ other ∈ met shown visited, other.color ≠ t.color :=
    fun other found same => fresh ((mem_palette holds).mpr ⟨other, found, same⟩)
  rw [written]
  exact
    { size := by simp [holds.size]
      colors := colors_set holds member fun q earlier => stored_append holds earlier t.color
      palette := by
        have new : t.color ∉ (met shown visited).map (·.color) := by simpa using absent
        rw [colorsOf, met_concat_some shows, List.map_append, List.map_singleton,
          eraseDups_concat, if_neg new, holds.palette, colorsOf]
      distinct := List.Nodup.append holds.distinct (List.nodup_singleton _)
        (List.disjoint_singleton.mpr fresh)
      index := fun color => by
        by_cases asked : color = t.color
        · rw [asked, Table.get?_put, if_pos (by simp), last]
        · rw [Table.get?_put_of_ne _ _ asked, holds.index]
          by_cases known : color ∈ canvas.palette
          · simp [known, List.idxOf_append_of_mem known]
          · simp [known, asked]
      names := by
        have new : t.color ∉ canvas.names.names := holds.names ▸ fresh
        show (canvas.names.put t.color t.name).names = canvas.palette ++ [t.color]
        rw [Table.put_of_notMem new, Table.names, List.map_append]
        exact congrArg (· ++ [t.color]) holds.names
      named := fun color => by
        rw [met_concat_some shows, List.find?_append]
        by_cases asked : color = t.color
        · have none : (met shown visited).find? (·.color == color) = none :=
            List.find?_eq_none.mpr fun other found => by simpa [asked] using absent other found
          simp [asked ▸ none, asked, Table.get?_put]
        · rw [Table.get?_put_of_ne _ _ asked, holds.named color]
          simp [Ne.symm asked] }

/-- Visiting one more place. -/
theorem holds_visit (holds : canvas.Holds side shown visited) (member : p ∈ places side) :
    (canvas.visit (slot side p) (shown p)).Holds side shown (visited ++ [p]) := by
  cases shows : shown p with
  | none => exact holds_skip holds shows
  | some t =>
    by_cases known : t.color ∈ canvas.palette
    · exact holds_repeat holds member shows known
    · exact holds_fresh holds member shows known

end Step

/-- Visiting any number of places, one after the other. -/
theorem holds_foldl {side : Nat} {shown : Place → Option Terrain} {rest : List Place}
    {canvas : Canvas} {visited : List Place} (holds : canvas.Holds side shown visited)
    (members : ∀ p ∈ rest, p ∈ places side) :
    (rest.foldl (fun canvas p => canvas.visit (slot side p) (shown p)) canvas).Holds side shown
      (visited ++ rest) := by
  induction rest generalizing canvas visited with
  | nil => simpa using holds
  | cons p rest ih =>
    have next := ih (holds_visit holds (members p List.mem_cons_self))
      fun q later => members q (List.mem_cons_of_mem p later)
    simpa using next

theorem visitAll_holds (side : Nat) (shown : Place → Option Terrain) :
    (visitAll side shown).Holds side shown (places side) :=
  holds_foldl (blank_holds side shown) fun _ member => member

end Canvas

/-! ## 3. The grid -/

/-- The number of steps along each edge: the resolution, capped when the cube is large. -/
def stepsOf (o : Options) : Nat :=
  (if 1000 < o.scale then min o.resolution 48 else o.resolution).toNat

/-- The coordinate that an index stands for: the index times the step, where the step is the scale
over the number of steps, and the scale itself at the end. Where the step vanishes, it is the scale
times the index over the number of steps. Adding zero takes the sign from a zero. -/
def tick (scale : Float) (steps i : Nat) : Float :=
  if i = steps then scale
  else if scale / .ofNat steps == 0.0 then .ofNat i / .ofNat steps * scale + 0.0
  else .ofNat i * (scale / .ofNat steps) + 0.0

/-- What a place shows: the terrain at its point, unless only solid terrain counts and this one is
not solid. -/
def shownAt (g : Graph) (limit : DepthLimit) (o : Options) (p : Place) : Option Terrain :=
  let along := tick o.scale (stepsOf o)
  match g.terrainAt limit ⟨along p.1, along p.2.1, along p.2.2⟩ with
  | none => none
  | some t => if o.solidOnly = true ∧ t.material ≠ .solid then none else some t

/-- A grid is the point-by-point picture of what the places show, visited in order. -/
structure Grid.Depicts (grid : Grid) (edge : Float) (steps : Nat)
    (shown : Place → Option Terrain) : Prop where
  visited : ∀ i j k : Nat, (i, j, k) ∈ places (steps + 1) ↔ i ≤ steps ∧ j ≤ steps ∧ k ≤ steps
  ordered : (places (steps + 1)).Pairwise Precedes
  scale : grid.scale = edge
  resolution : grid.resolution = steps
  shape : grid.colors.size = (steps + 1) ^ 3
  color : ∀ i j k : Nat, i ≤ steps → j ≤ steps → k ≤ steps →
    grid.colorAt i j k = .ok ((shown (i, j, k)).map (·.color))
  distinct : grid.palette.Nodup
  palette : grid.palette = colorsOf shown (places (steps + 1))
  used : ∀ position < grid.palette.length, ∃ p ∈ places (steps + 1),
    grid.decode? (grid.indexAt p) = some position
  names : grid.names.names = grid.palette
  named : ∀ color, grid.names.get? color =
    ((met shown (places (steps + 1))).find? (·.color == color)).map (·.name)
  occupied : grid.filledPlaces = (places (steps + 1)).filter fun p => (shown p).isSome
  filled : grid.filled = (places (steps + 1)).countP fun p => (shown p).isSome
  positions : grid.positions = ((places (steps + 1)).filter fun p => (shown p).isSome).map fun p =>
    ⟨.ofNat p.1 * (edge / .ofNat steps), .ofNat p.2.1 * (edge / .ofNat steps),
      .ofNat p.2.2 * (edge / .ofNat steps)⟩

namespace Grid

theorem toInt_index {n : Nat} (small : n < 2 ^ 15) : (Int16.ofNat n).toInt = n :=
  Int16.toInt_ofNat_of_lt small

/-- Indices of 15 bits are not mistaken for vacancy. -/
theorem index_ne_vacant {n : Nat} (small : n < 2 ^ 15) : Int16.ofNat n ≠ vacant := by
  intro same
  have value := toInt_index small
  rw [same] at value
  have : vacant.toInt = -1 := rfl
  omega

theorem decode?_ofNat (grid : Grid) {n : Nat} (small : n < 2 ^ 15) :
    grid.decode? (.ofNat n) = some n := by
  have nonneg : ¬ Int16.ofNat n < 0 := by
    rw [Int16.lt_iff_toInt_lt, toInt_index small]
    simp
  rw [decode?, if_neg (index_ne_vacant small), if_neg nonneg, toInt_index small]
  rfl

theorem resolve?_natCast (grid : Grid) {i : Nat} (inside : i < grid.side) :
    grid.resolve? i = some i := by
  have natural : ¬ (i : Int) < 0 := by omega
  simp [resolve?, natural, inside]

end Grid

/-- The grid of a canvas. -/
def Canvas.grid (canvas : Canvas) (scale : Float) (steps : Nat) : Grid :=
  ⟨scale, steps, canvas.colors, canvas.palette, canvas.names⟩

section Picture

variable {shown : Place → Option Terrain} {steps : Nat} {canvas : Canvas} {p : Place}
  (holds : canvas.Holds (steps + 1) shown (places (steps + 1)))
  (few : canvas.palette.length < 2 ^ 15)

include holds

theorem indexAt_eq (scale : Float) (member : p ∈ places (steps + 1)) :
    (canvas.grid scale steps).indexAt p = stored canvas.palette (shown p) := by
  have found := holds.colors p member
  rw [if_pos member] at found
  simp only [Grid.indexAt, Canvas.grid, Grid.side, Array.getD_eq_getD_getElem?, found,
    Option.getD_some]

theorem color_mem_palette {t : Terrain} (member : p ∈ places (steps + 1))
    (shows : shown p = some t) : t.color ∈ canvas.palette :=
  (Canvas.mem_palette holds).mpr ⟨t, List.mem_filterMap.mpr ⟨p, member, shows⟩, rfl⟩

/-- The indices of the places, in the order of the places. -/
theorem toList_colors (scale : Float) :
    canvas.colors.toList = (places (steps + 1)).map (canvas.grid scale steps).indexAt := by
  have numbers : (places (steps + 1)).map (canvas.grid scale steps).indexAt =
      ((places (steps + 1)).map (slot (steps + 1))).map (canvas.colors.getD · vacant) := by
    rw [List.map_map]
    rfl
  rw [numbers, map_slot_places, ← holds.size]
  refine List.ext_getElem (by simp) fun n inside _ => ?_
  simp at inside
  simp [inside]

include few

theorem position_lt {t : Terrain} (member : p ∈ places (steps + 1)) (shows : shown p = some t) :
    canvas.palette.idxOf t.color < 2 ^ 15 :=
  (List.idxOf_lt_length_of_mem (color_mem_palette holds member shows)).trans few

theorem indexAt_eq_vacant (scale : Float) (member : p ∈ places (steps + 1)) :
    (canvas.grid scale steps).indexAt p = vacant ↔ shown p = none := by
  rw [indexAt_eq holds scale member]
  cases shows : shown p with
  | none => simp [stored]
  | some t => simp [stored, Grid.index_ne_vacant (position_lt holds few member shows)]

theorem decode?_indexAt (scale : Float) (member : p ∈ places (steps + 1)) :
    (canvas.grid scale steps).decode? ((canvas.grid scale steps).indexAt p) =
      (shown p).map fun t => canvas.palette.idxOf t.color := by
  rw [indexAt_eq holds scale member]
  cases shows : shown p with
  | none => simp [stored, Grid.decode?]
  | some t => exact Grid.decode?_ofNat _ (position_lt holds few member shows)

/-- The places that hold a colour are those that show something. -/
theorem filledPlaces_eq (scale : Float) : (canvas.grid scale steps).filledPlaces =
    (places (steps + 1)).filter fun p => (shown p).isSome := by
  refine List.filter_congr fun p member => ?_
  rw [Bool.eq_iff_iff, bne_iff_ne, Ne, indexAt_eq_vacant holds few scale member,
    Option.isSome_iff_ne_none]

theorem filled_eq (scale : Float) : (canvas.grid scale steps).filled =
    (places (steps + 1)).countP fun p => (shown p).isSome := by
  calc (canvas.grid scale steps).filled
      = canvas.colors.toList.countP (· != vacant) := Array.countP_toList.symm
    _ = ((places (steps + 1)).map (canvas.grid scale steps).indexAt).countP (· != vacant) := by
        rw [toList_colors holds scale]
    _ = (canvas.grid scale steps).filledPlaces.length := by
        rw [List.countP_map, List.countP_eq_length_filter]
        rfl
    _ = (places (steps + 1)).countP fun p => (shown p).isSome := by
        rw [filledPlaces_eq holds few, List.countP_eq_length_filter]

theorem colorAt_eq (scale : Float) {i j k : Nat} (first : i ≤ steps) (second : j ≤ steps)
    (third : k ≤ steps) :
    (canvas.grid scale steps).colorAt i j k = .ok ((shown (i, j, k)).map (·.color)) := by
  have member : (i, j, k) ∈ places (steps + 1) := mem_places.mpr (by omega)
  have inside (n : Nat) (le : n ≤ steps) : (canvas.grid scale steps).resolve? n = some n :=
    Grid.resolve?_natCast _ (Nat.lt_succ_of_le le)
  simp only [Grid.colorAt, inside i first, inside j second, inside k third,
    decode?_indexAt holds few scale member]
  cases shows : shown (i, j, k) with
  | none => rfl
  | some t =>
    have known := color_mem_palette holds member shows
    simp [Canvas.grid, List.getElem?_idxOf known]

/-- Every position of the palette is the index of some place. -/
theorem exists_place (scale : Float) {position : Nat} (inside : position < canvas.palette.length) :
    ∃ p ∈ places (steps + 1),
      (canvas.grid scale steps).decode? ((canvas.grid scale steps).indexAt p) = some position := by
  obtain ⟨t, found, same⟩ := (Canvas.mem_palette holds).mp (List.getElem_mem inside)
  obtain ⟨p, member, shows⟩ := List.mem_filterMap.mp found
  refine ⟨p, member, ?_⟩
  rw [decode?_indexAt holds few scale member, shows, Option.map_some, same,
    holds.distinct.idxOf_getElem]

theorem grid_depicts (scale : Float) :
    (canvas.grid scale steps).Depicts scale steps shown where
  visited i j k := by rw [mem_places, Nat.lt_succ_iff, Nat.lt_succ_iff, Nat.lt_succ_iff]
  ordered := pairwise_places (steps + 1)
  scale := rfl
  resolution := rfl
  shape := by rw [Canvas.grid, holds.size]; ring
  color _ _ _ first second third := colorAt_eq holds few scale first second third
  distinct := holds.distinct
  palette := holds.palette
  used _ inside := exists_place holds few scale inside
  names := holds.names
  named := holds.named
  occupied := filledPlaces_eq holds few scale
  filled := filled_eq holds few scale
  positions := by
    rw [← filledPlaces_eq holds few scale]
    rfl

end Picture

/-- The coordinates that are sampled are those of the lattice. -/
theorem coordinate_eq_tick (scale : Float) (steps i : Nat) :
    coordinate scale steps i = tick scale steps i := by
  unfold coordinate tick
  dsimp only
  split_ifs <;> rfl

theorem steps_eq {o : Options} (enough : 1 ≤ o.resolution) : o.steps = .ok (stepsOf o) := by
  rw [Options.steps, if_neg (by omega), stepsOf]
  by_cases large : largeScale < o.scale
  · rw [if_pos large, if_pos (show 1000 < o.scale from large)]
    rfl
  · rw [if_neg large, if_neg (show ¬ 1000 < o.scale from large)]

/-- The sampler lets exactly that terrain count which a place shows. -/
theorem visible_eq_shownAt (g : Graph) (limit : DepthLimit) (o : Options) (p : Place) :
    visible o.solidOnly (g.terrainAt limit (pointAt o.scale (stepsOf o) p)) =
      shownAt g limit o p := by
  unfold pointAt shownAt
  simp only [coordinate_eq_tick]
  generalize g.terrainAt limit _ = found
  cases found with
  | none => rfl
  | some t => cases solid : o.solidOnly <;> simp [visible, Terrain.isSolid, Option.filter]

/-- Sampling gives the point-by-point picture of the terrain. -/
theorem sample_depicts (g : Graph) (limit : DepthLimit) (o : Options) (enough : 1 ≤ o.resolution)
    (few : (colorsOf (shownAt g limit o) (places (stepsOf o + 1))).length < 32768) :
    ∃ grid, sample g limit o = .ok grid ∧
      grid.Depicts o.scale (stepsOf o) (shownAt g limit o) := by
  have holds := Canvas.visitAll_holds (stepsOf o + 1) (shownAt g limit o)
  have shown : (fun p => visible o.solidOnly
      (g.terrainAt limit (pointAt o.scale (stepsOf o) p))) = shownAt g limit o :=
    funext (visible_eq_shownAt g limit o)
  refine ⟨_, ?_, grid_depicts holds (holds.palette ▸ few) o.scale⟩
  rw [← shown, sample, sampleOf, steps_eq enough]
  rfl

/-- The beach with water where the height is less than the last coordinate. -/
def lagoon : Graph :=
  [Mutation.add "terrain-type" (.int 9) (.int 36),
    .update 7 [("name", .text "Water"), ("material", .text "liquid"), ("color", .text "#3355ff")],
    .connect "1_outZ" "3_in2", .connect "7_out" "3_useTrue"].foldl Mutation.apply Graph.beach

/-- Eight places of the lagoon. The water counts for nothing; sand and stone have one colour, and
the sand comes first. -/
theorem lagoon_depicted :
    1 ≤ (⟨3, 1, true⟩ : Options).resolution ∧
    lagoon.terrainAt (some 7) ⟨0, 0, 3⟩ = some ⟨"Water", .liquid, "#3355ff"⟩ ∧
    ∃ grid, sample lagoon (some 7) ⟨3, 1, true⟩ = .ok grid ∧
      grid.Depicts 3 1 (shownAt lagoon (some 7) ⟨3, 1, true⟩) ∧
      grid.palette = ["#888888"] ∧ grid.names.get? "#888888" = some "Sand" ∧
      grid.colorAt 1 0 1 = .ok (some "#888888") ∧ grid.colorAt 0 0 1 = .ok none ∧
      grid.filled = 7 := by
  have steps : stepsOf ⟨3, 1, true⟩ = 1 := by decide +kernel
  have few : (colorsOf (shownAt lagoon (some 7) ⟨3, 1, true⟩)
      (places (stepsOf ⟨3, 1, true⟩ + 1))).length < 32768 := by decide +kernel
  obtain ⟨grid, sampled, depicts⟩ := sample_depicts lagoon (some 7) ⟨3, 1, true⟩ (by decide) few
  rw [steps] at depicts
  refine ⟨by decide, by decide +kernel, grid, sampled, depicts, ?_, ?_, ?_, ?_, ?_⟩
  · rw [depicts.palette]; decide +kernel
  · rw [depicts.named]; decide +kernel
  · exact (depicts.color 1 0 1 (by decide) (by decide) (by decide)).trans
      (congrArg Except.ok (by decide +kernel))
  · exact (depicts.color 0 0 1 (by decide) (by decide) (by decide)).trans
      (congrArg Except.ok (by decide +kernel))
  · rw [depicts.filled]; decide +kernel

end Landform.Voxel
