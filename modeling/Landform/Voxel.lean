import Landform.Evaluation.Evaluate

/-!
# Voxel grids

A voxel grid samples the terrain of a graph at the points of a regular lattice over a cube. Each
place holds the index of its colour in a palette, or nothing. The places are visited one after the
other: a colour that is new goes to the end of the palette, under the name of the terrain that
brings it, and a table remembers its index for the places to come.
-/

namespace Landform.Voxel

open Decimal

/-- What to sample: the length of the edges of the cube, the number of steps along each edge, and
whether only solid terrain counts. -/
structure Options where
  scale : Float
  resolution : Int
  solidOnly : Bool

/-- The length beyond which the resolution is capped. -/
def largeScale : Float := 1000

/-- The greatest resolution of a large cube. -/
def largeResolution : Int := 48

/-- The number of steps along each edge. -/
def Options.steps (o : Options) : Except Error Nat :=
  if o.resolution < 1 then .error (.resolutionTooSmall (integerText o.resolution))
  else if largeScale < o.scale then .ok (min o.resolution largeResolution).toNat
  else .ok o.resolution.toNat

/-- The type of a value in messages about values that have no order. -/
def orderType : Value → String
  | .list _ => "ListConfig"
  | .object _ => "DictConfig"
  | value => value.typeName

/-- Whether a scale is beyond the length at which the resolution is capped. -/
def isLarge : Value → Except Error Bool
  | .int n => .ok (1000 < n)
  | .bool _ => .ok false
  | .float x => .ok (largeScale < x)
  | value => .error (.notComparable ">" (orderType value) "float")

/-- A resolution as an integer. A double counts nothing, unless it is capped anyway. -/
def resolutionOf (large : Except Error Bool) : Value → Except Error Int
  | .int n => .ok n
  | .bool b => .ok (Value.ofBool b)
  | .float x => do
    if x < 1 then throw (.resolutionTooSmall (written x))
    if (← large) && 48 < x then return largeResolution
    throw (.notACount "float")
  | value => .error (.notComparable "<" (orderType value) "int")

/-- Options from loosely typed settings. -/
def Options.ofValues (scale resolution solidOnly : Value) : Except Error Options := do
  let large := isLarge scale
  let resolution ← resolutionOf large resolution
  if resolution < 1 then throw (.resolutionTooSmall (integerText resolution))
  let _ ← large
  return ⟨← scale.toFloat, resolution, solidOnly.isTrue⟩

/-! ## The lattice -/

/-- A coordinate along an edge: evenly spaced, the last one exactly the scale. A step that vanishes
is replaced by a fraction of the scale. -/
def coordinate (scale : Float) (steps i : Nat) : Float :=
  if i = steps then scale
  else
    let count := Float.ofNat steps
    let step := scale / count
    let i := Float.ofNat i
    (if step == 0.0 then i / count * scale else i * step) + 0.0

/-- A place of the lattice: the number of steps along each edge. -/
abbrev Place := Nat × Nat × Nat

/-- The places of a cube, the last coordinate running fastest. -/
def places (side : Nat) : List Place :=
  (List.range side).flatMap fun i => (List.range side).flatMap fun j =>
    (List.range side).map fun k => (i, j, k)

/-- The number of a place in the order of the places. -/
def slot (side : Nat) (p : Place) : Nat :=
  (p.1 * side + p.2.1) * side + p.2.2

/-- The point of a place. -/
def pointAt (scale : Float) (steps : Nat) (p : Place) : Point :=
  ⟨coordinate scale steps p.1, coordinate scale steps p.2.1, coordinate scale steps p.2.2⟩

/-! ## Sampling -/

/-- The index of a place that holds no colour. -/
def vacant : Int16 := -1

/-- What the visited places have left: the index of each place, the colours, the index of each
colour and the name it came with. -/
structure Canvas where
  colors : Array Int16
  palette : List String
  index : Table Nat
  names : Table String

namespace Canvas

/-- A cube before the first visit. -/
def blank (side : Nat) : Canvas :=
  ⟨Array.replicate (side * side * side) vacant, [], [], []⟩

/-- Gives a place the colour of a terrain. Indices are stored in 16 bits. -/
def paint (canvas : Canvas) (slot : Nat) (t : Terrain) : Canvas :=
  match canvas.index.get? t.color with
  | some index => { canvas with colors := canvas.colors.setIfInBounds slot (.ofNat index) }
  | none =>
    let index := canvas.palette.length
    { colors := canvas.colors.setIfInBounds slot (.ofNat index)
      palette := canvas.palette ++ [t.color]
      index := canvas.index.put t.color index
      names := canvas.names.put t.color t.name }

/-- Visits a place. One without terrain stays vacant. -/
def visit (canvas : Canvas) (slot : Nat) : Option Terrain → Canvas
  | some t => canvas.paint slot t
  | none => canvas

/-- Visits the places of a cube in turn. -/
def visitAll (side : Nat) (shown : Place → Option Terrain) : Canvas :=
  (places side).foldl (fun canvas p => canvas.visit (slot side p) (shown p)) (blank side)

end Canvas

/-- A sampled cube. The indices of the places follow the order of the places. -/
structure Grid where
  scale : Float
  resolution : Nat
  colors : Array Int16
  palette : List String
  names : Table String

/-- The terrain that counts at a place. -/
def visible (solidOnly : Bool) (t : Option Terrain) : Option Terrain :=
  t.filter fun t => !solidOnly || t.isSolid

/-- Samples terrain that is given by point. -/
def sampleOf (terrainAt : Point → Option Terrain) (o : Options) : Except Error Grid := do
  let steps ← o.steps
  let canvas := Canvas.visitAll (steps + 1) fun p =>
    visible o.solidOnly (terrainAt (pointAt o.scale steps p))
  return ⟨o.scale, steps, canvas.colors, canvas.palette, canvas.names⟩

/-- Samples the terrain of a graph. -/
def sample (g : Graph) (limit : DepthLimit) (o : Options) : Except Error Grid :=
  let probe := g.probe
  sampleOf (probe.terrain limit) o

namespace Grid

/-- The number of places along each edge. -/
def side (grid : Grid) : Nat :=
  grid.resolution + 1

/-- The distance of neighbouring places. -/
def step (grid : Grid) : Float :=
  grid.scale / Float.ofNat grid.resolution

/-- The position in the palette that an index stands for; a negative one counts from the end. -/
def decode? (grid : Grid) (index : Int16) : Option Nat :=
  if index = vacant then none
  else if index < 0 then some (grid.palette.length + index.toInt).toNat
  else some index.toInt.toNat

/-- The positions in the palette of the places, in order. -/
def cells (grid : Grid) : Array (Option Nat) :=
  grid.colors.map grid.decode?

/-- The number of places that hold a colour. -/
def filled (grid : Grid) : Nat :=
  grid.colors.countP (· != vacant)

/-- The number of places that hold an index. -/
def countOf (grid : Grid) (index : Nat) : Nat :=
  grid.colors.countP fun stored => stored.toInt == (index : Int)

/-- A coordinate of a place; a negative one counts from the end. -/
def resolve? (grid : Grid) (i : Int) : Option Nat :=
  let i := if i < 0 then i + grid.side else i
  if 0 ≤ i && i < grid.side then some i.toNat else none

/-- The index of a place. -/
def indexAt (grid : Grid) (p : Place) : Int16 :=
  grid.colors.getD (slot grid.side p) vacant

/-- The colour at a place. -/
def colorAt (grid : Grid) (i j k : Int) : Except Error (Option String) :=
  match grid.resolve? i, grid.resolve? j, grid.resolve? k with
  | some i, some j, some k =>
    .ok ((grid.decode? (grid.indexAt (i, j, k))).bind fun position => grid.palette[position]?)
  | _, _, _ => .error .outOfRange

/-- The places that hold a colour, in order. -/
def filledPlaces (grid : Grid) : List Place :=
  (places grid.side).filter fun p => grid.indexAt p != vacant

/-- The points of the places that hold a colour, in order. -/
def positions (grid : Grid) : List Point :=
  let along (i : Nat) : Float := Float.ofNat i * grid.step
  grid.filledPlaces.map fun p => ⟨along p.1, along p.2.1, along p.2.2⟩

end Grid

end Landform.Voxel
