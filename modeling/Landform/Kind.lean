import Landform.Port

/-!
# Node kinds

The kinds of nodes a terrain graph is made of: sources of numbers, arithmetic and shaping, and the
kinds that choose and deliver terrain. A kind fixes the ports of its nodes.
-/

namespace Landform

/-- The kinds of nodes. -/
inductive Kind where
  | add
  | subtract
  | multiply
  | abs
  | lerp
  | coserp
  | gaussian
  | remap
  | distance
  | noise2d
  | noise3d
  | mandelbrot
  | position
  | terrainType
  | compare
  | terrainOutput
deriving Repr, DecidableEq

namespace Kind

/-- Every kind once. -/
def all : List Kind :=
  [add, subtract, multiply, abs, lerp, coserp, gaussian, remap, distance, noise2d, noise3d,
    mandelbrot, position, terrainType, compare, terrainOutput]

/-- The name of a kind in graph files. -/
def name : Kind → String
  | add => "add"
  | subtract => "subtract"
  | multiply => "multiply"
  | abs => "abs"
  | lerp => "lerp"
  | coserp => "coserp"
  | gaussian => "gaussian"
  | remap => "remap"
  | distance => "distance"
  | noise2d => "noise2d"
  | noise3d => "noise3d"
  | mandelbrot => "mandelbrot"
  | position => "position"
  | terrainType => "terrain-type"
  | compare => "compare"
  | terrainOutput => "terrain-output"

/-- The name of a kind in an editor. -/
def label : Kind → String
  | add => "Add"
  | subtract => "Subtract"
  | multiply => "Multiply"
  | abs => "Absolute"
  | lerp => "Lerp"
  | coserp => "Coserp"
  | gaussian => "Gaussian"
  | remap => "Remap"
  | distance => "Distance"
  | noise2d => "2D Noise"
  | noise3d => "3D Noise"
  | mandelbrot => "Mandelbrot"
  | position => "Position"
  | terrainType => "Terrain Type"
  | compare => "Compare"
  | terrainOutput => "Terrain Output"

/-- The name of a kind in diagnostics. -/
def title : Kind → String
  | add => "AddKind"
  | subtract => "SubtractKind"
  | multiply => "MultiplyKind"
  | abs => "AbsKind"
  | lerp => "LerpKind"
  | coserp => "CoserpKind"
  | gaussian => "GaussianKind"
  | remap => "RemapKind"
  | distance => "DistanceKind"
  | noise2d => "Noise2DKind"
  | noise3d => "Noise3DKind"
  | mandelbrot => "MandelbrotKind"
  | position => "PositionKind"
  | terrainType => "TerrainTypeKind"
  | compare => "CompareKind"
  | terrainOutput => "TerrainOutputKind"

/-- A kind as diagnostics show it. -/
def shown (k : Kind) : String :=
  s!"{k.title}(kind={Text.quoted k.name})"

/-! ## Ports -/

/-- A required number input. -/
def number (role name : String) : PortSpec :=
  .input role name .float false

/-- An optional terrain input. -/
def branch (role name : String) : PortSpec :=
  .input role name .terrain true

/-- The inputs that take a point. -/
def pointInputs : List PortSpec :=
  [number "x" "X", number "y" "Y", number "z" "Z"]

/-- The inputs of a kind, in order. -/
def inputs : Kind → List PortSpec
  | add | subtract | multiply => [number "in1" "A", number "in2" "B"]
  | abs | remap => [number "in" "Value"]
  | lerp | coserp => [number "in1" "A", number "in2" "B", number "factor" "Factor"]
  | gaussian | distance => pointInputs
  | noise2d | noise3d | mandelbrot | position | terrainType => []
  | compare =>
    [number "in1" "A", number "in2" "B", branch "useTrue" "If True", branch "useFalse" "If False"]
  | terrainOutput => [.input "in" "Terrain" .terrain false]

/-- The outputs of a kind, in order. -/
def outputs : Kind → List PortSpec
  | noise2d | noise3d | mandelbrot => [.output "out" "Value" .float]
  | distance => [.output "out" "Distance" .float]
  | position => [.output "outX" "X" .float, .output "outY" "Y" .float, .output "outZ" "Z" .float]
  | terrainType => [.output "out" "Terrain" .terrain]
  | compare => [.output "out" "Result" .terrain]
  | terrainOutput => []
  | _ => [.output "out" "Result" .float]

end Kind

end Landform
