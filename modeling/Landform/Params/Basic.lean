import Landform.Comparison
import Landform.Kind
import Landform.Noise.Escape
import Landform.Noise.Fractal
import Landform.Terrain

/-!
# Node parameters

Each node kind has parameters of its own, with defaults. `Params.fields` is their plain form in
graph files, one entry per field in a fixed order.
-/

namespace Landform

/-- The parameters of a Gaussian bell. -/
structure Bell where
  centerX : Float
  centerY : Float
  centerZ : Float
  spread : Float

/-- The source and target ranges of a remapping. -/
structure Bounds where
  inMin : Float
  inMax : Float
  outMin : Float
  outMax : Float

/-- The parameters of a comparison: the operator, and the numbers that stand for open branches. -/
structure Test where
  operator : Comparison
  useTrue : Float
  useFalse : Float

/-- The parameters of a node, by its kind. -/
inductive Params where
  | add
  | subtract
  | multiply
  | abs
  | lerp (power : Float)
  | coserp
  | gaussian (bell : Bell)
  | remap (bounds : Bounds)
  | distance (point : Point)
  | noise2d (settings : Noise.Settings Float)
  | noise3d (settings : Noise.Settings3 Float)
  | mandelbrot (view : Noise.Mandelbrot Float)
  | position
  | terrainType (terrain : Terrain)
  | compare (test : Test)
  | terrainOutput

namespace Params

/-- The kind that parameters belong to. -/
def kind : Params → Kind
  | add => .add
  | subtract => .subtract
  | multiply => .multiply
  | abs => .abs
  | lerp _ => .lerp
  | coserp => .coserp
  | gaussian _ => .gaussian
  | remap _ => .remap
  | distance _ => .distance
  | noise2d _ => .noise2d
  | noise3d _ => .noise3d
  | mandelbrot _ => .mandelbrot
  | position => .position
  | terrainType _ => .terrainType
  | compare _ => .compare
  | terrainOutput => .terrainOutput

end Params

/-! ## Defaults -/

/-- The noise of a fresh node, but for its seed. -/
def Noise.Settings.default (seed : Int) : Noise.Settings Float :=
  { offset := 0, scale := 1, spreadX := 250, spreadY := 250, seed := seed, octaves := 3,
    persist := 0.6, lacunarity := 2, flags := .defaults }

def Noise.Settings3.default (seed : Int) : Noise.Settings3 Float :=
  { Noise.Settings.default seed with spreadZ := 250 }

def Noise.Mandelbrot.default : Noise.Mandelbrot Float :=
  { scale := 10000000, offsetX := -0.7075, offsetZ := -0.353, steps := 150, remap := true,
    remapMin := 0, remapMax := 1 }

/-- The default parameters of a kind; noise gets the given seed. -/
def Kind.defaults (seed : Int) : Kind → Params
  | .add => .add
  | .subtract => .subtract
  | .multiply => .multiply
  | .abs => .abs
  | .lerp => .lerp 1
  | .coserp => .coserp
  | .gaussian => .gaussian ⟨0, 0, 0, 100⟩
  | .remap => .remap ⟨0, 1, 0, 1⟩
  | .distance => .distance ⟨0, 0, 0⟩
  | .noise2d => .noise2d (.default seed)
  | .noise3d => .noise3d (.default seed)
  | .mandelbrot => .mandelbrot .default
  | .position => .position
  | .terrainType => .terrainType ⟨"Stone", .solid, "#888888"⟩
  | .compare => .compare ⟨.less, 1, 0⟩
  | .terrainOutput => .terrainOutput

theorem Kind.kind_defaults (seed : Int) (k : Kind) : (k.defaults seed).kind = k := by
  cases k <;> rfl

/-! ## The plain form -/

/-- The plain form of noise settings. -/
def Noise.Settings.fields (s : Noise.Settings Float) : Fields :=
  [("offset", .float s.offset), ("scale", .float s.scale), ("spread_x", .float s.spreadX),
    ("spread_y", .float s.spreadY), ("seed", .int s.seed), ("octaves", .int s.octaves),
    ("persist", .float s.persist), ("lacunarity", .float s.lacunarity),
    ("flags", .int s.flags.bits)]

/-- The plain form of parameters. -/
def Params.fields : Params → Fields
  | .lerp power => [("power", .float power)]
  | .gaussian bell =>
    [("center_x", .float bell.centerX), ("center_y", .float bell.centerY),
      ("center_z", .float bell.centerZ), ("spread", .float bell.spread)]
  | .remap bounds =>
    [("in_min", .float bounds.inMin), ("in_max", .float bounds.inMax),
      ("out_min", .float bounds.outMin), ("out_max", .float bounds.outMax)]
  | .distance point =>
    [("point_x", .float point.x), ("point_y", .float point.y), ("point_z", .float point.z)]
  | .noise2d settings => settings.fields
  | .noise3d settings => settings.toSettings.fields ++ [("spread_z", .float settings.spreadZ)]
  | .mandelbrot view =>
    [("scale", .float view.scale), ("offset_x", .float view.offsetX),
      ("offset_z", .float view.offsetZ), ("steps", .int view.steps), ("remap", .bool view.remap),
      ("remap_min", .float view.remapMin), ("remap_max", .float view.remapMax)]
  | .terrainType terrain =>
    [("name", .text terrain.name), ("material", .text terrain.material.name),
      ("color", .text terrain.color)]
  | .compare test =>
    [("operator", .text test.operator.sign), ("use_true", .float test.useTrue),
      ("use_false", .float test.useFalse)]
  | _ => []

/-- The names of the fields of parameters. -/
def Params.fieldNames (p : Params) : List String :=
  p.fields.map (·.1)

end Landform
