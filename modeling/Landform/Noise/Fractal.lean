import Landform.Noise.Flags
import Landform.Noise.Gradient

/-!
# Fractal noise

Fractal noise is a sum of octaves of value noise. From one octave to the next the seed grows by
one, the frequency by the lacunarity and the amplitude by the persistence. The sum is scaled and
shifted at the end. In the plane the octaves are eased under the defaults and under the easing
flag, in space only under the latter.
-/

namespace Landform.Noise

variable {α : Type} [Scalar α]

/-- How a noise field in the plane is computed. -/
structure Settings (α : Type) where
  offset : α
  scale : α
  spreadX : α
  spreadY : α
  seed : Int
  octaves : Nat
  persist : α
  lacunarity : α
  flags : Flags

/-- How a noise field in space is computed. -/
structure Settings3 (α : Type) extends Settings α where
  spreadZ : α

/-! ## Octaves -/

/-- Adds `count` octaves to `total`. The field is given by the frequency and the seed of an octave;
`frequency` and `amplitude` are those of the first octave added. -/
@[specialize] def addOctaves (lacunarity persist : α) (field : α → Int → α) :
    (count : Nat) → (seed : Int) → (frequency amplitude total : α) → α
  | 0, _, _, _, total => total
  | count + 1, seed, frequency, amplitude, total =>
    addOctaves lacunarity persist field count (seed + 1) (frequency * lacunarity)
      (amplitude * persist) (total + amplitude * field frequency seed)

/-- The shifted and scaled sum of the octaves of a field. -/
@[specialize] def Settings.sum (s : Settings α) (seed : Int) (field : α → Int → α) : α :=
  s.offset + addOctaves s.lacunarity s.persist field s.octaves seed (Scalar.ofInt 1)
    (Scalar.ofInt 1) (Scalar.ofInt 0) * s.scale

/-- A number, or its absolute value if the flags ask for it. -/
@[specialize] def Flags.fold (flags : Flags) (v : α) : α :=
  if flags.hasAbsvalue then Scalar.abs v else v

/-! ## The fields -/

/-- Whether a field in the plane is eased. -/
def Flags.eases2 (flags : Flags) : Bool :=
  flags.hasDefaults || flags.hasEased

/-- Whether a field in space is eased. -/
def Flags.eases3 (flags : Flags) : Bool :=
  flags.hasEased

/-- Fractal noise in the plane; `seedOffset` shifts the seed. -/
@[specialize] def Settings.fractal2 (s : Settings α) (x y : α) (seedOffset : Int) : α :=
  let x := x / s.spreadX
  let y := y / s.spreadY
  s.sum (seedOffset + s.seed) fun f seed =>
    s.flags.fold (gradient2 (x * f) (y * f) seed s.flags.eases2)

/-- Fractal noise in space; `seedOffset` shifts the seed. -/
@[specialize] def Settings3.fractal3 (s : Settings3 α) (x y z : α) (seedOffset : Int) : α :=
  let x := x / s.spreadX
  let y := y / s.spreadY
  let z := z / s.spreadZ
  s.sum (seedOffset + s.seed) fun f seed =>
    s.flags.fold (gradient3 (x * f) (y * f) (z * f) seed s.flags.eases3)

end Landform.Noise
